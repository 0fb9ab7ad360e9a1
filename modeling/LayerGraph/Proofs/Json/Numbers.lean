import LayerGraph.Proofs.Json.Layout
import LayerGraph.Proofs.Numeric.Narrowing
import LayerGraph.Json.Record

/-! # Numbers of documents

  Integers and single precision values stand in documents as numerals. The numerals that are written
  are such as a document has them, and each is read as the number it was written for: integers up to
  the width of the field, and single precision values if they are real numbers. The others are
  written as null, which no field for a number reads.
-/

namespace LayerGraph

/-! ### Digits -/

namespace Numeral

theorem length_digits (n : Nat) : (digits n).length = Decimal.length n := by
  induction n using Nat.strong_induction_on with
  | _ n ih =>
    rw [Decimal.length]
    unfold digits at ih ⊢
    rw [Nat.toDigits_eq_if (by decide)]
    split
    · rfl
    · rw [List.length_append, ih (n / 10) (by omega), List.length_singleton]

/-- Only zero begins with a zero. -/
theorem eq_zero_of_head_digits {n : Nat} (h : (digits n).head? = some '0') : n = 0 := by
  induction n using Nat.strong_induction_on with
  | _ n ih =>
    unfold digits at ih h
    rw [Nat.toDigits_eq_if (by decide)] at h
    split at h
    · next hlt =>
      interval_cases n <;> first | rfl | exact absurd h (by decide)
    · next hge =>
      rw [List.head?_append_of_ne_nil _ Nat.toDigits_ne_nil] at h
      have hzero := ih (n / 10) (by omega) h
      omega

theorem ofDigits_append (ds ds' : List Char) :
    ofDigits (ds ++ ds') = ds'.foldl (fun n c => 10 * n + digitValue c) (ofDigits ds) := by
  rw [ofDigits, List.foldl_append, ofDigits]

theorem foldl_replicate_zero (n k : Nat) :
    (List.replicate k '0').foldl (fun n c => 10 * n + digitValue c) n = n * 10 ^ k := by
  induction k generalizing n with
  | zero => simp
  | succ k ih =>
    rw [List.replicate_succ, List.foldl_cons, ih, show digitValue '0' = 0 from rfl, Nat.pow_succ]
    ring

theorem le_foldl (ds : List Char) (n : Nat) :
    n ≤ ds.foldl (fun n c => 10 * n + digitValue c) n := by
  induction ds generalizing n with
  | nil => exact Nat.le_refl n
  | cons c ds ih =>
    rw [List.foldl_cons]
    exact le_trans (by omega) (ih _)

/-- Digits that stay below the limit are all gathered. -/
theorem gather_eq {ds : List Char} {n : Nat}
    (h : ds.foldl (fun n c => 10 * n + digitValue c) n < 2 ^ 64) :
    gather n ds = (ds.foldl (fun n c => 10 * n + digitValue c) n, []) := by
  induction ds generalizing n with
  | nil => rfl
  | cons c ds ih =>
    rw [List.foldl_cons] at h ⊢
    rw [gather, if_pos (lt_of_le_of_lt (le_foldl ds _) h), ih h]

/-- A numeral of few digits is read without leaving one out. -/
theorem leading_eq {n : Numeral} (h : ofDigits (n.whole ++ n.fraction) < 2 ^ 64) :
    n.leading = ⟨ofDigits (n.whole ++ n.fraction), n.exponent.getD 0 - n.fraction.length⟩ := by
  rw [ofDigits_append] at h ⊢
  have hwhole : gather 0 n.whole = (ofDigits n.whole, []) :=
    gather_eq (lt_of_le_of_lt (le_foldl n.fraction _) h)
  rw [leading, hwhole]
  dsimp only
  rw [gather_eq h]
  simp only [List.length_nil, Nat.cast_zero, sub_zero, zero_sub, Decimal.mk.injEq, true_and]
  ring

end Numeral

/-! ### Printed decimals -/

namespace Decimal

variable {d : Decimal} {negative : Bool}

theorem head_digits_append {n : Nat} {ds : List Char}
    (h : (Numeral.digits n ++ ds).head? = some '0') : n = 0 := by
  rw [List.head?_append_of_ne_nil _ (Numeral.digits_ne_nil n)] at h
  exact Numeral.eq_zero_of_head_digits h

theorem take_one_of_head? {ds : List Char} {c : Char} (h : (ds.take 1).head? = some c) :
    ds.take 1 = [c] := by
  cases ds with
  | nil => cases h
  | cons d ds =>
    obtain rfl := Option.some.inj h
    rfl

/-- Digits behind as many zeros as there must be. -/
theorem ofDigits_padded (n k : Nat) :
    Numeral.ofDigits (List.replicate k '0' ++ Numeral.digits n) = n := by
  rw [Numeral.ofDigits_append, Numeral.ofDigits, Numeral.foldl_replicate_zero, Nat.zero_mul]
  exact Numeral.ofDigits_digits n

theorem wellFormed_scientific : (d.scientific negative).WellFormed := by
  have hdigit : ∀ c ∈ Numeral.digits d.digits, c.isDigit = true :=
    fun c hc => Numeral.isDigit_of_mem_digits hc
  refine ⟨?_, fun c hc => hdigit c (List.mem_of_mem_take hc), ?_,
    fun c hc => hdigit c (List.mem_of_mem_drop hc)⟩
  · show (Numeral.digits d.digits).take 1 ≠ []
    rw [ne_eq, List.take_eq_nil_iff, not_or]
    exact ⟨by decide, Numeral.digits_ne_nil _⟩
  · exact take_one_of_head?

theorem leading_scientific (h : d.digits < 2 ^ 64) : (d.scientific negative).leading = d := by
  have hall : (d.scientific negative).whole ++ (d.scientific negative).fraction =
      Numeral.digits d.digits := List.take_append_drop 1 _
  have hdigits : Numeral.ofDigits ((d.scientific negative).whole ++
      (d.scientific negative).fraction) = d.digits := by
    rw [hall, Numeral.ofDigits_digits]
  have hlength : (d.scientific negative).fraction.length = length d.digits - 1 := by
    rw [← Numeral.length_digits]
    exact List.length_drop
  rw [Numeral.leading_eq (by rwa [hdigits]), hdigits, hlength]
  have hpos := length_pos d.digits
  have hexponent : (d.scientific negative).exponent.getD 0 - ((length d.digits - 1 : ℕ) : ℤ) =
      d.exponent := by
    show d.magnitude - _ = _
    rw [magnitude]
    omega
  rw [hexponent]

theorem isDigit_zeros {k : Nat} {c : Char} (h : c ∈ List.replicate k '0') : c.isDigit = true := by
  rw [List.eq_of_mem_replicate h]
  decide

theorem wellFormed_positional : (d.positional negative 1).WellFormed := by
  have hdigit : ∀ c ∈ Numeral.digits d.digits, c.isDigit = true :=
    fun c hc => Numeral.isDigit_of_mem_digits hc
  rw [positional]
  dsimp only
  split
  · refine ⟨?_, ?_, ?_, fun c hc => isDigit_zeros hc⟩
    · exact List.append_ne_nil_of_left_ne_nil (Numeral.digits_ne_nil _) _
    · intro c hc
      rcases List.mem_append.mp hc with hc | hc
      · exact hdigit c hc
      · exact isDigit_zeros hc
    · intro hhead
      rw [head_digits_append hhead]
      rfl
  · next hneg =>
    generalize hbehind : (-d.exponent).toNat = behind
    have hpadded : ∀ c ∈ List.replicate (behind + 1 - (Numeral.digits d.digits).length) '0' ++
        Numeral.digits d.digits, c.isDigit = true := by
      intro c hc
      rcases List.mem_append.mp hc with hc | hc
      · exact isDigit_zeros hc
      · exact hdigit c hc
    refine ⟨?_, fun c hc => hpadded c (List.mem_of_mem_take hc), ?_,
      fun c hc => hpadded c (List.mem_of_mem_drop hc)⟩
    · dsimp only
      rw [ne_eq, List.take_eq_nil_iff, not_or, ← List.length_eq_zero_iff]
      simp only [List.length_append, List.length_replicate]
      omega
    · dsimp only
      rw [List.length_append, List.length_replicate]
      obtain hshort | hlong := Nat.lt_or_ge behind (Numeral.digits d.digits).length
      · -- The digits before the point are digits of the number.
        rw [Nat.sub_eq_zero_of_le hshort, List.replicate_zero, List.nil_append, Nat.zero_add,
          List.head?_take, if_neg (by omega)]
        intro hhead
        have hzero := Numeral.eq_zero_of_head_digits hhead
        rw [hzero, show (Numeral.digits 0).length = 1 from rfl] at hshort
        omega
      · rw [show behind + 1 - (Numeral.digits d.digits).length + (Numeral.digits d.digits).length -
          behind = 1 by omega]
        exact take_one_of_head?

/-- With a fraction all digits are read again. -/
theorem leading_positional_of_neg (hexponent : d.exponent < 0) (h : d.digits < 2 ^ 64) :
    (d.positional negative 1).leading = d := by
  -- The digits are padded until there is one in front of the point.
  obtain ⟨padded, hpadded⟩ : ∃ padded, List.replicate ((-d.exponent).toNat + 1 -
      (Numeral.digits d.digits).length) '0' ++ Numeral.digits d.digits = padded := ⟨_, rfl⟩
  have hpositional : d.positional negative 1 = ⟨negative,
      padded.take (padded.length - (-d.exponent).toNat),
      padded.drop (padded.length - (-d.exponent).toNat), none⟩ := by
    rw [positional]
    dsimp only
    rw [if_neg (by omega), hpadded]
  have hdigits : Numeral.ofDigits padded = d.digits := by
    rw [← hpadded, ofDigits_padded]
  have hlength : (-d.exponent).toNat ≤ padded.length := by
    rw [← hpadded, List.length_append, List.length_replicate]
    omega
  have hall : Numeral.ofDigits ((d.positional negative 1).whole ++
      (d.positional negative 1).fraction) = d.digits := by
    rw [hpositional]
    dsimp only
    rw [List.take_append_drop, hdigits]
  have hbehind : (d.positional negative 1).fraction.length = (-d.exponent).toNat := by
    rw [hpositional]
    dsimp only
    rw [List.length_drop]
    omega
  have hnone : (d.positional negative 1).exponent = none := by rw [hpositional]
  rw [Numeral.leading_eq (by rwa [hall]), hall, hbehind, hnone, Option.getD_none,
    show (0 : ℤ) - ((-d.exponent).toNat : ℕ) = d.exponent by omega]

/-- A whole number has one digit more. -/
theorem leading_positional_of_nonneg (hexponent : 0 ≤ d.exponent) (hpos : d.digits ≠ 0)
    (h : 10 * (d.digits * 10 ^ d.exponent.toNat) < 2 ^ 64) :
    (d.positional negative 1).leading = ⟨10 * (d.digits * 10 ^ d.exponent.toNat), -1⟩ := by
  have hpositional : d.positional negative 1 = ⟨negative, Numeral.digits d.digits ++
      List.replicate d.exponent.toNat '0', ['0'], none⟩ := by
    rw [positional]
    dsimp only
    rw [if_pos hexponent, if_neg hpos]
    rfl
  have hdigits : Numeral.ofDigits (Numeral.digits d.digits ++
      List.replicate d.exponent.toNat '0' ++ ['0']) = 10 * (d.digits * 10 ^ d.exponent.toNat) := by
    rw [Numeral.ofDigits_append, Numeral.ofDigits_append, Numeral.ofDigits_digits,
      Numeral.foldl_replicate_zero]
    rfl
  rw [hpositional, Numeral.leading_eq (by rwa [hdigits]), hdigits]
  rfl

theorem negative_positional : (d.positional negative 1).negative = negative := by
  rw [positional]
  dsimp only
  split <;> rfl

/-- A decimal with a fraction or an exponent is not written like an integer. -/
theorem isInteger_scientific : (d.scientific negative).isInteger = false := by
  simp [Numeral.isInteger, scientific]

theorem isInteger_positional : (d.positional negative 1).isInteger = false := by
  rw [positional]
  dsimp only
  split
  · simp [Numeral.isInteger]
  · next hneg =>
    have hbehind : 0 < (-d.exponent).toNat := by omega
    simp only [Numeral.isInteger, Option.isNone_none, Bool.and_true, List.isEmpty_eq_false_iff,
      ← List.length_pos_iff_ne_nil, List.length_drop, List.length_append, List.length_replicate]
    omega

end Decimal

namespace Binary

variable {F : FloatFormat}

/-! ### Signs -/

@[simp] theorem code_abs (x : Binary F) : x.abs.code = x.code := code_ofCode x.code_lt

@[simp] theorem isNegative_abs (x : Binary F) : x.abs.isNegative = false :=
  isNegative_ofCode x.code_lt

theorem neg_ofCode {negative : Bool} {code : Nat} (h : code < F.signWeight) :
    -(ofCode negative code : Binary F) = ofCode (!negative) code := by
  show ofCode (!(ofCode negative code : Binary F).isNegative) (ofCode negative code : Binary F).code
    = _
  rw [isNegative_ofCode h, code_ofCode h]

theorem neg_abs {x : Binary F} (h : x.isNegative = true) : -x.abs = x := by
  rw [abs, neg_ofCode x.code_lt, Bool.not_false, ← h, ofCode_code]

theorem abs_of_nonneg {x : Binary F} (h : x.isNegative = false) : x.abs = x := by
  rw [abs, ← h, ofCode_code]

/-- The sign does not matter to a change of format. -/
theorem convert_neg {G : FloatFormat} {y : Binary F} (h : y.isNaN = false) :
    (-y).convert G = -y.convert G := by
  have hcode : (-y).code = y.code := code_ofCode y.code_lt
  have hnegative : (-y).isNegative = !y.isNegative := isNegative_ofCode y.code_lt
  have hnan : (-y).isNaN = false := by rw [isNaN, hcode]; exact h
  have hinfinite : (-y).isInfinite = y.isInfinite := by rw [isInfinite, hcode, isInfinite]
  have hunits : (-y).units = y.units := by rw [units, hcode, units]
  rw [convert, convert, hnan, h, hinfinite, hnegative, hunits]
  simp only [Bool.false_eq_true, if_false]
  split
  · exact (neg_ofCode infinity_lt_signWeight).symm
  · exact (neg_ofCode (nearest_lt_signWeight _ _)).symm

/-- Neither does it matter to the digits. -/
theorem shortest_abs (tie : DecimalTie) (x : Binary F) : x.abs.shortest tie = x.shortest tie := by
  simp only [shortest, roundingInterval, units, code_abs]

/-! ### Single precision values as numerals -/

/-- What the numeral of a value must be. -/
structure Printed (x : Binary32) (n : Numeral) : Prop where
  wellFormed : n.WellFormed
  isInteger : n.isInteger = false
  negative : n.negative = x.isNegative
  readAs : n.leading.ReadAs x.abs

/-- A numeral with these digits is read as the value. -/
theorem Printed.convert_eq {x : Binary32} {n : Numeral} (h : Printed x n) :
    n.toBinary64?.map (convert .binary32) = some x := by
  obtain ⟨y, hy, hnan, hconvert⟩ := h.readAs
  rw [Numeral.toBinary64?_eq, hy, Option.map_some, Option.map_some, h.negative]
  cases hnegative : x.isNegative with
  | true => rw [if_pos rfl, convert_neg hnan, hconvert, neg_abs hnegative]
  | false => rw [if_neg (by decide), hconvert, abs_of_nonneg hnegative]

/-- Zero has one digit before the point and one behind it. -/
theorem readAs_zero : Decimal.ReadAs ⟨0, -1⟩ (ofCode false 0) := by
  refine ⟨ofInt (0 : ℕ) / tenPower (0 + 1), ?_, by decide +kernel, by decide +kernel⟩
  show some ((ofInt (0 : ℕ) : Binary64).scaledDown (0 + 1)) = _
  rw [scaledDown, if_pos (by decide)]

/-- A decimal that is written without an exponent is no longer than thirteen digits. -/
theorem mul_pow_lt {d : Decimal} (hexponent : 0 ≤ d.exponent) (h : d.magnitude ≤ 12) :
    d.digits * 10 ^ d.exponent.toNat < 10 ^ 13 := by
  have hlt := Decimal.lt_pow_length d.digits
  rw [Decimal.magnitude] at h
  calc d.digits * 10 ^ d.exponent.toNat
      < 10 ^ Decimal.length d.digits * 10 ^ d.exponent.toNat :=
        Nat.mul_lt_mul_of_pos_right hlt (Nat.pow_pos (by decide))
    _ = 10 ^ (Decimal.length d.digits + d.exponent.toNat) := (Nat.pow_add ..).symm
    _ ≤ 10 ^ 13 := Nat.pow_le_pow_right (by decide) (by omega)

/-- Without an exponent the shortest decimal is read as the value. -/
theorem readAs_positional {x : Binary32} {negative : Bool} (hnonneg : x.isNegative = false)
    (hx : x.code < FloatFormat.binary32.infinity) (h : (x.shortest .even).magnitude ≤ 12) :
    ((x.shortest .even).positional negative 1).leading.ReadAs x := by
  by_cases hzero : x.code = 0
  · have hshortest : x.shortest .even = ⟨0, 0⟩ := by rw [shortest, if_pos hzero]
    rw [hshortest, ← ofCode_code x, hnonneg, hzero]
    exact readAs_zero
  · have hshort := shortest_short .even hzero
    have hread := scaled_shortest hnonneg hx hzero
    generalize x.shortest .even = d at *
    have hdigits := hshort.digits_le
    obtain hneg | hexponent := lt_or_ge d.exponent 0
    · rwa [Decimal.leading_positional_of_neg hneg (lt_of_le_of_lt hdigits (by norm_num))]
    · -- The zero behind the point is read as one more digit of the number.
      have hlt := mul_pow_lt hexponent h
      have hwhole : d.toRat = (d.digits * 10 ^ d.exponent.toNat : ℕ) := by
        rw [Decimal.toRat]
        push_cast
        rw [← zpow_natCast, Int.toNat_of_nonneg hexponent]
      have hholds := hshort.holds
      rw [hwhole] at hholds
      have hpos := hshort.digits_pos
      rw [Decimal.leading_positional_of_nonneg hexponent hpos.ne' (by omega)]
      exact scaled_whole hnonneg hx (Nat.mul_pos hpos (Nat.pow_pos (by decide))) (by omega) hholds

/-- With an exponent it is read as the value too. -/
theorem readAs_scientific {x : Binary32} {negative : Bool} (hnonneg : x.isNegative = false)
    (hx : x.code < FloatFormat.binary32.infinity) (h : x.code ≠ 0) :
    ((x.shortest .even).scientific negative).leading.ReadAs x := by
  have hdigits := (shortest_short .even h).digits_le
  rw [Decimal.leading_scientific (lt_of_le_of_lt hdigits (by norm_num))]
  exact scaled_shortest hnonneg hx h

/-- The numeral of a real number. -/
theorem exists_printed {x : Binary32} (hx : x.isFinite = true) :
    ∃ n, x.numeral? binary32Range = some n ∧ Printed x n := by
  have hcode : x.abs.code < FloatFormat.binary32.infinity := by
    rw [code_abs]
    exact decide_eq_true_eq.mp hx
  rw [numeral?, if_pos hx]
  dsimp only
  rw [← shortest_abs]
  split
  · next hrange =>
    exact ⟨_, rfl, Decimal.wellFormed_positional, Decimal.isInteger_positional,
      Decimal.negative_positional,
      readAs_positional (isNegative_abs x) hcode hrange.2⟩
  · next hrange =>
    -- Zero is printed without an exponent.
    have hne : x.abs.code ≠ 0 := by
      intro hzero
      have hshortest : x.abs.shortest .even = ⟨0, 0⟩ := by rw [shortest, if_pos hzero]
      rw [hshortest] at hrange
      exact hrange (by decide +kernel)
    exact ⟨_, rfl, Decimal.wellFormed_scientific, Decimal.isInteger_scientific, rfl,
      readAs_scientific (isNegative_abs x) hcode hne⟩

end Binary

namespace Json

/-! ### Fields -/

/-- A numeral with a fraction or an exponent is read by way of double precision. -/
theorem binary32?_number {n : Numeral} (h : n.isInteger = false) :
    (number n).binary32? = n.toBinary64?.map (Binary.convert .binary32) := by
  have hint : (number n).int? = none := by simp [int?, h]
  rw [binary32?, hint]
  rfl

/-- A single precision value is written as a numeral if it is a real number, and as null if it is
    none. -/
theorem ofBinary32_cases (x : Binary32) :
    (x.isFinite = true ∧ ∃ n, ofBinary32 x = .number n ∧ Binary.Printed x n) ∨
      (x.isFinite = false ∧ ofBinary32 x = .null) := by
  unfold ofBinary32
  cases hfinite : x.isFinite with
  | false =>
    have hnone : x.numeral? Binary.binary32Range = none := by
      rw [Binary.numeral?, hfinite, if_neg (by decide)]
    rw [hnone]
    exact .inr ⟨rfl, rfl⟩
  | true =>
    obtain ⟨n, hn, hprinted⟩ := Binary.exists_printed hfinite
    rw [hn]
    exact .inl ⟨rfl, n, rfl, hprinted⟩

theorem printable_ofBinary32 (x : Binary32) : (ofBinary32 x).Printable := by
  obtain ⟨-, n, heq, hprinted⟩ | ⟨-, heq⟩ := ofBinary32_cases x
  · rw [heq]
    exact .number hprinted.wellFormed
  · rw [heq]
    exact .null

/-- A real number is read as it was written, and nothing else is read at all. -/
theorem binary32?_ofBinary32 (x : Binary32) :
    (ofBinary32 x).binary32? = if x.isFinite then some x else none := by
  obtain ⟨hfinite, n, heq, hprinted⟩ | ⟨hfinite, heq⟩ := ofBinary32_cases x
  · rw [heq, hfinite, if_pos rfl, binary32?_number hprinted.isInteger, hprinted.convert_eq]
  · rw [heq, hfinite, if_neg (by decide)]
    rfl

theorem printable_ofInt (n : Int) : (ofInt n).Printable := by
  refine .number ⟨Numeral.digits_ne_nil _, fun c hc => Numeral.isDigit_of_mem_digits hc, ?_, ?_⟩
  · show (Numeral.digits n.natAbs).head? = _ → Numeral.digits n.natAbs = _
    intro hhead
    rw [Numeral.eq_zero_of_head_digits hhead]
    rfl
  · exact fun c hc => absurd hc List.not_mem_nil

/-- An integer is read as it was written. -/
theorem int?_ofInt (n : Int) : (ofInt n).int? = some n := by
  unfold ofInt int? Numeral.ofInt
  simp only [Numeral.isInteger, List.isEmpty_nil, Option.isNone_none, Bool.and_self,
    Bool.not_true, Bool.false_eq_true, if_false, Numeral.ofDigits_digits]
  split
  · next hneg =>
    rw [decide_eq_true_eq] at hneg
    rw [if_neg (by omega), Option.some.injEq]
    omega
  · next hneg =>
    rw [decide_eq_true_eq] at hneg
    rw [Option.some.injEq]
    omega

/-- And so it is when there are bounds. -/
theorem intIn?_ofInt {lo hi n : Int} (hlo : lo ≤ n) (hhi : n ≤ hi) :
    (ofInt n).intIn? lo hi = some n := by
  rw [intIn?, int?_ofInt, Option.filter_some, if_pos (by simp [hlo, hhi])]

theorem int32?_ofInt32 (n : Int32) : (ofInt32 n).int32? = some n := by
  rw [int32?, ofInt32, intIn?_ofInt n.le_toInt (Int.le_sub_one_of_lt n.toInt_lt), Option.map_some,
    Int32.ofInt_toInt]

theorem int64?_ofInt (n : Int64) : (ofInt n.toInt).int64? = some n := by
  rw [int64?, intIn?_ofInt n.le_toInt (Int.le_sub_one_of_lt n.toInt_lt), Option.map_some,
    Int64.ofInt_toInt]

theorem uint32?_ofUInt32 (n : UInt32) : (ofUInt32 n).uint32? = some n := by
  have hlt := n.toNat_lt
  rw [uint32?, ofUInt32, intIn?_ofInt (by omega) (by omega), Option.map_some, Int.toNat_natCast,
    UInt32.ofNat_toNat]

theorem uint8?_ofInt (n : UInt8) : (ofInt n.toNat).uint8? = some n := by
  have hlt := n.toNat_lt
  rw [uint8?, intIn?_ofInt (by omega) (by omega), Option.map_some, Int.toNat_natCast,
    UInt8.ofNat_toNat]

end Json

end LayerGraph
