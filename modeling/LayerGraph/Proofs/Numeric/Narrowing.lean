import LayerGraph.Proofs.Numeric.Confusion

/-! # Shortest decimals are read back

  The shortest decimal of a single precision value is read in double precision and then rounded
  once more. Neither step is exact, and the first is not even the nearest value of double
  precision; but together they give the value back.

  The first step ends in the rounding interval of the value: with nine digits the decimal is far
  from the ends of the interval, and one of eight digits that is not an end is as far from the ends
  as the error, or has been looked at (`Decimal.eq_or_kept_of_near`).
-/

namespace LayerGraph

/-- A decimal is read as a single precision value, by way of double precision. -/
def Decimal.ReadAs (d : Decimal) (x : Binary32) : Prop :=
  ∃ y : Binary64, d.scaled? = some y ∧ y.isNaN = false ∧ y.convert .binary32 = x

namespace Binary

variable {x : Binary32}

/-! ### The ends of a rounding interval -/

/-- The upper end is a number of 25 bits. -/
theorem exists_upper (x : Binary32) : ∃ (m : ℕ) (k : ℤ), 0 < m ∧ m < 2 ^ 25 ∧
    (x.roundingInterval.upper : ℚ) / x.roundingInterval.den = m * 2 ^ k := by
  have hm : FloatFormat.binary32.significand x.code < 2 ^ 24 :=
    FloatFormat.binary32.significand_lt x.code
  refine ⟨2 * FloatFormat.binary32.significand x.code + 1,
    FloatFormat.binary32.exponent x.code - 150, by omega, by omega, ?_⟩
  rw [den_roundingInterval, roundingInterval_upper, show FloatFormat.binary32.scale = 149 from rfl,
    zpow_sub₀ two_ne_zero, zpow_natCast]
  push_cast
  field_simp
  ring

/-- The lower end is a number of 25 bits. -/
theorem exists_lower (h : x.code ≠ 0) : ∃ (m : ℕ) (k : ℤ), 0 < m ∧ m < 2 ^ 25 ∧
    (x.roundingInterval.lower : ℚ) / x.roundingInterval.den = m * 2 ^ k := by
  have hm : FloatFormat.binary32.significand x.code < 2 ^ 24 :=
    FloatFormat.binary32.significand_lt x.code
  have hpos := significand_pos h
  rw [den_roundingInterval, roundingInterval_lower, show FloatFormat.binary32.scale = 149 from rfl]
  generalize FloatFormat.binary32.exponent x.code = t
  -- Below the first significand of an exponent the gap is half as wide.
  split
  · next hfirst =>
    rw [hfirst.2]
    refine ⟨2 ^ 25 - 1, t - 151, by norm_num, by norm_num, ?_⟩
    have hlower : 4 * (FloatFormat.binary32.hidden * 2 ^ t) - 1 * 2 ^ t = (2 ^ 25 - 1) * 2 ^ t := by
      rw [show FloatFormat.binary32.hidden = 2 ^ 23 from rfl, ← Nat.mul_assoc, ← Nat.sub_mul]
      norm_num
    rw [hlower, zpow_sub₀ two_ne_zero, zpow_natCast]
    push_cast
    ring
  · generalize FloatFormat.binary32.significand x.code = m at *
    refine ⟨2 * m - 1, t - 150, by omega, by omega, ?_⟩
    have hlower : 4 * (m * 2 ^ t) - 2 * 2 ^ t = (2 * m - 1) * 2 * 2 ^ t := by
      rw [← Nat.mul_assoc, ← Nat.sub_mul]
      congr 1
      omega
    rw [hlower, zpow_sub₀ two_ne_zero, zpow_natCast]
    field_simp
    push_cast
    ring

/-- There is nothing in the interval beyond the range of single precision. -/
theorem upper_le (hx : x.code < FloatFormat.binary32.infinity) :
    (x.roundingInterval.upper : ℚ) / x.roundingInterval.den ≤ 2 ^ 128 := by
  have hm : FloatFormat.binary32.significand x.code < 2 ^ 24 :=
    FloatFormat.binary32.significand_lt x.code
  have ht : FloatFormat.binary32.exponent x.code ≤ 253 := by
    have hcode : x.code < 255 * 2 ^ 23 := hx
    rw [FloatFormat.exponent, show FloatFormat.binary32.hidden = 2 ^ 23 from rfl]
    omega
  rw [den_roundingInterval, roundingInterval_upper, show FloatFormat.binary32.scale = 149 from rfl,
    div_le_iff₀ (by positivity)]
  generalize FloatFormat.binary32.significand x.code = m at *
  generalize FloatFormat.binary32.exponent x.code = t at *
  have hpow : 2 ^ t ≤ 2 ^ 253 := Nat.pow_le_pow_right (by decide) ht
  have hupper : 4 * (m * 2 ^ t) + 2 * 2 ^ t ≤ 2 ^ 128 * (4 * 2 ^ 149) := by
    calc 4 * (m * 2 ^ t) + 2 * 2 ^ t = (4 * m + 2) * 2 ^ t := by ring
      _ ≤ 2 ^ 26 * 2 ^ 253 := Nat.mul_le_mul (by omega) hpow
      _ = 2 ^ 128 * (4 * 2 ^ 149) := by norm_num
  exact_mod_cast hupper

/-- What is in the interval is no smaller than half of the least positive value. -/
theorem le_value (h : x.code ≠ 0) : 1 / 2 ^ 149 ≤ x.toRat := by
  have hm := significand_pos h
  have hunits : 1 ≤ x.units := Nat.mul_pos hm (Nat.two_pow_pos _)
  rw [toRat, show FloatFormat.binary32.scale = 149 from rfl]
  have hone : (1 : ℚ) ≤ x.units := by exact_mod_cast hunits
  gcongr

/-! ### Rounding into single precision -/

/-- A fraction of units that lies in the rounding interval of a value is rounded to it. -/
theorem nearest_of_holds {num den : ℕ} (hx : x.code < FloatFormat.binary32.infinity)
    (hden : 0 < den) (h : x.roundingInterval.Holds (num / den / 2 ^ FloatFormat.binary32.scale)) :
    FloatFormat.binary32.nearest num den = x.code := by
  have hden' : (0 : ℚ) < den := by exact_mod_cast hden
  have hvalue : (num : ℚ) / den / 2 ^ FloatFormat.binary32.scale =
      (4 * num : ℕ) / (x.roundingInterval.den * den : ℕ) := by
    rw [den_roundingInterval]
    push_cast
    field_simp
  -- All three are brought to one denominator, and compared as natural numbers.
  have hend (e : ℕ) : (e : ℚ) / x.roundingInterval.den =
      (e * den : ℕ) / (x.roundingInterval.den * den : ℕ) := by
    push_cast
    rw [mul_div_mul_right _ _ hden'.ne']
  have hpos : (0 : ℚ) < (x.roundingInterval.den * den : ℕ) := by
    exact_mod_cast Nat.mul_pos den_pos hden
  rw [RoundingInterval.Holds, hvalue, hend, hend, div_lt_div_iff_of_pos_right hpos,
    div_lt_div_iff_of_pos_right hpos, div_left_inj' hpos.ne', div_left_inj' hpos.ne', Nat.cast_lt,
    Nat.cast_lt, Nat.cast_inj, Nat.cast_inj] at h
  have hclosed (hc : x.roundingInterval.closed = true) : x.code % 2 = 0 := by
    simpa [roundingInterval] using hc
  have horder : x.roundingInterval.lower * den ≤ x.roundingInterval.upper * den := by
    refine Nat.mul_le_mul_right den ?_
    rw [roundingInterval_lower, roundingInterval_upper]
    omega
  refine nearest_eq_code (by decide) hx hden ?_ ?_ ?_
  · obtain ⟨hlt, -⟩ | ⟨-, heq | heq⟩ := h <;> omega
  · obtain ⟨-, hlt⟩ | ⟨-, heq | heq⟩ := h <;> omega
  · intro htie
    obtain ⟨hlt, hlt'⟩ | ⟨hc, -⟩ := h
    · omega
    · exact hclosed hc

/-- A decimal in the rounding interval of a value is nearest to it. -/
theorem ofRatio_of_holds {d : Decimal} (hnonneg : x.isNegative = false)
    (hx : x.code < FloatFormat.binary32.infinity) (h : x.roundingInterval.Holds d.toRat) :
    (ofRatio false d.num d.den : Binary32) = x := by
  have hvalue : d.toRat = ((d.num * 2 ^ FloatFormat.binary32.scale : ℕ) : ℚ) / d.den /
      2 ^ FloatFormat.binary32.scale := by
    rw [d.toRat_eq_div]
    push_cast
    field_simp
  rw [hvalue] at h
  rw [ofRatio, ofUnits, nearest_of_holds hx d.den_pos h, ← hnonneg, ofCode_code]

/-- A double precision value in the rounding interval of a value is rounded to it. -/
theorem convert_of_holds {y : Binary64} {v : ℚ} (hy : Rounds y v) (hnonneg : x.isNegative = false)
    (hx : x.code < FloatFormat.binary32.infinity) (h : x.roundingInterval.Holds y.toRat) :
    y.convert .binary32 = x := by
  have hvalue : y.toRat = ((y.units * 2 ^ FloatFormat.binary32.scale : ℕ) : ℚ) /
      (2 ^ FloatFormat.binary64.scale : ℕ) / 2 ^ FloatFormat.binary32.scale := by
    rw [toRat]
    push_cast
    field_simp
  rw [hvalue] at h
  have hnearest := nearest_of_holds hx (Nat.two_pow_pos _) h
  rw [convert, hy.isNaN, hy.isInfinite, hy.nonneg]
  simp only [Bool.false_eq_true, if_false]
  rw [ofUnits, hnearest, ← hnonneg, ofCode_code]

/-! ### Reading -/

/-- Away from the ends by more than the error of reading, what is read stays inside. -/
theorem holds_of_not_near {d : Decimal} {y : Binary64} (hreads : d.Reads y)
    (h : x.roundingInterval.Holds d.toRat) (hlower : ¬ Decimal.Near d.toRat
      (x.roundingInterval.lower / x.roundingInterval.den))
    (hupper : ¬ Decimal.Near d.toRat (x.roundingInterval.upper / x.roundingInterval.den)) :
    x.roundingInterval.Holds y.toRat := by
  have hpos : 0 ≤ d.toRat := d.toRat_nonneg
  obtain ⟨hbelow, habove⟩ := abs_le.mp hreads.near
  unfold RoundingInterval.Holds at h ⊢
  generalize (x.roundingInterval.lower : ℚ) / x.roundingInterval.den = lower at *
  generalize (x.roundingInterval.upper : ℚ) / x.roundingInterval.den = upper at *
  have hself : Decimal.Near d.toRat d.toRat := by
    rw [Decimal.Near, sub_self, abs_zero]
    positivity
  obtain ⟨hlt, hlt'⟩ | ⟨-, heq | heq⟩ := h
  · rw [Decimal.Near, abs_of_pos (by linarith), not_le] at hlower
    rw [Decimal.Near, abs_of_neg (by linarith), not_le] at hupper
    left
    constructor <;> linarith
  · exact absurd (heq ▸ hself) hlower
  · exact absurd (heq ▸ hself) hupper

/-- A decimal very near to a value is read as something inside its rounding interval. -/
theorem holds_of_close {d : Decimal} {y : Binary64} (h : x.code ≠ 0) (hreads : d.Reads y)
    (hclose : |d.toRat - x.toRat| ≤ x.toRat / 10 ^ 8) : x.roundingInterval.Holds y.toRat := by
  obtain ⟨hbelow, habove⟩ := abs_le.mp hreads.near
  obtain ⟨hbelow', habove'⟩ := abs_le.mp hclose
  have hlower := lower_div_den_le h
  have hgap := x.toRat_lt
  have hpos := x.gap_pos
  left
  rw [upper_div_den]
  constructor <;> linarith

/-- A decimal that is near to a number of 25 bits is that number, or is read as it should be. -/
theorem eq_or_kept_of_end {d : Decimal} {e : ℚ} (hdigits : 0 < d.digits)
    (hdigits' : d.digits ≤ 10 ^ 8) (hlow : -53 ≤ d.exponent) (hhigh : d.exponent ≤ 38)
    (hend : ∃ (m : ℕ) (k : ℤ), 0 < m ∧ m < 2 ^ 25 ∧ e = m * 2 ^ k)
    (hnear : Decimal.Near d.toRat e) :
    (∃ (m : ℕ) (k : ℤ), m < 2 ^ 25 ∧ d.toRat = m * 2 ^ k) ∨ d.Kept := by
  obtain ⟨m, k, hm, hm', rfl⟩ := hend
  obtain heq | hkept := Decimal.eq_or_kept_of_near hlow hhigh hdigits
    (lt_of_le_of_lt hdigits' (by norm_num)) hm hm' hnear
  · exact .inl ⟨m, k, hm', heq⟩
  · exact .inr hkept

/-- The shortest decimal of a value lies in the range where powers of ten are read. -/
theorem exponent_shortest (h : x.code ≠ 0) (hx : x.code < FloatFormat.binary32.infinity)
    {d : Decimal} (hshort : Short x d) : -53 ≤ d.exponent ∧ d.exponent ≤ 38 := by
  constructor
  · have hmagnitude := (RoundingInterval.magnitude_bounds (value_pos h) den_pos).2
    rw [value_div_den] at hmagnitude
    -- The smallest value lies above 10 ^ -45, and the largest below 2 ^ 128.
    have hleast : (10 : ℚ) ^ (-45 : ℤ) < 10 ^ (x.roundingInterval.magnitude + 1) := by
      refine lt_of_lt_of_le ?_ ((le_value h).trans hmagnitude.le)
      norm_num
    rw [zpow_lt_zpow_iff_right₀ (by norm_num)] at hleast
    have hle := hshort.le_exponent
    omega
  · have hupper : d.toRat ≤ 2 ^ 128 := by
      refine le_trans ?_ (upper_le hx)
      have horder := lower_div_den_le h
      have hgap := x.gap_pos
      obtain ⟨-, hlt⟩ | ⟨-, heq | heq⟩ := hshort.holds
      · exact hlt.le
      · rw [heq, upper_div_den]
        linarith
      · exact heq.le
    have hone : (1 : ℚ) ≤ d.digits := by exact_mod_cast hshort.digits_pos
    have hpower : (10 : ℚ) ^ d.exponent < 10 ^ (39 : ℤ) := by
      calc (10 : ℚ) ^ d.exponent ≤ d.digits * 10 ^ d.exponent :=
            le_mul_of_one_le_left (by positivity) hone
        _ ≤ 2 ^ 128 := hupper
        _ < 10 ^ (39 : ℤ) := by norm_num
    rw [zpow_lt_zpow_iff_right₀ (by norm_num)] at hpower
    omega

/-- The shortest decimal of a positive value is read as the value. -/
theorem scaled_shortest (hnonneg : x.isNegative = false)
    (hx : x.code < FloatFormat.binary32.infinity) (h : x.code ≠ 0) :
    (x.shortest .even).ReadAs x := by
  have hshort := shortest_short .even h
  obtain ⟨hlow, hhigh⟩ := exponent_shortest h hx hshort
  have hratio := ofRatio_of_holds hnonneg hx hshort.holds
  generalize hd : x.shortest .even = d at *
  have hdigits : d.digits < 2 ^ 53 := lt_of_le_of_lt hshort.digits_le (by norm_num)
  obtain ⟨y, hy, hreads⟩ := Decimal.exists_scaled? hshort.digits_pos hdigits (by omega) (by omega)
  have hexact (hend : ∃ (m : ℕ) (k : ℤ), m < 2 ^ 25 ∧ d.toRat = m * 2 ^ k) :
      x.roundingInterval.Holds y.toRat := by
    obtain ⟨m, k, hm, heq⟩ := hend
    rw [hreads.exact m k hm heq]
    exact hshort.holds
  -- Near an end of the interval the decimal is the end, which is read exactly, or it was looked at.
  have hread : x.roundingInterval.Holds y.toRat ∨ d.Kept := by
    obtain hclose | hfew := hshort.near
    · exact .inl (holds_of_close h hreads hclose)
    by_cases hupper : Decimal.Near d.toRat (x.roundingInterval.upper / x.roundingInterval.den)
    · exact (eq_or_kept_of_end hshort.digits_pos hfew hlow hhigh (exists_upper x) hupper).imp_left
        hexact
    by_cases hlower : Decimal.Near d.toRat (x.roundingInterval.lower / x.roundingInterval.den)
    · exact (eq_or_kept_of_end hshort.digits_pos hfew hlow hhigh (exists_lower h) hlower).imp_left
        hexact
    exact .inl (holds_of_not_near hreads hshort.holds hlower hupper)
  refine ⟨y, hy, hreads.rounds.isNaN, ?_⟩
  obtain hholds | hkept := hread
  · exact convert_of_holds hreads.rounds hnonneg hx hholds
  · rw [Decimal.Kept, hratio, hd, hy] at hkept
    exact Option.some.inj (hkept rfl)

/-- So is a whole number with a zero behind the point. -/
theorem scaled_whole {n : ℕ} (hnonneg : x.isNegative = false)
    (hx : x.code < FloatFormat.binary32.infinity) (hpos : 0 < n) (hn : 10 * n < 2 ^ 53)
    (h : x.roundingInterval.Holds n) : Decimal.ReadAs ⟨10 * n, -1⟩ x := by
  have hreads := Decimal.reads_div (p := 0) (Nat.mul_pos (by decide) hpos) hn (by decide)
  have hvalue : Decimal.approximate ⟨10 * n, .negSucc 0⟩ = n := by
    have hten : (tenPower (0 + 1)).toRat = 10 := by
      rw [Decimal.toRat_tenPower (by norm_num)]
      norm_num
    rw [Decimal.approximate]
    dsimp only
    rw [hten]
    push_cast
    exact mul_div_cancel_left₀ _ (by norm_num)
  have hrounds := hreads.rounds
  rw [hvalue] at hrounds
  have hexact := hrounds.exact n 0 hpos (by omega) (by rw [zpow_zero, mul_one])
  rw [← hexact] at h
  have hscaled : Decimal.scaled? ⟨10 * n, -1⟩ = some (ofInt (10 * n : ℕ) / tenPower (0 + 1)) := by
    show some ((ofInt (10 * n : ℕ) : Binary64).scaledDown (0 + 1)) = _
    rw [scaledDown, if_pos (by decide)]
  exact ⟨_, hscaled, hrounds.isNaN, convert_of_holds hrounds hnonneg hx h⟩

end Binary

end LayerGraph
