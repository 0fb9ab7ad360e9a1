import LayerGraph.Proofs.Numeric.Arithmetic

/-! # Shortest decimals

  A decimal is looked for on grids of more and more digits. On each grid only the two neighbours of
  the value are of interest. The grid of nine digits is finer than single precision, so its lower
  neighbour always lies in the rounding interval, and the search ends there at the latest.

  What `Binary.shortest` gives is therefore in the rounding interval, and it is either very near to
  the value or has at most eight digits.
-/

namespace LayerGraph

namespace Decimal

/-! ### Digits -/

theorem pow_length (n : Nat) : n < 10 ^ length n ∧ (0 < n → 10 ^ (length n - 1) ≤ n) := by
  induction n using length.induct with
  | case1 n h =>
    rw [length, if_pos h]
    exact ⟨by omega, fun hpos => hpos⟩
  | case2 n h ih =>
    obtain ⟨hlt, hle⟩ := ih
    have hpos : 0 < n / 10 := by omega
    have hle := hle hpos
    have hlength : length (n / 10) ≠ 0 := by
      rw [length]
      split_ifs <;> omega
    obtain ⟨k, hk⟩ := Nat.exists_eq_succ_of_ne_zero hlength
    rw [length, if_neg h, Nat.add_sub_cancel]
    rw [hk] at hlt hle ⊢
    simp only [Nat.succ_eq_add_one, Nat.add_sub_cancel, Nat.pow_succ] at *
    omega

theorem lt_pow_length (n : Nat) : n < 10 ^ length n := (pow_length n).1

theorem pow_length_le {n : Nat} (h : 0 < n) : 10 ^ (length n - 1) ≤ n := (pow_length n).2 h

theorem length_pos (n : Nat) : 0 < length n := by
  rw [length]
  split_ifs <;> omega

/-! ### Trimming -/

theorem toRat_trimmed (d : Decimal) : d.trimmed.toRat = d.toRat := by
  induction d using trimmed.induct with
  | case1 d h ih =>
    have hdigits : (d.digits : ℚ) = (d.digits / 10 : ℕ) * 10 := by
      exact_mod_cast (show d.digits = d.digits / 10 * 10 by omega)
    rw [trimmed, dif_pos h, ih, toRat, toRat, zpow_add₀ (by norm_num), zpow_one, hdigits]
    ring
  | case2 d h => rw [trimmed, dif_neg h]

theorem trimmed_digits_le (d : Decimal) : d.trimmed.digits ≤ d.digits := by
  induction d using trimmed.induct with
  | case1 d h ih =>
    rw [trimmed, dif_pos h]
    exact le_trans ih (Nat.div_le_self _ _)
  | case2 d h => rw [trimmed, dif_neg h]

theorem le_trimmed_exponent (d : Decimal) : d.exponent ≤ d.trimmed.exponent := by
  induction d using trimmed.induct with
  | case1 d h ih =>
    rw [trimmed, dif_pos h]
    exact le_trans (by simp) ih
  | case2 d h => rw [trimmed, dif_neg h]

/-! ### Numerator and denominator -/

theorem toRat_eq_div (d : Decimal) : d.toRat = d.num / d.den := by
  obtain ⟨n, p | p⟩ := d
  · simp [toRat, num, den]
  · simp [toRat, num, den, zpow_negSucc, div_eq_mul_inv]

theorem den_pos (d : Decimal) : 0 < d.den := Nat.pow_pos (by decide)

theorem toRat_nonneg (d : Decimal) : 0 ≤ d.toRat := by
  unfold toRat
  positivity

end Decimal

namespace Binary.RoundingInterval

variable {i : RoundingInterval}

/-! ### Membership -/

/-- The numbers of a rounding interval. -/
def Holds (i : RoundingInterval) (v : ℚ) : Prop :=
  (i.lower / i.den < v ∧ v < i.upper / i.den) ∨
    (i.closed = true ∧ (v = i.lower / i.den ∨ v = i.upper / i.den))

theorem contains_iff (hden : 0 < i.den) (d : Decimal) : i.contains d = true ↔ i.Holds d.toRat := by
  have hden' : (0 : ℚ) < i.den := by exact_mod_cast hden
  have hd : (0 : ℚ) < d.den := by exact_mod_cast d.den_pos
  have hlower : (i.lower : ℚ) / i.den < d.toRat ↔ i.lower * d.den < d.num * i.den := by
    rw [d.toRat_eq_div, div_lt_div_iff₀ hden' hd]
    exact_mod_cast Iff.rfl
  have hupper : d.toRat < (i.upper : ℚ) / i.den ↔ d.num * i.den < i.upper * d.den := by
    rw [d.toRat_eq_div, div_lt_div_iff₀ hd hden']
    exact_mod_cast Iff.rfl
  have hlower' : d.toRat = (i.lower : ℚ) / i.den ↔ d.num * i.den = i.lower * d.den := by
    rw [d.toRat_eq_div, div_eq_div_iff hd.ne' hden'.ne']
    exact_mod_cast Iff.rfl
  have hupper' : d.toRat = (i.upper : ℚ) / i.den ↔ d.num * i.den = i.upper * d.den := by
    rw [d.toRat_eq_div, div_eq_div_iff hd.ne' hden'.ne']
    exact_mod_cast Iff.rfl
  simp only [contains, Holds, hlower, hupper, hlower', hupper', Bool.or_eq_true, Bool.and_eq_true,
    decide_eq_true_eq, beq_iff_eq]

/-! ### The grid of so many digits -/

/-- The leading digit of the value stands at this power of ten. -/
theorem magnitude_bounds (hvalue : 0 < i.value) (hden : 0 < i.den) :
    (10 : ℚ) ^ i.magnitude ≤ i.value / i.den ∧ (i.value : ℚ) / i.den < 10 ^ (i.magnitude + 1) := by
  have hden' : (0 : ℚ) < i.den := by exact_mod_cast hden
  unfold magnitude
  -- From one on the digits of the quotient are counted, below it those of its inverse.
  split_ifs with hle
  · have hpos : 0 < i.value / i.den := Nat.div_pos hle hden
    have hupper := Decimal.lt_pow_length (i.value / i.den)
    have hlower := Decimal.pow_length_le hpos
    obtain ⟨k, hk⟩ := Nat.exists_eq_succ_of_ne_zero (Decimal.length_pos (i.value / i.den)).ne'
    rw [hk] at hupper hlower ⊢
    rw [Nat.div_lt_iff_lt_mul hden] at hupper
    rw [Nat.le_div_iff_mul_le hden] at hlower
    have hexponent : ((k.succ : ℕ) : ℤ) - 1 = k := by omega
    rw [hexponent, le_div_iff₀ hden', div_lt_iff₀ hden', zpow_natCast, ← Nat.cast_succ,
      zpow_natCast]
    exact ⟨by exact_mod_cast hlower, by exact_mod_cast hupper⟩
  · have hpos : 0 < (i.den - 1) / i.value := Nat.div_pos (by omega) hvalue
    have hupper := Decimal.lt_pow_length ((i.den - 1) / i.value)
    have hlower := Decimal.pow_length_le hpos
    obtain ⟨k, hk⟩ :=
      Nat.exists_eq_succ_of_ne_zero (Decimal.length_pos ((i.den - 1) / i.value)).ne'
    rw [hk] at hupper hlower ⊢
    rw [Nat.div_lt_iff_lt_mul hvalue] at hupper
    rw [Nat.le_div_iff_mul_le hvalue] at hlower
    have hexponent : -((k.succ : ℕ) : ℤ) + 1 = -k := by omega
    rw [hexponent, le_div_iff₀ hden', div_lt_iff₀ hden', zpow_neg, zpow_neg, zpow_natCast,
      zpow_natCast, inv_mul_le_iff₀ (by positivity), lt_inv_mul_iff₀ (by positivity)]
    constructor
    · exact_mod_cast (show i.den ≤ 10 ^ k.succ * i.value by omega)
    · rw [Nat.succ_sub_one] at hlower
      exact_mod_cast (show 10 ^ k * i.value < i.den by omega)

variable {tie : DecimalTie} {count : Nat} {d : Decimal}

/-- The lower neighbour of the value on the grid. -/
def below (i : RoundingInterval) (count : Nat) : Decimal :=
  ⟨i.value * 10 ^ (-(i.magnitude - count + 1)).toNat /
      (i.den * 10 ^ (i.magnitude - count + 1).toNat),
    i.magnitude - count + 1⟩

/-- The upper neighbour of the value on the grid. -/
def above (i : RoundingInterval) (count : Nat) : Decimal :=
  ⟨(i.below count).digits + 1, i.magnitude - count + 1⟩

theorem zpow_eq_div (e : ℤ) : (10 : ℚ) ^ e = 10 ^ e.toNat / 10 ^ (-e).toNat := by
  obtain p | p := e
  · simp
  · simp [zpow_negSucc]

/-- The value lies between its neighbours. -/
theorem below_le_lt_above (hden : 0 < i.den) (count : Nat) :
    (i.below count).toRat ≤ i.value / i.den ∧
      (i.value : ℚ) / i.den < (i.below count).toRat + 10 ^ (i.magnitude - count + 1) := by
  have hden' : (0 : ℚ) < i.den := by exact_mod_cast hden
  unfold below Decimal.toRat
  dsimp only
  generalize i.magnitude - count + 1 = e
  have hscaled : 0 < i.den * 10 ^ e.toNat := Nat.mul_pos hden (Nat.pow_pos (by decide))
  have hle := Nat.div_mul_le_self (i.value * 10 ^ (-e).toNat) (i.den * 10 ^ e.toNat)
  have hlt := Nat.lt_div_mul_add hscaled (a := i.value * 10 ^ (-e).toNat)
  generalize i.value * 10 ^ (-e).toNat / (i.den * 10 ^ e.toNat) = k at *
  rw [zpow_eq_div, ← add_one_mul, mul_div_assoc', mul_div_assoc',
    div_le_div_iff₀ (by positivity) hden', div_lt_div_iff₀ hden' (by positivity)]
  constructor
  · have hle' : k * 10 ^ e.toNat * i.den ≤ i.value * 10 ^ (-e).toNat := by linarith
    exact_mod_cast hle'
  · have hlt' : i.value * 10 ^ (-e).toNat < (k + 1) * 10 ^ e.toNat * i.den := by linarith
    exact_mod_cast hlt'

theorem toRat_above (i : RoundingInterval) (count : Nat) :
    (i.above count).toRat = (i.below count).toRat + 10 ^ (i.magnitude - count + 1) := by
  simp only [above, below, Decimal.toRat]
  push_cast
  ring

theorem onGrid_eq : i.onGrid tie count =
    match i.contains (i.below count), i.contains (i.above count) with
    | false, false => none
    | true, false => some (i.below count)
    | false, true => some (i.above count)
    | true, true =>
      let twice := 2 * (i.value * 10 ^ (-(i.magnitude - count + 1)).toNat %
        (i.den * 10 ^ (i.magnitude - count + 1).toNat))
      if twice < i.den * 10 ^ (i.magnitude - count + 1).toNat then some (i.below count)
      else if i.den * 10 ^ (i.magnitude - count + 1).toNat < twice then some (i.above count)
      else match tie with
        | .up => some (i.above count)
        | .even => if (i.below count).digits % 2 = 0 then some (i.below count)
          else some (i.above count) := rfl

/-- One of the neighbours is found if it is in the interval, and nothing only if the lower one is
    not. -/
theorem onGrid_cases (i : RoundingInterval) (tie : DecimalTie) (count : Nat) :
    (i.onGrid tie count = some (i.below count) ∧ i.contains (i.below count) = true) ∨
    (i.onGrid tie count = some (i.above count) ∧ i.contains (i.above count) = true) ∨
    (i.onGrid tie count = none ∧ i.contains (i.below count) = false) := by
  rw [onGrid_eq]
  cases hbelow : i.contains (i.below count) <;> cases habove : i.contains (i.above count)
  · exact .inr (.inr ⟨rfl, rfl⟩)
  · exact .inr (.inl ⟨rfl, rfl⟩)
  · exact .inl ⟨rfl, rfl⟩
  · -- Both are in the interval, and which of them is taken does not matter.
    cases tie <;> dsimp only <;> split_ifs <;> simp

end Binary.RoundingInterval

namespace Binary

/-! ### Single precision -/

variable {x : Binary32}

theorem den_roundingInterval : x.roundingInterval.den = 4 * 2 ^ FloatFormat.binary32.scale := rfl

theorem value_div_den : (x.roundingInterval.value : ℚ) / x.roundingInterval.den = x.toRat := by
  rw [den_roundingInterval, toRat]
  show ((4 * x.units : ℕ) : ℚ) / _ = _
  push_cast
  rw [mul_div_mul_left _ _ (by norm_num)]

/-- The gap between a value and the next one. -/
def gap (x : Binary32) : ℚ :=
  2 ^ FloatFormat.binary32.exponent x.code / 2 ^ FloatFormat.binary32.scale

theorem significand_pos (h : x.code ≠ 0) : 0 < FloatFormat.binary32.significand x.code := by
  have hpos := FloatFormat.binary32.hidden_pos
  unfold FloatFormat.significand
  split_ifs <;> omega

theorem upper_div_den :
    (x.roundingInterval.upper : ℚ) / x.roundingInterval.den = x.toRat + x.gap / 2 := by
  rw [den_roundingInterval, toRat, gap, roundingInterval_upper, units, FloatFormat.units]
  push_cast
  field_simp
  ring

theorem lower_pos (h : x.code ≠ 0) : 0 < x.roundingInterval.lower := by
  have hm := significand_pos h
  rw [roundingInterval_lower]
  generalize FloatFormat.binary32.exponent x.code = t
  have hpow : 0 < 2 ^ t := Nat.two_pow_pos t
  have hmul : 2 ^ t ≤ FloatFormat.binary32.significand x.code * 2 ^ t :=
    Nat.le_mul_of_pos_left _ hm
  split_ifs <;> omega

/-- Below a value there is at least a quarter of the gap. -/
theorem lower_div_den_le (h : x.code ≠ 0) :
    (x.roundingInterval.lower : ℚ) / x.roundingInterval.den ≤ x.toRat - x.gap / 4 := by
  have hm := significand_pos h
  rw [den_roundingInterval, toRat, gap, roundingInterval_lower, units, FloatFormat.units]
  generalize FloatFormat.binary32.significand x.code = m at *
  generalize FloatFormat.binary32.exponent x.code = t at *
  have hpow : 0 < 2 ^ t := Nat.two_pow_pos t
  have hle : 4 * (m * 2 ^ t) - (if 0 < t ∧ m = FloatFormat.binary32.hidden then 1 else 2) * 2 ^ t +
      2 ^ t ≤ 4 * (m * 2 ^ t) := by
    have hmul : 2 ^ t ≤ m * 2 ^ t := Nat.le_mul_of_pos_left _ hm
    split_ifs <;> omega
  generalize
    4 * (m * 2 ^ t) - (if 0 < t ∧ m = FloatFormat.binary32.hidden then 1 else 2) * 2 ^ t = l at *
  have hle' : (l : ℚ) + 2 ^ t ≤ 4 * (m * 2 ^ t) := by exact_mod_cast hle
  push_cast
  rw [div_le_iff₀ (by positivity)]
  field_simp
  linarith

theorem toRat_lt (x : Binary32) : x.toRat < 2 ^ 24 * x.gap := by
  have hm := FloatFormat.binary32.significand_lt x.code
  have hm' : (FloatFormat.binary32.significand x.code : ℚ) < 2 ^ 24 := by exact_mod_cast hm
  rw [toRat, gap, units, FloatFormat.units, mul_div_assoc']
  push_cast
  gcongr

theorem gap_pos (x : Binary32) : 0 < x.gap := by
  unfold gap
  positivity

/-! ### What the search finds -/

theorem den_pos : 0 < x.roundingInterval.den :=
  Nat.mul_pos (by decide) (Nat.two_pow_pos _)

theorem value_pos (h : x.code ≠ 0) : 0 < x.roundingInterval.value :=
  Nat.mul_pos (by decide) (Nat.mul_pos (significand_pos h) (Nat.two_pow_pos _))

/-- The spacing of the grid of so many digits, as a share of the value. -/
theorem spacing_le (h : x.code ≠ 0) (count : Nat) :
    (10 : ℚ) ^ (x.roundingInterval.magnitude - (count + 1 : ℕ) + 1) ≤ x.toRat / 10 ^ count := by
  have hmagnitude := (RoundingInterval.magnitude_bounds (value_pos h) den_pos).1
  rw [value_div_den] at hmagnitude
  have hexponent : x.roundingInterval.magnitude - (count + 1 : ℕ) + 1 =
      x.roundingInterval.magnitude - count := by
    push_cast
    ring
  rw [hexponent, zpow_sub₀ (by norm_num), zpow_natCast]
  gcongr

/-- The grid of nine digits is finer than single precision. -/
theorem contains_below_nine (h : x.code ≠ 0) :
    x.roundingInterval.contains (x.roundingInterval.below 9) = true := by
  obtain ⟨hle, hlt⟩ := RoundingInterval.below_le_lt_above (den_pos (x := x)) 9
  have hspacing : (10 : ℚ) ^ (x.roundingInterval.magnitude - (9 : ℕ) + 1) ≤ x.toRat / 10 ^ 8 :=
    spacing_le h 8
  have hlower := lower_div_den_le h
  have hgap := x.toRat_lt
  have hpos := x.gap_pos
  rw [value_div_den] at hle hlt
  generalize (10 : ℚ) ^ (x.roundingInterval.magnitude - (9 : ℕ) + 1) = spacing at hlt hspacing
  rw [RoundingInterval.contains_iff den_pos]
  refine .inl ⟨?_, ?_⟩
  · linarith
  · rw [upper_div_den]
    linarith

/-- The search ends at nine digits or before, with a neighbour of the value in the interval. -/
theorem exists_shortest (tie : DecimalTie) (h : x.code ≠ 0) :
    ∃ count d, count < 9 ∧ x.roundingInterval.contains d = true ∧
      (d = x.roundingInterval.below (count + 1) ∨ d = x.roundingInterval.above (count + 1)) ∧
      x.shortest tie = d.trimmed := by
  -- Nine digits always suffice, so the search never gets behind them.
  have hnine : ((List.range 9).findSome?
      fun n => x.roundingInterval.onGrid tie (n + 1)).isSome = true := by
    rw [List.isSome_findSome?, List.any_eq_true]
    refine ⟨8, by decide, ?_⟩
    obtain ⟨heq, -⟩ | ⟨heq, -⟩ | ⟨-, hnot⟩ := x.roundingInterval.onGrid_cases tie (8 + 1)
    · rw [heq]
      rfl
    · rw [heq]
      rfl
    · exact absurd (contains_below_nine h) (by rw [hnot]; decide)
  obtain ⟨d, hd⟩ := Option.isSome_iff_exists.mp hnine
  have hfound : ((List.range 17).findSome?
      fun n => x.roundingInterval.onGrid tie (n + 1)) = some d := by
    rw [show 17 = 9 + 8 from rfl, List.range_add, List.findSome?_append, hd]
    rfl
  obtain ⟨count, hcount, hgrid⟩ := List.exists_of_findSome?_eq_some hd
  refine ⟨count, d, List.mem_range.mp hcount, ?_⟩
  have hshortest : x.shortest tie = d.trimmed := by
    rw [shortest, if_neg h]
    dsimp only
    rw [hfound, Option.getD_some]
  obtain ⟨heq, hin⟩ | ⟨heq, hin⟩ | ⟨heq, -⟩ := x.roundingInterval.onGrid_cases tie (count + 1)
  · obtain rfl := Option.some.inj (heq.symm.trans hgrid)
    exact ⟨hin, .inl rfl, hshortest⟩
  · obtain rfl := Option.some.inj (heq.symm.trans hgrid)
    exact ⟨hin, .inr rfl, hshortest⟩
  · exact absurd (heq.symm.trans hgrid) (by simp)

/-- A shortest decimal reads back in the number's own arithmetic, has at most nine digits, and is
    either very near to the value or has at most eight digits. -/
structure Short (x : Binary32) (d : Decimal) : Prop where
  /-- It lies in the rounding interval. -/
  holds : x.roundingInterval.Holds d.toRat
  /-- It is not zero. -/
  digits_pos : 0 < d.digits
  /-- Its digits are few. -/
  digits_le : d.digits ≤ 10 ^ 9
  /-- Its power of ten is not too small. -/
  le_exponent : x.roundingInterval.magnitude - 8 ≤ d.exponent
  /-- With nine digits it is very near to the value. -/
  near : |d.toRat - x.toRat| ≤ x.toRat / 10 ^ 8 ∨ d.digits ≤ 10 ^ 8

theorem pos_of_holds (h : x.code ≠ 0) {v : ℚ} (hv : x.roundingInterval.Holds v) : 0 < v := by
  have hden : (0 : ℚ) < x.roundingInterval.den := by exact_mod_cast den_pos (x := x)
  have hlower : (0 : ℚ) < x.roundingInterval.lower / x.roundingInterval.den :=
    div_pos (by exact_mod_cast lower_pos h) hden
  have hupper : (0 : ℚ) < x.roundingInterval.upper / x.roundingInterval.den := by
    have hgap := x.gap_pos
    have hvalue := x.toRat_nonneg
    rw [upper_div_den]
    linarith
  obtain ⟨hlt, -⟩ | ⟨-, rfl | rfl⟩ := hv
  · exact hlower.trans hlt
  · exact hlower
  · exact hupper

theorem below_digits_lt (h : x.code ≠ 0) (count : Nat) :
    (x.roundingInterval.below (count + 1)).digits < 10 ^ (count + 1) := by
  have hle := (RoundingInterval.below_le_lt_above (den_pos (x := x)) (count + 1)).1
  have hlt := (RoundingInterval.magnitude_bounds (value_pos h) (den_pos (x := x))).2
  have hexponent : x.roundingInterval.magnitude + 1 =
      ((count + 1 : ℕ) : ℤ) + (x.roundingInterval.magnitude - (count + 1 : ℕ) + 1) := by ring
  rw [hexponent, zpow_add₀ (by norm_num), zpow_natCast] at hlt
  have hlt' := hle.trans_lt hlt
  rw [Decimal.toRat] at hlt'
  exact_mod_cast lt_of_mul_lt_mul_right hlt' (by positivity)

theorem shortest_short (tie : DecimalTie) (h : x.code ≠ 0) : Short x (x.shortest tie) := by
  obtain ⟨count, d, hcount, hin, hneighbour, hshortest⟩ := exists_shortest tie h
  have hholds := (RoundingInterval.contains_iff den_pos d).mp hin
  have hexponent : d.exponent = x.roundingInterval.magnitude - (count + 1 : ℕ) + 1 := by
    obtain rfl | rfl := hneighbour <;> rfl
  have hdigits : d.digits ≤ 10 ^ (count + 1) := by
    have hlt := below_digits_lt h count
    obtain rfl | rfl := hneighbour
    · exact hlt.le
    · exact hlt
  have htrimmed := d.le_trimmed_exponent
  rw [hshortest]
  refine ⟨?_, ?_, ?_, ?_, ?_⟩
  · rwa [Decimal.toRat_trimmed]
  · refine Nat.pos_of_ne_zero ?_
    intro hzero
    have hpos := pos_of_holds h hholds
    rw [← Decimal.toRat_trimmed, Decimal.toRat, hzero] at hpos
    simp at hpos
  · calc d.trimmed.digits ≤ d.digits := d.trimmed_digits_le
      _ ≤ 10 ^ (count + 1) := hdigits
      _ ≤ 10 ^ 9 := Nat.pow_le_pow_right (by decide) hcount
  · omega
  · rw [Decimal.toRat_trimmed]
    -- At nine digits the decimal is close to the value; before that it is short.
    obtain rfl | hlt := Nat.eq_or_lt_of_le (Nat.le_of_lt_succ hcount)
    · left
      have hspacing := spacing_le h 8
      obtain ⟨hle, hlt⟩ := RoundingInterval.below_le_lt_above (den_pos (x := x)) (8 + 1)
      have habove := RoundingInterval.toRat_above x.roundingInterval (8 + 1)
      rw [value_div_den] at hle hlt
      generalize (10 : ℚ) ^ (x.roundingInterval.magnitude - (8 + 1 : ℕ) + 1) = spacing at *
      rw [abs_le]
      obtain rfl | rfl := hneighbour <;> constructor <;> linarith
    · right
      calc d.trimmed.digits ≤ d.digits := d.trimmed_digits_le
        _ ≤ 10 ^ (count + 1) := hdigits
        _ ≤ 10 ^ 8 := Nat.pow_le_pow_right (by decide) hlt

end Binary

end LayerGraph
