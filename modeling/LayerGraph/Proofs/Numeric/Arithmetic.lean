import LayerGraph.Numeric.Scaling
import LayerGraph.Proofs.Numeric.Rounding

/-! # Arithmetic up to rounding

  A finite value has a rational magnitude, `Binary.toRat`. In the middle of the range of double
  precision a result of the arithmetic is the exact result rounded: it is as near as half of the
  last bit allows, and it is the exact result whenever that has no more than 53 bits. `Rounds` says
  both of a positive value, and each operation rounds its exact result in this sense.
-/

namespace LayerGraph

namespace Binary

variable {F : FloatFormat}

/-! ### Sign and code -/

theorem two_pow_width : 2 ^ F.width = 2 * F.signWeight := by
  unfold FloatFormat.width FloatFormat.signWeight
  ring

theorem toNat_ofCode {negative : Bool} {code : Nat} (h : code < F.signWeight) :
    (ofCode negative code : Binary F).bits.toNat =
      (if negative then F.signWeight else 0) + code := by
  rw [ofCode, BitVec.toNat_ofNat, two_pow_width]
  apply Nat.mod_eq_of_lt
  split_ifs <;> omega

theorem code_ofCode {negative : Bool} {code : Nat} (h : code < F.signWeight) :
    (ofCode negative code : Binary F).code = code := by
  rw [Binary.code, toNat_ofCode h]
  cases negative with
  | true => rw [if_pos rfl, Nat.add_mod_left, Nat.mod_eq_of_lt h]
  | false => rw [if_neg Bool.false_ne_true, Nat.zero_add, Nat.mod_eq_of_lt h]

theorem isNegative_ofCode {negative : Bool} {code : Nat} (h : code < F.signWeight) :
    (ofCode negative code : Binary F).isNegative = negative := by
  rw [isNegative, toNat_ofCode h]
  cases negative <;> simp
  exact h

theorem signWeight_pos : 0 < F.signWeight := Nat.two_pow_pos _

theorem code_lt (x : Binary F) : x.code < F.signWeight := Nat.mod_lt _ signWeight_pos

/-- A value is its sign and its code. -/
theorem ofCode_code (x : Binary F) : ofCode x.isNegative x.code = x := by
  obtain ⟨bits⟩ := x
  have hlt : bits.toNat < 2 * F.signWeight := by
    rw [← two_pow_width]
    exact bits.isLt
  have hpos := signWeight_pos (F := F)
  have hbits : (if F.signWeight ≤ bits.toNat then F.signWeight else 0) + bits.toNat % F.signWeight =
      bits.toNat := by
    split_ifs with h
    · rw [Nat.mod_eq_sub_mod h, Nat.mod_eq_of_lt (by omega)]
      omega
    · rw [Nat.mod_eq_of_lt (by omega), Nat.zero_add]
  rw [ofCode, isNegative, Binary.code]
  simp only [decide_eq_true_eq, hbits, BitVec.ofNat_toNat, BitVec.setWidth_eq]

theorem infinity_lt_signWeight : F.infinity < F.signWeight := by
  have hpos : 0 < 2 ^ F.exponentBits := Nat.two_pow_pos _
  rw [FloatFormat.infinity, FloatFormat.signWeight, Nat.pow_add]
  exact Nat.mul_lt_mul_of_pos_right (by omega) F.hidden_pos

theorem nearest_lt_signWeight (num den : Nat) : F.nearest num den < F.signWeight :=
  Nat.lt_of_le_of_lt (Nat.min_le_left _ _) infinity_lt_signWeight

/-! ### Magnitudes -/

/-- The magnitude of a finite value. -/
def toRat (x : Binary F) : ℚ := x.units / 2 ^ F.scale

theorem toRat_nonneg (x : Binary F) : 0 ≤ x.toRat := by
  unfold toRat
  positivity

theorem scale_binary64 : FloatFormat.binary64.scale = 1074 := rfl

/-- A positive value is the number `v`, rounded. -/
structure Rounds (y : Binary64) (v : ℚ) : Prop where
  /-- It has no sign. -/
  nonneg : y.isNegative = false
  /-- It is no infinity. -/
  finite : y.code < FloatFormat.binary64.infinity
  /-- It is as near as half of the last bit allows. -/
  near : |y.toRat - v| ≤ v / 2 ^ 53
  /-- It is found by rounding a fraction that has 53 bits before the point. -/
  rounded : ∀ (a b : ℕ) (k : ℤ), 0 < b → 2 ^ 52 * b ≤ a → a < 2 ^ 53 * b → v = a / b * 2 ^ k →
    y.toRat = roundHalfEven a b * 2 ^ k

theorem code_ofUnits (num den : Nat) :
    (ofUnits false num den : Binary F).code = F.nearest num den :=
  code_ofCode (nearest_lt_signWeight num den)

theorem toRat_ofUnits (num den : Nat) :
    (ofUnits false num den : Binary F).toRat = F.units (F.nearest num den) / 2 ^ F.scale := by
  rw [toRat, units, code_ofUnits]

/-- What is close in units is close as a number. -/
theorem abs_sub_le_of_close {num den u scale : ℕ} {v : ℚ} (hden : 0 < den)
    (hnum : (num : ℚ) = v * 2 ^ scale * den) (hbelow : 2 ^ 53 * num ≤ 2 ^ 53 * (u * den) + num)
    (habove : 2 ^ 53 * (u * den) ≤ 2 ^ 53 * num + num) :
    |(u : ℚ) / 2 ^ scale - v| ≤ v / 2 ^ 53 := by
  have hden' : (0 : ℚ) < den := by exact_mod_cast hden
  have hscale : (0 : ℚ) < 2 ^ scale * den := by positivity
  have hu : (u : ℚ) = u / 2 ^ scale * 2 ^ scale := by
    rw [div_mul_cancel₀]
    positivity
  have hbelow' : 2 ^ 53 * (num : ℚ) ≤ 2 ^ 53 * (u * den) + num := by exact_mod_cast hbelow
  have habove' : 2 ^ 53 * ((u : ℚ) * den) ≤ 2 ^ 53 * num + num := by exact_mod_cast habove
  rw [hnum, hu] at hbelow' habove'
  generalize (u : ℚ) / 2 ^ scale = x at *
  have hnear : 2 ^ 53 * v ≤ 2 ^ 53 * x + v ∧ 2 ^ 53 * x ≤ 2 ^ 53 * v + v := by
    constructor
    · refine le_of_mul_le_mul_right ?_ hscale
      linarith
    · refine le_of_mul_le_mul_right ?_ hscale
      linarith
  rw [abs_le]
  constructor <;> linarith

/-- A number with 53 bits before the point is less than 2 ^ 52 when it is scaled down. -/
theorem exponent_nonneg {a b : ℕ} {e : ℤ} (hb : 0 < b) (hlt : a < 2 ^ 53 * b)
    (h : (2 : ℚ) ^ 52 ≤ a / b * 2 ^ e) : 0 ≤ e := by
  have hb' : (0 : ℚ) < b := by exact_mod_cast hb
  have hlt' : (a : ℚ) < 2 ^ 53 * b := by exact_mod_cast hlt
  by_contra hneg
  have hpow : (2 : ℚ) ^ e ≤ 2 ^ (-1 : ℤ) := zpow_le_zpow_right₀ one_le_two (by omega)
  refine absurd h (not_le.mpr ?_)
  calc (a : ℚ) / b * 2 ^ e ≤ a / b * 2 ^ (-1 : ℤ) :=
        mul_le_mul_of_nonneg_left hpow (div_nonneg (Nat.cast_nonneg a) hb'.le)
    _ < 2 ^ 53 * 2 ^ (-1 : ℤ) :=
        mul_lt_mul_of_pos_right ((div_lt_iff₀ hb').mpr hlt') (by norm_num)
    _ = 2 ^ 52 := by norm_num

/-- The middle of the range, in units. -/
theorem units_of_range {v : ℚ} (hlow : 1 / 2 ^ 256 ≤ v) (hhigh : v < 2 ^ 256) :
    (2 : ℚ) ^ 52 ≤ v * 2 ^ FloatFormat.binary64.scale ∧
      v * 2 ^ FloatFormat.binary64.scale < (2 : ℚ) ^ 2000 := by
  constructor
  · calc (2 : ℚ) ^ 52 ≤ 2 ^ 818 := pow_le_pow_right₀ one_le_two (by norm_num)
      _ = 1 / 2 ^ 256 * 2 ^ FloatFormat.binary64.scale := by
        rw [scale_binary64, pow_add _ 256 818]
        field_simp
      _ ≤ v * 2 ^ FloatFormat.binary64.scale := by gcongr
  · calc v * 2 ^ FloatFormat.binary64.scale
      _ < 2 ^ 256 * 2 ^ FloatFormat.binary64.scale := by gcongr
      _ ≤ (2 : ℚ) ^ 2000 := by
        rw [← pow_add, scale_binary64]
        gcongr <;> norm_num

/-- A fraction in the middle of the range is rounded. -/
theorem rounds_ofUnits {num den : Nat} {v : ℚ} (hden : 0 < den)
    (hv : (num : ℚ) / den = v * 2 ^ FloatFormat.binary64.scale) (hlow : 1 / 2 ^ 256 ≤ v)
    (hhigh : v < 2 ^ 256) :
    Rounds (ofUnits false num den) v := by
  have hden' : (0 : ℚ) < den := by exact_mod_cast hden
  have hnum : (num : ℚ) = v * 2 ^ FloatFormat.binary64.scale * den := by
    rw [← hv, div_mul_cancel₀ _ hden'.ne']
  obtain ⟨hunits, hunits'⟩ := units_of_range hlow hhigh
  have hlow' : den * FloatFormat.binary64.hidden ≤ num := by
    have hmul : (den : ℚ) * 2 ^ 52 ≤ num := by
      rw [hnum, mul_comm]
      gcongr
    exact_mod_cast hmul
  have hhigh' : num < den * 2 ^ 2000 := by
    have hmul : (num : ℚ) < den * 2 ^ 2000 := by
      rw [hnum, mul_comm]
      gcongr
    exact_mod_cast hmul
  have hfinite : FloatFormat.binary64.nearest num den < FloatFormat.binary64.infinity :=
    FloatFormat.nearest_lt_infinity _ hden hhigh' (by decide) (by decide)
  refine ⟨isNegative_ofCode (nearest_lt_signWeight num den), by rwa [code_ofUnits], ?near, ?rounded⟩
  case near =>
    obtain ⟨hbelow, habove⟩ := FloatFormat.units_nearest_close _ hden hfinite hlow'
    rw [toRat_ofUnits]
    exact abs_sub_le_of_close hden hnum hbelow habove
  case rounded =>
    -- With so many bits before the point, the power of two is the shift.
    intro a b k hb hle hlt hexact
    clear hhigh'
    have hv' : v * 2 ^ FloatFormat.binary64.scale =
        a / b * 2 ^ (k + FloatFormat.binary64.scale) := by
      rw [hexact, zpow_add₀ two_ne_zero, mul_assoc]
      rfl
    obtain ⟨i, hi⟩ := Int.eq_ofNat_of_zero_le (exponent_nonneg hb hlt (hv' ▸ hunits))
    rw [hi, zpow_natCast] at hv'
    have hscaled : num * b = a * (den * 2 ^ i) := by
      have hcast : (num : ℚ) * b = a * (den * 2 ^ i) := by
        have hb' : (b : ℚ) ≠ 0 := by exact_mod_cast hb.ne'
        rw [hnum, hv']
        field_simp
      exact_mod_cast hcast
    obtain ⟨hshift, hround⟩ :=
      FloatFormat.binary64.rounded_of_scaled hden hb hscaled hle hlt
    have hpow : (2 : ℚ) ^ k = 2 ^ i / 2 ^ FloatFormat.binary64.scale := by
      rw [show k = i - FloatFormat.binary64.scale by omega, zpow_sub₀ two_ne_zero, zpow_natCast,
        zpow_natCast]
    rw [toRat_ofUnits, FloatFormat.units_nearest _ hden hfinite, hround, hshift, hpow,
      Nat.cast_mul, Nat.cast_pow, Nat.cast_ofNat, mul_div_assoc]

/-- A number of few enough bits is not changed. -/
theorem Rounds.exact {y : Binary64} {v : ℚ} (h : Rounds y v) (m : ℕ) (k : ℤ) (hpos : 0 < m)
    (hm : m < 2 ^ 53) (hv : v = m * 2 ^ k) : y.toRat = v := by
  -- All 53 bits are put before the point.
  obtain ⟨j, hj⟩ : ∃ j, m.log2 + j = 52 := by
    have hlog := (Nat.log2_lt hpos.ne').mpr hm
    exact ⟨52 - m.log2, by omega⟩
  have hle : 2 ^ 52 * 1 ≤ m * 2 ^ j := by
    rw [Nat.mul_one, ← hj, Nat.pow_add]
    exact Nat.mul_le_mul_right _ (Nat.log2_self_le hpos.ne')
  have hlt : m * 2 ^ j < 2 ^ 53 * 1 := by
    rw [Nat.mul_one, show 53 = m.log2 + 1 + j by omega, Nat.pow_add]
    exact Nat.mul_lt_mul_of_pos_right Nat.lt_log2_self (Nat.two_pow_pos j)
  have hpow : (2 : ℚ) ^ k = 2 ^ j * 2 ^ (k - j) := by
    rw [← zpow_natCast, ← zpow_add₀ two_ne_zero, add_sub_cancel]
  have hscaled : v = (m * 2 ^ j : ℕ) / (1 : ℕ) * 2 ^ (k - j) := by
    rw [hv, hpow]
    push_cast
    ring
  rw [h.rounded _ 1 _ Nat.one_pos hle hlt hscaled, roundHalfEven_one, hscaled, Nat.cast_one,
    div_one]

/-! ### Operations -/

theorem rounds_ofRatio (num : Nat) {den : Nat} (hden : 0 < den)
    (hlow : (1 : ℚ) / 2 ^ 256 ≤ num / den) (hhigh : (num : ℚ) / den < 2 ^ 256) :
    Rounds (ofRatio false num den) (num / den) := by
  refine rounds_ofUnits hden ?_ hlow hhigh
  push_cast
  rw [div_mul_eq_mul_div]

/-- A whole number from one to somewhere below the greatest value. -/
theorem rounds_ofRatio_one {n : Nat} (hpos : 0 < n) (hlt : n < 2 ^ 250) :
    Rounds (ofRatio false n 1) n := by
  have hone : (1 : ℚ) ≤ n := by exact_mod_cast hpos
  have hlt' : (n : ℚ) < 2 ^ 250 := by exact_mod_cast hlt
  have hrounds := rounds_ofRatio n Nat.one_pos
  rw [Nat.cast_one, div_one] at hrounds
  refine hrounds (le_trans ?_ hone) (lt_of_lt_of_le hlt' (pow_le_pow_right₀ one_le_two ?_))
  · rw [div_le_one (by positivity)]
    exact one_le_pow₀ one_le_two
  · norm_num

theorem rounds_ofInt {n : Nat} (hpos : 0 < n) (hlt : n < 2 ^ 250) : Rounds (ofInt n) n := by
  have hsign : decide ((n : Int) < 0) = false := by simp
  rw [ofInt, hsign, Int.natAbs_natCast]
  exact rounds_ofRatio_one hpos hlt

theorem rounds_tenPower {n : Nat} (hlt : n ≤ 60) : Rounds (tenPower n) (10 ^ n) := by
  have hten : tenPower n = ofRatio false (10 ^ n) 1 := by
    have hlength : Decimal.length 1 = 1 := by simp [Decimal.length]
    have hmagnitude : Decimal.magnitude ⟨1, n⟩ = n := by
      simp [Decimal.magnitude, hlength]
    rw [tenPower, ofDecimal, if_neg (by simp), hmagnitude, if_neg (by omega), if_neg (by omega)]
    simp [Decimal.num, Decimal.den]
  have hpow : 10 ^ n < 2 ^ 250 := by
    calc 10 ^ n ≤ 10 ^ 60 := Nat.pow_le_pow_right (by decide) hlt
      _ < 2 ^ 250 := by norm_num
  rw [hten]
  exact_mod_cast rounds_ofRatio_one (Nat.pow_pos (by decide)) hpow

variable {x y : Binary64} {v w : ℚ}

theorem Rounds.isNaN (h : Rounds x v) : x.isNaN = false := by
  have hfinite := h.finite
  simp only [Binary.isNaN, decide_eq_false_iff_not]
  omega

theorem Rounds.isInfinite (h : Rounds x v) : x.isInfinite = false := by
  have hfinite := h.finite
  simp only [Binary.isInfinite, beq_eq_false_iff_ne]
  omega

theorem Rounds.isFinite (h : Rounds x v) : x.isFinite = true := by
  simpa [Binary.isFinite] using h.finite

/-- A product is the product of the magnitudes, rounded. -/
theorem rounds_mul (hx : Rounds x v) (hy : Rounds y w) (hlow : 1 / 2 ^ 256 ≤ x.toRat * y.toRat)
    (hhigh : x.toRat * y.toRat < 2 ^ 256) : Rounds (x * y) (x.toRat * y.toRat) := by
  have hmul : x * y = ofUnits false (x.units * y.units) (2 ^ FloatFormat.binary64.scale) := by
    show mul x y = _
    simp [mul, withoutNaN, hx.isNaN, hy.isNaN, hx.isInfinite, hy.isInfinite, hx.nonneg, hy.nonneg]
  rw [hmul]
  refine rounds_ofUnits (Nat.two_pow_pos _) ?_ hlow hhigh
  rw [toRat, toRat]
  push_cast
  field_simp

/-- A quotient is the quotient of the magnitudes, rounded. -/
theorem rounds_div (hx : Rounds x v) (hy : Rounds y w) (hpos : 0 < y.toRat)
    (hlow : 1 / 2 ^ 256 ≤ x.toRat / y.toRat) (hhigh : x.toRat / y.toRat < 2 ^ 256) :
    Rounds (x / y) (x.toRat / y.toRat) := by
  have hunits : 0 < y.units := by
    refine Nat.pos_of_ne_zero ?_
    intro hzero
    rw [toRat, hzero] at hpos
    simp at hpos
  -- A divisor of zero has no units, and this one has some.
  have hcode : y.code ≠ 0 := by
    intro hzero
    simp [units, hzero, FloatFormat.units, FloatFormat.significand, FloatFormat.hidden_pos]
      at hunits
  have hdiv : x / y = ofUnits false (x.units * 2 ^ FloatFormat.binary64.scale) y.units := by
    show div x y = _
    simp [div, withoutNaN, hx.isNaN, hy.isNaN, hx.isInfinite, hy.isInfinite, hx.nonneg, hy.nonneg,
      hcode]
  rw [hdiv]
  refine rounds_ofUnits hunits ?_ hlow hhigh
  have hunits' : (y.units : ℚ) ≠ 0 := by exact_mod_cast hunits.ne'
  rw [toRat, toRat]
  push_cast
  field_simp

end Binary

/-! ### Scaled significands -/

namespace Decimal

/-- The number a decimal denotes. -/
def toRat (d : Decimal) : ℚ := d.digits * 10 ^ d.exponent

/-- A significand with a power of ten in double precision, each rounded, and then their product or
    quotient. -/
def scaled? (d : Decimal) : Option Binary64 :=
  match d.exponent with
  | .ofNat power => (Binary.ofInt d.digits).scaledUp? power
  | .negSucc power => some ((Binary.ofInt d.digits).scaledDown (power + 1))

/-- The number a decimal denotes once its power of ten is rounded. -/
def approximate (d : Decimal) : ℚ :=
  match d.exponent with
  | .ofNat power => d.digits * (Binary.tenPower power).toRat
  | .negSucc power => d.digits / (Binary.tenPower (power + 1)).toRat

/-- A positive value that a decimal is read as, its power of ten rounded first. -/
structure Reads (y : Binary64) (d : Decimal) : Prop where
  /-- The second step rounds what the first one leaves. -/
  rounds : Binary.Rounds y d.approximate
  /-- The two errors together are small. -/
  near : |y.toRat - d.toRat| ≤ d.toRat / 2 ^ 52 + d.toRat / 2 ^ 104
  /-- A number of 25 bits is read without an error. -/
  exact : ∀ (m : ℕ) (k : ℤ), m < 2 ^ 25 → d.toRat = m * 2 ^ k → y.toRat = d.toRat

/-- Powers of five stand in whatever is a whole number of powers of ten times powers of two. -/
theorem five_pow_le {n m p : ℕ} {k : ℤ} (hm : 0 < m) (h : (n : ℚ) * 10 ^ p = m * 2 ^ k) :
    5 ^ p ≤ m := by
  obtain ⟨a, b, rfl⟩ : ∃ a b : ℕ, k = b - a := ⟨(-k).toNat, k.toNat, by omega⟩
  have hnat : n * 10 ^ p * 2 ^ a = m * 2 ^ b := by
    rw [zpow_sub₀ two_ne_zero, zpow_natCast, zpow_natCast, mul_div_assoc',
      eq_div_iff (by positivity)] at h
    exact_mod_cast h
  have hdvd : 5 ^ p ∣ m * 2 ^ b := by
    rw [← hnat, show 10 = 5 * 2 from rfl, Nat.mul_pow]
    exact ⟨n * 2 ^ p * 2 ^ a, by ring⟩
  exact Nat.le_of_dvd hm (Nat.Coprime.dvd_of_dvd_mul_right (by
    exact Nat.Coprime.pow p b (by decide)) hdvd)

theorem le_of_five_pow_lt {p : ℕ} (h : 5 ^ p < 2 ^ 53) : p ≤ 22 := by
  by_contra hgt
  have hpow : 5 ^ 23 ≤ 5 ^ p := Nat.pow_le_pow_right (by decide) (by omega)
  omega

/-- The powers of ten up to the twenty-second are exact. -/
theorem toRat_tenPower {p : ℕ} (h : 5 ^ p < 2 ^ 53) : (Binary.tenPower p).toRat = 10 ^ p := by
  have hle := le_of_five_pow_lt h
  refine (Binary.rounds_tenPower (by omega)).exact (5 ^ p) p (Nat.pow_pos (by decide)) h ?_
  rw [zpow_natCast]
  push_cast
  rw [← mul_pow]
  norm_num

variable {n p : ℕ}

theorem toRat_ofInt (hpos : 0 < n) (hn : n < 2 ^ 53) : (Binary.ofInt n : Binary64).toRat = n :=
  (Binary.rounds_ofInt hpos (by omega)).exact n 0 hpos hn (by rw [zpow_zero, mul_one])

section Error

variable {a b c z : ℚ}

/-- The error of a product with a rounded factor. -/
theorem near_mul (ha : 0 ≤ a) (hb : 0 ≤ b) (hc : |c - b| ≤ b / 2 ^ 53)
    (hz : |z - a * c| ≤ a * c / 2 ^ 53) : |z - a * b| ≤ a * b / 2 ^ 52 + a * b / 2 ^ 104 := by
  obtain ⟨hbelow, habove⟩ := abs_le.mp hc
  obtain ⟨hbelow', habove'⟩ := abs_le.mp hz
  have hlow := mul_le_mul_of_nonneg_left hbelow ha
  have hhigh := mul_le_mul_of_nonneg_left habove ha
  have hab : 0 ≤ a * b := mul_nonneg ha hb
  rw [abs_le]
  constructor <;> linarith

/-- The error of a quotient with a rounded divisor. -/
theorem near_div (ha : 0 ≤ a) (hb : 0 < b) (hc : |c - b| ≤ b / 2 ^ 53)
    (hz : |z - a / c| ≤ a / c / 2 ^ 53) : |z - a / b| ≤ a / b / 2 ^ 52 + a / b / 2 ^ 104 := by
  obtain ⟨hbelow, habove⟩ := abs_le.mp hc
  obtain ⟨hbelow', habove'⟩ := abs_le.mp hz
  have hcpos : 0 < c := by linarith
  have hq : 0 ≤ a / c := div_nonneg ha hcpos.le
  have hac : a / c * c = a := div_mul_cancel₀ a hcpos.ne'
  have hlow := mul_le_mul_of_nonneg_left hbelow hq
  have hhigh := mul_le_mul_of_nonneg_left habove hq
  have hlow' : a / c - a / c / 2 ^ 53 ≤ a / b := by
    rw [le_div_iff₀ hb]
    linarith
  have hhigh' : a / b ≤ a / c + a / c / 2 ^ 53 := by
    rw [div_le_iff₀ hb]
    linarith
  rw [abs_le]
  constructor <;> linarith

/-- A rounded number of ordinary size. -/
theorem ordinary_of_near (hb : 1 ≤ b) (hb' : b ≤ 10 ^ 60) (hc : |c - b| ≤ b / 2 ^ 53) :
    1 / 2 ≤ c ∧ c ≤ 2 * 10 ^ 60 := by
  obtain ⟨hbelow, habove⟩ := abs_le.mp hc
  constructor <;> linarith

end Error

theorem tenPower_ordinary (hp : p ≤ 60) :
    1 / 2 ≤ (Binary.tenPower p).toRat ∧ (Binary.tenPower p).toRat ≤ 2 * 10 ^ 60 :=
  ordinary_of_near (one_le_pow₀ (by norm_num)) (pow_le_pow_right₀ (by norm_num) hp)
    (Binary.rounds_tenPower hp).near

theorem reads_mul (hpos : 0 < n) (hn : n < 2 ^ 53) (hp : p ≤ 60) :
    Reads (Binary.ofInt n * Binary.tenPower p) ⟨n, .ofNat p⟩ := by
  have hone : (1 : ℚ) ≤ n := by exact_mod_cast hpos
  have hn' : (n : ℚ) ≤ 2 ^ 53 := by exact_mod_cast hn.le
  obtain ⟨hlow, hhigh⟩ := tenPower_ordinary hp
  have htoRat : toRat ⟨n, .ofNat p⟩ = n * 10 ^ p := by simp [toRat]
  have hprod : Binary.Rounds (Binary.ofInt n * Binary.tenPower p)
      (n * (Binary.tenPower p).toRat) := by
    have hmul := Binary.rounds_mul (Binary.rounds_ofInt hpos (by omega)) (Binary.rounds_tenPower hp)
    rw [toRat_ofInt hpos hn] at hmul
    refine hmul ?_ ?_
    · calc (1 : ℚ) / 2 ^ 256 ≤ 1 * (1 / 2) := by norm_num
        _ ≤ n * (Binary.tenPower p).toRat := mul_le_mul hone hlow (by norm_num) (by linarith)
    · calc n * (Binary.tenPower p).toRat ≤ 2 ^ 53 * (2 * 10 ^ 60) :=
            mul_le_mul hn' hhigh (by linarith) (by norm_num)
        _ < 2 ^ 256 := by norm_num
  refine ⟨hprod, ?_, ?_⟩
  · rw [htoRat]
    exact near_mul (Nat.cast_nonneg n) (by positivity) (Binary.rounds_tenPower hp).near hprod.near
  · -- Only a power of ten that is exact leaves so few bits.
    intro m k hm hv
    rw [htoRat] at hv ⊢
    have hm0 : 0 < m := by
      refine Nat.pos_of_ne_zero ?_
      rintro rfl
      have hv0 : (0 : ℚ) < n * 10 ^ p := mul_pos (by linarith) (by positivity)
      rw [hv, Nat.cast_zero, zero_mul] at hv0
      exact absurd hv0 (lt_irrefl 0)
    have hfive := five_pow_le hm0 hv
    rw [toRat_tenPower (by omega)] at hprod
    exact hprod.exact m k hm0 (by omega) hv

theorem reads_div (hpos : 0 < n) (hn : n < 2 ^ 53) (hp : p + 1 ≤ 60) :
    Reads (Binary.ofInt n / Binary.tenPower (p + 1)) ⟨n, .negSucc p⟩ := by
  have hone : (1 : ℚ) ≤ n := by exact_mod_cast hpos
  have hn' : (n : ℚ) ≤ 2 ^ 53 := by exact_mod_cast hn.le
  obtain ⟨hlow, hhigh⟩ := tenPower_ordinary hp
  have htoRat : toRat ⟨n, .negSucc p⟩ = n / 10 ^ (p + 1) := by
    simp [toRat, zpow_negSucc, div_eq_mul_inv]
  have hpower : 0 < (Binary.tenPower (p + 1)).toRat := by linarith
  have hquot : Binary.Rounds (Binary.ofInt n / Binary.tenPower (p + 1))
      (n / (Binary.tenPower (p + 1)).toRat) := by
    have hdiv := Binary.rounds_div (Binary.rounds_ofInt hpos (by omega)) (Binary.rounds_tenPower hp)
      hpower
    rw [toRat_ofInt hpos hn] at hdiv
    refine hdiv ?_ ?_
    · calc (1 : ℚ) / 2 ^ 256 ≤ 1 / (2 * 10 ^ 60) := by norm_num
        _ ≤ n / (Binary.tenPower (p + 1)).toRat := div_le_div₀ (by linarith) hone hpower hhigh
    · calc n / (Binary.tenPower (p + 1)).toRat ≤ 2 ^ 53 / (1 / 2) :=
            div_le_div₀ (by norm_num) hn' (by norm_num) hlow
        _ < 2 ^ 256 := by norm_num
  refine ⟨hquot, ?_, ?_⟩
  · rw [htoRat]
    exact near_div (Nat.cast_nonneg n) (by positivity) (Binary.rounds_tenPower hp).near hquot.near
  · -- Only a power of ten that is exact leaves a quotient of finitely many bits.
    intro m k hm hv
    rw [htoRat] at hv ⊢
    have hm0 : 0 < m := by
      refine Nat.pos_of_ne_zero ?_
      rintro rfl
      have hv0 : (0 : ℚ) < n / 10 ^ (p + 1) := div_pos (by linarith) (by positivity)
      rw [hv, Nat.cast_zero, zero_mul] at hv0
      exact absurd hv0 (lt_irrefl 0)
    have hn0 : (m : ℚ) * 10 ^ (p + 1) = n * 2 ^ (-k) := by
      rw [div_eq_iff (by positivity)] at hv
      rw [hv, zpow_neg]
      field_simp
    have hfive := five_pow_le hpos hn0
    rw [toRat_tenPower (by omega)] at hquot
    exact hquot.exact m k hm0 (by omega) hv

/-- A decimal of ordinary size is read with a small error. -/
theorem exists_scaled? {d : Decimal} (hpos : 0 < d.digits) (hdigits : d.digits < 2 ^ 53)
    (hlow : -60 ≤ d.exponent) (hhigh : d.exponent ≤ 60) :
    ∃ y, d.scaled? = some y ∧ Reads y d := by
  obtain ⟨n, p | p⟩ := d
  · have hp : p ≤ 60 := by simpa using hhigh
    have hreads := reads_mul hpos hdigits hp
    refine ⟨Binary.ofInt n * Binary.tenPower p, ?_, hreads⟩
    rw [scaled?]
    dsimp only
    rw [Binary.scaledUp?, if_pos (by unfold Binary.greatestTenPower; omega),
      if_pos hreads.rounds.isFinite]
  · have hp : p + 1 ≤ 60 := by
      have : -60 ≤ Int.negSucc p := hlow
      omega
    refine ⟨Binary.ofInt n / Binary.tenPower (p + 1), ?_, reads_div hpos hdigits hp⟩
    rw [scaled?]
    dsimp only
    rw [Binary.scaledDown, if_pos (by unfold Binary.greatestTenPower; omega)]

end Decimal

theorem Numeral.toBinary64?_eq (n : Numeral) :
    n.toBinary64? = n.leading.scaled?.map fun y => if n.negative then -y else y := by
  unfold toBinary64? Decimal.scaled?
  generalize n.leading = d
  obtain ⟨digits, power | power⟩ := d
  · cases h : (Binary.ofInt digits : Binary64).scaledUp? power <;> simp [h]
  · simp

end LayerGraph
