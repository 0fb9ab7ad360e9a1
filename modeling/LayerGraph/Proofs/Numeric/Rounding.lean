import LayerGraph.Numeric.Decimal
import Mathlib

/-! # Rounding to the nearest code

  A code is a significand with an exponent, `exponent * hidden + significand`, and it stands for
  `significand * 2 ^ exponent` units. A fraction of units is rounded at one exponent, its *shift*,
  which is the only one at which a significand of the format is left before the point; everything
  about `nearest` follows from this and from what rounding to a whole number does.

  - `FloatFormat.units_nearest`: what a fraction is rounded to.
  - `FloatFormat.nearest_eq`: a fraction in the rounding interval of a code is rounded to it.
-/

namespace LayerGraph

/-! ### Whole numbers -/

section Whole

variable {num den m : Nat}

theorem roundHalfEven_mul_le (num : Nat) (hden : 0 < den) :
    2 * (roundHalfEven num den * den) ≤ 2 * num + den := by
  have hnum : num / den * den + num % den = num := Nat.div_add_mod' num den
  have hmod : num % den < den := Nat.mod_lt num hden
  unfold roundHalfEven
  dsimp only
  split_ifs with hlow hhigh
  · omega
  · rw [Nat.add_mul, Nat.one_mul]
    omega
  · have hparity : num / den % 2 ≤ 1 := by omega
    have := Nat.mul_le_mul_right den hparity
    rw [Nat.add_mul]
    omega

theorem le_roundHalfEven_mul (num : Nat) (hden : 0 < den) :
    2 * num ≤ 2 * (roundHalfEven num den * den) + den := by
  have hnum : num / den * den + num % den = num := Nat.div_add_mod' num den
  have hmod : num % den < den := Nat.mod_lt num hden
  unfold roundHalfEven
  dsimp only
  split_ifs with hlow hhigh
  · omega
  · rw [Nat.add_mul, Nat.one_mul]
    omega
  · rw [Nat.add_mul]
    omega

/-- The nearest whole number is the only one within a half, or the even one of two. -/
theorem roundHalfEven_eq (hden : 0 < den) (hlower : 2 * (m * den) ≤ 2 * num + den)
    (hupper : 2 * num ≤ 2 * (m * den) + den)
    (htie : 2 * (m * den) = 2 * num + den ∨ 2 * num = 2 * (m * den) + den → m % 2 = 0) :
    roundHalfEven num den = m := by
  have hnum : num / den * den + num % den = num := Nat.div_add_mod' num den
  have hmod : num % den < den := Nat.mod_lt num hden
  obtain hle | hlt := le_or_gt (m * den) num
  · -- The number is not below `m`, and less than one above it.
    have hsucc : (m + 1) * den = m * den + den := Nat.succ_mul m den
    have hdiv : num / den = m := Nat.div_eq_of_lt_le hle (by omega)
    rw [hdiv] at hnum
    unfold roundHalfEven
    dsimp only
    rw [hdiv]
    split_ifs <;> omega
  · obtain ⟨k, rfl⟩ : ∃ k, m = k + 1 := by
      refine Nat.exists_eq_succ_of_ne_zero ?_
      rintro rfl
      omega
    have hsucc : (k + 1) * den = k * den + den := Nat.succ_mul k den
    have hdiv : num / den = k := Nat.div_eq_of_lt_le (by omega) (by omega)
    rw [hdiv] at hnum
    unfold roundHalfEven
    dsimp only
    rw [hdiv]
    split_ifs <;> omega

theorem roundHalfEven_mul {k : Nat} (hk : 0 < k) :
    roundHalfEven (num * k) (den * k) = roundHalfEven num den := by
  have hdouble : 2 * (num % den * k) = 2 * (num % den) * k := by ring
  simp only [roundHalfEven, Nat.mul_div_mul_right _ _ hk, Nat.mul_mod_mul_right, hdouble,
    Nat.mul_lt_mul_right hk]

/-- Rounding depends on the fraction only, not on how it is written. -/
theorem roundHalfEven_congr {num' den' : Nat} (hden : 0 < den) (hden' : 0 < den')
    (h : num * den' = num' * den) : roundHalfEven num den = roundHalfEven num' den' := by
  rw [← roundHalfEven_mul hden', h, Nat.mul_comm den den', roundHalfEven_mul hden]

theorem roundHalfEven_one (n : Nat) : roundHalfEven n 1 = n :=
  roundHalfEven_eq Nat.one_pos (by omega) (by omega) (by omega)

end Whole

namespace FloatFormat

variable (F : FloatFormat) {num den : Nat}

/-! ### Codes -/

theorem hidden_pos : 0 < F.hidden := Nat.two_pow_pos _

theorem code_eq (code : Nat) : F.exponent code * F.hidden + F.significand code = code := by
  have hpos := F.hidden_pos
  unfold exponent significand
  split_ifs with h
  · rw [Nat.div_eq_of_lt h]
    omega
  · have hdiv : 1 ≤ code / F.hidden := (Nat.one_le_div_iff hpos).mpr (by omega)
    have hcode := Nat.div_add_mod' code F.hidden
    have hsub : (code / F.hidden - 1) * F.hidden + F.hidden = code / F.hidden * F.hidden := by
      rw [← Nat.succ_mul, Nat.succ_eq_add_one, Nat.sub_add_cancel hdiv]
    omega

theorem significand_lt (code : Nat) : F.significand code < 2 * F.hidden := by
  have hmod := Nat.mod_lt code F.hidden_pos
  unfold significand
  split_ifs <;> omega

/-- Only the least exponent has significands without the implicit bit. -/
theorem exponent_eq_zero_or (code : Nat) :
    F.exponent code = 0 ∨ F.hidden ≤ F.significand code := by
  unfold exponent significand
  split_ifs with h
  · left
    rw [Nat.div_eq_of_lt h]
  · right
    omega

/-- A significand that is carried out of its range is the first one of the next exponent. -/
theorem units_add {t m : Nat} (hm : m ≤ 2 * F.hidden) (h : t = 0 ∨ F.hidden ≤ m) :
    F.units (t * F.hidden + m) = m * 2 ^ t := by
  have hpos := F.hidden_pos
  obtain hsmall | hlarge := Nat.lt_or_ge m F.hidden
  · obtain rfl : t = 0 := by omega
    simp [units, significand, exponent, hsmall, Nat.div_eq_of_lt hsmall]
  · have hnot : ¬ t * F.hidden + m < F.hidden := by omega
    -- Twice the first significand is the carry.
    obtain hlt | rfl := Nat.lt_or_eq_of_le hm
    · obtain ⟨r, rfl⟩ := Nat.exists_eq_add_of_le hlarge
      have hr : r < F.hidden := by omega
      have hcode : t * F.hidden + (F.hidden + r) = (t + 1) * F.hidden + r := by
        rw [Nat.succ_mul]
        omega
      have hdiv : (t * F.hidden + (F.hidden + r)) / F.hidden = t + 1 := by
        rw [hcode, Nat.add_comm, Nat.add_mul_div_right _ _ hpos, Nat.div_eq_of_lt hr, Nat.zero_add]
      have hmod : (t * F.hidden + (F.hidden + r)) % F.hidden = r := by
        rw [hcode, Nat.add_comm, Nat.add_mul_mod_self_right, Nat.mod_eq_of_lt hr]
      simp only [units, significand, exponent, if_neg hnot, hdiv, hmod, Nat.add_sub_cancel]
    · have hcode : t * F.hidden + 2 * F.hidden = (t + 2) * F.hidden := by rw [Nat.add_mul]
      have hdiv : (t * F.hidden + 2 * F.hidden) / F.hidden = t + 2 := by
        rw [hcode, Nat.mul_div_cancel _ hpos]
      have hmod : (t * F.hidden + 2 * F.hidden) % F.hidden = 0 := by
        rw [hcode, Nat.mul_mod_left]
      simp only [units, significand, exponent, if_neg hnot, hdiv, hmod, Nat.add_zero,
        show t + 2 - 1 = t + 1 from rfl, Nat.pow_succ]
      ring

/-! ### Fractions of units -/

/-- The exponent at which a fraction is rounded. -/
def shift (num den : Nat) : Nat := (num / den).log2 - F.fractionBits

theorem nearest_eq_min : F.nearest num den = min F.infinity
    (F.shift num den * F.hidden + roundHalfEven num (den * 2 ^ F.shift num den)) := rfl

theorem lt_of_shift (num : Nat) (hden : 0 < den) :
    num < den * 2 ^ F.shift num den * (2 * F.hidden) := by
  have hlog : num / den < 2 ^ ((num / den).log2 + 1) := Nat.lt_log2_self
  have hpow : 2 ^ ((num / den).log2 + 1) ≤ 2 ^ F.shift num den * (2 * F.hidden) := by
    rw [hidden, ← Nat.pow_succ', ← Nat.pow_add]
    exact Nat.pow_le_pow_right (by decide) (by unfold shift; omega)
  rw [Nat.mul_assoc, Nat.mul_comm den]
  exact (Nat.div_lt_iff_lt_mul hden).mp (Nat.lt_of_lt_of_le hlog hpow)

theorem le_of_shift_pos (hden : 0 < den) (h : 0 < F.shift num den) :
    den * 2 ^ F.shift num den * F.hidden ≤ num := by
  have hne : num / den ≠ 0 := by
    intro hzero
    simp [shift, hzero] at h
  have hpow : 2 ^ F.shift num den * F.hidden = 2 ^ (num / den).log2 := by
    rw [hidden, ← Nat.pow_add]
    congr 1
    unfold shift at h ⊢
    omega
  rw [Nat.mul_assoc, hpow, Nat.mul_comm den]
  exact (Nat.le_div_iff_mul_le hden).mp (Nat.log2_self_le hne)

/-- The shift is the only exponent at which the fraction has a significand of the format. -/
theorem shift_eq {t : Nat} (hden : 0 < den) (hupper : num < den * 2 ^ t * (2 * F.hidden))
    (hlower : t = 0 ∨ den * 2 ^ t * F.hidden ≤ num) : F.shift num den = t := by
  have hpow : 2 ^ t * (2 * F.hidden) = 2 ^ (t + F.fractionBits + 1) := by
    rw [hidden, ← Nat.pow_succ', ← Nat.pow_add, Nat.add_assoc]
  -- The shift is read off the logarithm of the quotient, which these bounds fix.
  have hquotient : num / den < 2 ^ (t + F.fractionBits + 1) := by
    rw [Nat.div_lt_iff_lt_mul hden, ← hpow, Nat.mul_comm _ den, ← Nat.mul_assoc]
    exact hupper
  have hlog : (num / den).log2 ≤ t + F.fractionBits := by
    by_cases hzero : num / den = 0
    · simp [hzero]
    · exact Nat.lt_succ_iff.mp ((Nat.log2_lt hzero).mpr hquotient)
  obtain rfl | hlower := hlower
  · unfold shift
    omega
  · have hle : 2 ^ (t + F.fractionBits) ≤ num / den := by
      rw [Nat.le_div_iff_mul_le hden, Nat.pow_add, Nat.mul_comm _ den, ← Nat.mul_assoc]
      exact hlower
    have hne : num / den ≠ 0 := (Nat.lt_of_lt_of_le (Nat.two_pow_pos _) hle).ne'
    have hlog' := (Nat.le_log2 hne).mpr hle
    unfold shift
    omega

/-- The whole number a fraction is rounded to at its shift. -/
def rounded (num den : Nat) : Nat := roundHalfEven num (den * 2 ^ F.shift num den)

theorem rounded_le (num : Nat) (hden : 0 < den) : F.rounded num den ≤ 2 * F.hidden := by
  have hpos : 0 < den * 2 ^ F.shift num den := Nat.mul_pos hden (Nat.two_pow_pos _)
  have hround := roundHalfEven_mul_le num hpos
  have hlt := F.lt_of_shift num hden
  by_contra hgt
  have hmul := Nat.mul_le_mul_right (den * 2 ^ F.shift num den) (Nat.succ_le_of_lt (not_le.mp hgt))
  rw [Nat.succ_mul, Nat.mul_comm (2 * F.hidden)] at hmul
  unfold rounded at hmul
  omega

/-- A fraction that is another one times a power of two is rounded as the other one, when that has
    a significand of the format before the point. -/
theorem rounded_of_scaled {a b i : Nat} (hden : 0 < den) (hb : 0 < b)
    (h : num * b = a * (den * 2 ^ i)) (hlower : F.hidden * b ≤ a) (hupper : a < 2 * F.hidden * b) :
    F.shift num den = i ∧ F.rounded num den = roundHalfEven a b := by
  have hscaled : 0 < den * 2 ^ i := Nat.mul_pos hden (Nat.two_pow_pos i)
  have hshift : F.shift num den = i := by
    refine F.shift_eq hden (Nat.lt_of_mul_lt_mul_right (a := b) ?_)
      (.inr (Nat.le_of_mul_le_mul_right ?_ hb))
    · calc num * b = a * (den * 2 ^ i) := h
        _ < 2 * F.hidden * b * (den * 2 ^ i) := Nat.mul_lt_mul_of_pos_right hupper hscaled
        _ = den * 2 ^ i * (2 * F.hidden) * b := by ring
    · calc den * 2 ^ i * F.hidden * b = F.hidden * b * (den * 2 ^ i) := by ring
        _ ≤ a * (den * 2 ^ i) := Nat.mul_le_mul_right _ hlower
        _ = num * b := h.symm
  refine ⟨hshift, ?_⟩
  rw [rounded, hshift]
  exact roundHalfEven_congr hscaled hb h

theorem shift_eq_zero_or (hden : 0 < den) :
    F.shift num den = 0 ∨ F.hidden ≤ F.rounded num den := by
  obtain hzero | hshift := Nat.eq_zero_or_pos (F.shift num den)
  · exact .inl hzero
  · right
    have hpos : 0 < den * 2 ^ F.shift num den := Nat.mul_pos hden (Nat.two_pow_pos _)
    have hround := le_roundHalfEven_mul num hpos
    have hle := F.le_of_shift_pos hden hshift
    by_contra hlt
    have hmul := Nat.mul_le_mul_right (den * 2 ^ F.shift num den)
      (Nat.succ_le_of_lt (not_le.mp hlt))
    rw [Nat.succ_mul, Nat.mul_comm F.hidden] at hmul
    unfold rounded at hmul
    omega

/-- A fraction that is not too large is rounded to a multiple of a power of two. -/
theorem units_nearest (hden : 0 < den) (h : F.nearest num den < F.infinity) :
    F.units (F.nearest num den) = F.rounded num den * 2 ^ F.shift num den := by
  have hcode : F.nearest num den = F.shift num den * F.hidden + F.rounded num den := by
    rw [nearest_eq_min] at h ⊢
    exact Nat.min_eq_right (by omega)
  rw [hcode, F.units_add (F.rounded_le num hden) (F.shift_eq_zero_or hden)]

/-- It moves by at most half of that power. -/
theorem units_nearest_near (hden : 0 < den) (h : F.nearest num den < F.infinity) :
    2 * num ≤ 2 * (F.units (F.nearest num den) * den) + den * 2 ^ F.shift num den ∧
      2 * (F.units (F.nearest num den) * den) ≤ 2 * num + den * 2 ^ F.shift num den := by
  have hpos : 0 < den * 2 ^ F.shift num den := Nat.mul_pos hden (Nat.two_pow_pos _)
  have hunits : F.units (F.nearest num den) * den =
      roundHalfEven num (den * 2 ^ F.shift num den) * (den * 2 ^ F.shift num den) := by
    rw [F.units_nearest hden h, rounded]
    ring
  rw [hunits]
  exact ⟨le_roundHalfEven_mul num hpos, roundHalfEven_mul_le num hpos⟩

/-- With a full significand that is a small share of the fraction. -/
theorem units_nearest_close (hden : 0 < den) (h : F.nearest num den < F.infinity)
    (hnormal : den * F.hidden ≤ num) :
    2 * F.hidden * num ≤ 2 * F.hidden * (F.units (F.nearest num den) * den) + num ∧
      2 * F.hidden * (F.units (F.nearest num den) * den) ≤ 2 * F.hidden * num + num := by
  have hbit : F.hidden * (den * 2 ^ F.shift num den) ≤ num := by
    rw [Nat.mul_comm]
    obtain hzero | hpos := Nat.eq_zero_or_pos (F.shift num den)
    · rwa [hzero, Nat.pow_zero, Nat.mul_one]
    · exact F.le_of_shift_pos hden hpos
  obtain ⟨hbelow, habove⟩ := F.units_nearest_near hden h
  have hbelow' := Nat.mul_le_mul_left F.hidden hbelow
  have habove' := Nat.mul_le_mul_left F.hidden habove
  constructor <;> linarith

/-- What is left before the point at the shift of a fraction decides its code. -/
theorem nearest_eq {t m : Nat} (hden : 0 < den) (hbelow : num < den * 2 ^ t * (2 * F.hidden))
    (habove : t = 0 ∨ den * 2 ^ t * F.hidden ≤ num)
    (hlower : 2 * (m * (den * 2 ^ t)) ≤ 2 * num + den * 2 ^ t)
    (hupper : 2 * num ≤ 2 * (m * (den * 2 ^ t)) + den * 2 ^ t)
    (htie : 2 * (m * (den * 2 ^ t)) = 2 * num + den * 2 ^ t ∨
      2 * num = 2 * (m * (den * 2 ^ t)) + den * 2 ^ t → m % 2 = 0)
    (hfinite : t * F.hidden + m < F.infinity) : F.nearest num den = t * F.hidden + m := by
  rw [nearest_eq_min, F.shift_eq hden hbelow habove,
    roundHalfEven_eq (Nat.mul_pos hden (Nat.two_pow_pos t)) hlower hupper htie]
  exact Nat.min_eq_right (Nat.le_of_lt hfinite)

/-- A fraction just below the first significand of an exponent is carried to it. The exponent at
    which it is rounded is the one before. -/
theorem nearest_eq_first {k : Nat} (hden : 0 < den) (hbelow : num < den * 2 ^ (k + 1) * F.hidden)
    (hlower : 4 * (F.hidden * (den * 2 ^ (k + 1))) - den * 2 ^ (k + 1) ≤ 4 * num)
    (hfinite : (k + 1) * F.hidden + F.hidden < F.infinity) :
    F.nearest num den = (k + 1) * F.hidden + F.hidden := by
  have hcarry : (k + 1) * F.hidden + F.hidden = k * F.hidden + 2 * F.hidden := by ring
  have hdouble : den * 2 ^ (k + 1) = 2 * (den * 2 ^ k) := by ring
  have hscale : F.hidden * (den * 2 ^ (k + 1)) = 2 * (den * 2 ^ k * F.hidden) := by ring
  have hunit : den * 2 ^ k ≤ den * 2 ^ k * F.hidden := Nat.le_mul_of_pos_right _ F.hidden_pos
  have hfull : den * 2 ^ k * (2 * F.hidden) = 2 * (den * 2 ^ k * F.hidden) := by ring
  have hfull' : 2 * F.hidden * (den * 2 ^ k) = 2 * (den * 2 ^ k * F.hidden) := by ring
  rw [Nat.mul_comm, hscale] at hbelow
  rw [hscale, hdouble] at hlower
  rw [hcarry] at hfinite ⊢
  refine F.nearest_eq hden ?_ (.inr ?_) ?_ ?_ (fun _ => by omega) hfinite
  all_goals omega

theorem nearest_lt_infinity {k : Nat} (hden : 0 < den) (h : num < den * 2 ^ k)
    (hlow : F.fractionBits < k) (hhigh : k + 2 < 2 ^ F.exponentBits + F.fractionBits) :
    F.nearest num den < F.infinity := by
  have hrounded := F.rounded_le num hden
  have hshift : F.shift num den + 2 < 2 ^ F.exponentBits - 1 := by
    obtain hzero | hpos := Nat.eq_zero_or_pos (F.shift num den)
    · omega
    · have hle := F.le_of_shift_pos hden hpos
      rw [hidden, Nat.mul_assoc, ← Nat.pow_add] at hle
      have hpow : 2 ^ (F.shift num den + F.fractionBits) < 2 ^ k :=
        Nat.lt_of_mul_lt_mul_left (Nat.lt_of_le_of_lt hle h)
      have := (Nat.pow_lt_pow_iff_right (by decide : 1 < 2)).mp hpow
      omega
  have hmul := Nat.mul_le_mul_right F.hidden (Nat.succ_le_of_lt hshift)
  rw [Nat.succ_mul, Nat.add_mul] at hmul
  have hpos := F.hidden_pos
  rw [nearest_eq_min]
  unfold rounded at hrounded
  refine Nat.lt_of_le_of_lt (Nat.min_le_right _ _) ?_
  unfold infinity
  omega

end FloatFormat

namespace Binary

variable {F : FloatFormat} {x : Binary F} {num den : Nat}

theorem roundingInterval_upper :
    x.roundingInterval.upper = 4 * (F.significand x.code * 2 ^ F.exponent x.code) +
      2 * 2 ^ F.exponent x.code := rfl

/-- The gap below the first significand of an exponent is that of the exponent before. -/
theorem roundingInterval_lower :
    x.roundingInterval.lower = 4 * (F.significand x.code * 2 ^ F.exponent x.code) -
      (if 0 < F.exponent x.code ∧ F.significand x.code = F.hidden then 1 else 2) *
        2 ^ F.exponent x.code := by
  have hpos := F.hidden_pos
  -- The code is made of the exponent and the significand, so both can be read off it.
  have hnarrow : (x.code % F.hidden = 0 ∧ F.hidden < x.code) ↔
      (0 < F.exponent x.code ∧ F.significand x.code = F.hidden) := by
    have hcode := F.code_eq x.code
    constructor
    · rintro ⟨hmod, hlt⟩
      have hm : F.significand x.code = F.hidden := by
        rw [FloatFormat.significand, if_neg (by omega), hmod, Nat.add_zero]
      refine ⟨Nat.pos_of_ne_zero ?_, hm⟩
      intro hzero
      rw [hzero, hm] at hcode
      omega
    · rintro ⟨ht, hm⟩
      rw [hm] at hcode
      have hmul := Nat.mul_le_mul_right F.hidden ht
      refine ⟨?_, by omega⟩
      rw [← hcode, ← Nat.succ_mul, Nat.mul_mod_left]
  simp only [roundingInterval, hnarrow]
  split_ifs
  · rw [Nat.one_mul]
    rfl
  · rfl

/-- A fraction of units in the rounding interval of a value is rounded to its code. -/
theorem nearest_eq_code (hF : 0 < F.fractionBits) (hx : x.code < F.infinity) (hden : 0 < den)
    (hlower : x.roundingInterval.lower * den ≤ 4 * num)
    (hupper : 4 * num ≤ x.roundingInterval.upper * den)
    (htie : x.roundingInterval.lower * den = 4 * num ∨ 4 * num = x.roundingInterval.upper * den →
      x.code % 2 = 0) : F.nearest num den = x.code := by
  have hcode := F.code_eq x.code
  have hm := F.significand_lt x.code
  have heven : F.hidden % 2 = 0 := by
    obtain ⟨n, hn⟩ := Nat.exists_eq_succ_of_ne_zero hF.ne'
    simp [FloatFormat.hidden, hn, Nat.pow_succ]
  rw [roundingInterval_upper] at hupper htie
  rw [roundingInterval_lower] at hlower htie
  have hnormal := F.exponent_eq_zero_or x.code
  generalize F.exponent x.code = t at *
  generalize F.significand x.code = m at *
  have hparity : x.code % 2 = m % 2 := by
    rw [← hcode, Nat.add_mod, Nat.mul_mod, heven]
    simp
  obtain ⟨g, hg, hnarrow⟩ : ∃ g, (if 0 < t ∧ m = F.hidden then 1 else 2) = g ∧
      (g = 1 ∧ 0 < t ∧ m = F.hidden ∨ g = 2 ∧ ¬ (0 < t ∧ m = F.hidden)) := by
    split_ifs with h
    · exact ⟨1, rfl, .inl ⟨rfl, h⟩⟩
    · exact ⟨2, rfl, .inr ⟨rfl, h⟩⟩
  -- Everything in multiples of the gap at the exponent of the value.
  have hlow : (4 * (m * 2 ^ t) - g * 2 ^ t) * den =
      4 * (m * (den * 2 ^ t)) - g * (den * 2 ^ t) := by
    rw [Nat.sub_mul]
    congr 1 <;> ring
  have hhigh : (4 * (m * 2 ^ t) + 2 * 2 ^ t) * den =
      4 * (m * (den * 2 ^ t)) + 2 * (den * 2 ^ t) := by ring
  rw [hg, hlow] at hlower htie
  rw [hhigh] at hupper htie
  have hpos : 0 < den * 2 ^ t := Nat.mul_pos hden (Nat.two_pow_pos t)
  obtain hin | ⟨ht, hbelow⟩ : (t = 0 ∨ den * 2 ^ t * F.hidden ≤ num) ∨
      (0 < t ∧ num < den * 2 ^ t * F.hidden) := by omega
  · -- The fraction is rounded at the exponent of the value.
    have hlast : (m + 1) * (den * 2 ^ t) ≤ 2 * F.hidden * (den * 2 ^ t) :=
      Nat.mul_le_mul_right _ hm
    rw [Nat.succ_mul, Nat.mul_comm (2 * F.hidden)] at hlast
    have hgap : g * (den * 2 ^ t) ≤ 2 * (den * 2 ^ t) := Nat.mul_le_mul_right _ (by omega)
    rw [← hcode]
    refine F.nearest_eq hden (by omega) hin (by omega) (by omega) ?_ (by omega)
    intro h
    rw [← hparity]
    obtain ⟨rfl, -⟩ | ⟨rfl, -⟩ := hnarrow
    · exact htie (by omega)
    · exact htie (by omega)
  · -- The value is the first one of its exponent, and the fraction lies below it.
    have hfirst : m = F.hidden := by
      by_contra hne
      have hle : (F.hidden + 1) * (den * 2 ^ t) ≤ m * (den * 2 ^ t) :=
        Nat.mul_le_mul_right _ (by omega)
      rw [Nat.succ_mul, Nat.mul_comm F.hidden] at hle
      obtain ⟨rfl, -, rfl⟩ | ⟨rfl, -⟩ := hnarrow
      · exact hne rfl
      · omega
    obtain rfl : g = 1 := by
      obtain ⟨hone, -⟩ | ⟨-, hnot⟩ := hnarrow
      · exact hone
      · exact absurd ⟨ht, hfirst⟩ hnot
    obtain ⟨k, rfl⟩ := Nat.exists_eq_succ_of_ne_zero ht.ne'
    subst hfirst
    rw [← hcode] at hx ⊢
    rw [Nat.one_mul] at hlower
    exact F.nearest_eq_first hden hbelow hlower hx

end Binary

end LayerGraph
