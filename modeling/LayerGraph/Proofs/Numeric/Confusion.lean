import LayerGraph.Proofs.Numeric.Neighbours
import LayerGraph.Proofs.Numeric.Shortest

/-! # Decimals that reading could confuse

  A decimal is read in double precision with an error of up to two units in the last place. That
  matters only when the decimal is as near as this to an end of a rounding interval of single
  precision, a number of at most 25 bits, without being the end itself.

  There are few such decimals of eight digits. For each power of ten, the digits and the bits of a
  near pair make a fraction near a fixed ratio, so it is a multiple of one of two neighbours of the
  ratio; and those that belong to neighbours can be read one by one (`eq_or_kept_of_near`).
-/

namespace LayerGraph

namespace Decimal

/-- A decimal is read as the value that it is the shortest decimal of, if it is one. -/
def Kept (d : Decimal) : Prop :=
  Binary.shortest .even (Binary.ofRatio false d.num d.den : Binary32) = d →
    d.scaled?.map (Binary.convert .binary32) = some (Binary.ofRatio false d.num d.den)

instance (d : Decimal) : Decidable d.Kept := by
  unfold Kept
  infer_instance

/-! ### The ratios -/

/-- The power of two that is at most a power of ten, and at least half of it. -/
def bits (p : ℤ) : ℤ :=
  if 0 ≤ p then Nat.log2 (10 ^ p.toNat) else -Nat.log2 (10 ^ (-p).toNat) - 1

/-- Numerator of `10 ^ p / 2 ^ j`. -/
def ratioNum (p j : ℤ) : ℕ := 10 ^ p.toNat * 2 ^ (-j).toNat

/-- Denominator of `10 ^ p / 2 ^ j`. -/
def ratioDen (p j : ℤ) : ℕ := 10 ^ (-p).toNat * 2 ^ j.toNat

/-- The neighbours of `10 ^ p / 2 ^ j` among the fractions with denominators of 27 bits. -/
def ratioNeighbours (p j : ℤ) : (ℕ × ℕ) × (ℕ × ℕ) :=
  neighboursFrom (ratioNum p j) (ratioDen p j) (2 ^ 27) 64 (1, 0) (0, 1)

/-- A fraction differs from `10 ^ p / 2 ^ j` by no more than the error of reading. -/
def Confusable (p j : ℤ) (f : ℕ × ℕ) : Prop :=
  f.2 < 2 ^ 25 ∧ excess (ratioNum p j) (ratioDen p j) f.1 f.2 ≠ 0 ∧
    2 ^ 104 * (excess (ratioNum p j) (ratioDen p j) f.1 f.2).natAbs ≤
      f.1 * ratioNum p j * (2 ^ 52 + 1)

/-- All decimals that belong to a fraction are read as they should be. -/
def Settled (p : ℤ) (f : ℕ × ℕ) : Prop :=
  ∀ k < 2 ^ 25 / f.2 + 1, 2 ^ 26 ≤ k * f.1 ∧ k * f.1 < 2 ^ 27 ∧ 2 ^ 24 ≤ k * f.2 →
    ∀ i < 27, k * f.1 % 2 ^ i = 0 → Kept ⟨k * f.1 / 2 ^ i, p⟩

/-- The neighbours that were found are such, and nothing near them is confused. -/
structure Covered (p j : ℤ) : Prop where
  neighbours : Neighbours (ratioNum p j) (ratioDen p j) (ratioNeighbours p j).1
    (ratioNeighbours p j).2
  bound : 2 ^ 27 ≤ (ratioNeighbours p j).1.1 + (ratioNeighbours p j).2.1 ∨
    excess (ratioNum p j) (ratioDen p j) (ratioNeighbours p j).1.1 (ratioNeighbours p j).1.2 = 0 ∨
    excess (ratioNum p j) (ratioDen p j) (ratioNeighbours p j).2.1 (ratioNeighbours p j).2.2 = 0
  low_le : (ratioNeighbours p j).1.1 ≤ 2 ^ 27
  high_le : (ratioNeighbours p j).2.1 ≤ 2 ^ 27
  low_settled : Confusable p j (ratioNeighbours p j).1 → Settled p (ratioNeighbours p j).1
  high_settled : Confusable p j (ratioNeighbours p j).2 → Settled p (ratioNeighbours p j).2

instance (p j : ℤ) (f : ℕ × ℕ) : Decidable (Confusable p j f) := by
  unfold Confusable
  infer_instance

instance (p : ℤ) (f : ℕ × ℕ) : Decidable (Settled p f) := by
  unfold Settled
  infer_instance

instance (p j : ℤ) : Decidable (Covered p j) :=
  decidable_of_iff (Neighbours (ratioNum p j) (ratioDen p j) (ratioNeighbours p j).1
      (ratioNeighbours p j).2 ∧
    (2 ^ 27 ≤ (ratioNeighbours p j).1.1 + (ratioNeighbours p j).2.1 ∨
      excess (ratioNum p j) (ratioDen p j) (ratioNeighbours p j).1.1
        (ratioNeighbours p j).1.2 = 0 ∨
      excess (ratioNum p j) (ratioDen p j) (ratioNeighbours p j).2.1
        (ratioNeighbours p j).2.2 = 0) ∧
    (ratioNeighbours p j).1.1 ≤ 2 ^ 27 ∧ (ratioNeighbours p j).2.1 ≤ 2 ^ 27 ∧
    (Confusable p j (ratioNeighbours p j).1 → Settled p (ratioNeighbours p j).1) ∧
    (Confusable p j (ratioNeighbours p j).2 → Settled p (ratioNeighbours p j).2))
    ⟨fun h => ⟨h.1, h.2.1, h.2.2.1, h.2.2.2.1, h.2.2.2.2.1, h.2.2.2.2.2⟩,
      fun h => ⟨h.neighbours, h.bound, h.low_le, h.high_le, h.low_settled, h.high_settled⟩⟩

theorem covered : ∀ n < 92, ∀ i < 4, Covered ((n : ℕ) - 53) (bits (n - 53) + 1 + (i : ℕ)) := by
  decide +kernel

/-! ### Near decimals -/

theorem ratio_eq (p j : ℤ) : (ratioNum p j : ℚ) / ratioDen p j = 10 ^ p / 2 ^ j := by
  have hpow (x : ℚ) (hx : x ≠ 0) (e : ℤ) : x ^ e = x ^ e.toNat / x ^ (-e).toNat := by
    rw [eq_div_iff (pow_ne_zero _ hx), ← zpow_natCast, ← zpow_natCast, ← zpow_add₀ hx]
    congr 1
    omega
  rw [hpow 10 (by norm_num) p, hpow 2 two_ne_zero j, ratioNum, ratioDen]
  push_cast
  field_simp

theorem ratioDen_pos (p j : ℤ) : 0 < ratioDen p j :=
  Nat.mul_pos (Nat.pow_pos (by decide)) (Nat.two_pow_pos _)

/-- A power of ten lies between two powers of two. -/
theorem two_pow_bits_le (p : ℤ) : (2 : ℚ) ^ bits p ≤ 10 ^ p ∧ (10 : ℚ) ^ p ≤ 2 ^ (bits p + 1) := by
  -- For powers of natural numbers this is the logarithm rounded down; the others are inverses of
  -- these.
  have hlog (n : ℕ) : (2 : ℚ) ^ (Nat.log2 (10 ^ n) : ℤ) ≤ 10 ^ (n : ℤ) ∧
      (10 : ℚ) ^ (n : ℤ) ≤ 2 ^ (Nat.log2 (10 ^ n) + 1 : ℤ) := by
    have hpos : 10 ^ n ≠ 0 := (Nat.pow_pos (by decide)).ne'
    have hle := Nat.log2_self_le hpos
    have hlt := (Nat.lt_log2_self (n := 10 ^ n)).le
    exact ⟨by exact_mod_cast hle, by exact_mod_cast hlt⟩
  unfold bits
  split
  · next hp =>
    have h := hlog p.toNat
    rwa [Int.toNat_of_nonneg hp] at h
  · next hp =>
    obtain ⟨hle, hlt⟩ := hlog (-p).toNat
    rw [Int.toNat_of_nonneg (by omega)] at hle hlt
    generalize (Nat.log2 (10 ^ (-p).toNat) : ℤ) = l at hle hlt
    rw [show (10 : ℚ) ^ p = (10 ^ (-p))⁻¹ by rw [zpow_neg, inv_inv],
      show -l - 1 = -(l + 1) by omega, show -(l + 1) + 1 = -l by omega, zpow_neg 2 (l + 1),
      zpow_neg 2 l]
    exact ⟨inv_anti₀ (by positivity) hlt, inv_anti₀ (by positivity) hle⟩

/-- Any number of bits can be filled up to so many. -/
theorem exists_filled {n c : ℕ} (hpos : 0 < n) (hlt : n < 2 ^ (c + 1)) :
    ∃ i ≤ c, 2 ^ c ≤ n * 2 ^ i ∧ n * 2 ^ i < 2 ^ (c + 1) := by
  have hlog := (Nat.log2_lt hpos.ne').mpr hlt
  obtain ⟨i, hi⟩ : ∃ i, n.log2 + i = c := ⟨c - n.log2, by omega⟩
  refine ⟨i, by omega, ?_, ?_⟩
  · rw [← hi, Nat.pow_add]
    exact Nat.mul_le_mul_right _ (Nat.log2_self_le hpos.ne')
  · rw [show c + 1 = n.log2 + 1 + i by omega, Nat.pow_add _ (n.log2 + 1)]
    exact Nat.mul_lt_mul_of_pos_right Nat.lt_log2_self (Nat.two_pow_pos i)

/-- A number is as near to another as reading in double precision brings it. -/
def Near (v w : ℚ) : Prop := |v - w| ≤ v / 2 ^ 52 + v / 2 ^ 104

theorem near_mul_iff {v w c : ℚ} (hc : 0 < c) : Near (v * c) (w * c) ↔ Near v w := by
  have hright : v * c / 2 ^ 52 + v * c / 2 ^ 104 = (v / 2 ^ 52 + v / 2 ^ 104) * c := by ring
  rw [Near, Near, ← sub_mul, abs_mul, abs_of_pos hc, hright, mul_le_mul_iff_left₀ hc]

/-- Numbers of 27 and of 25 bits that are near leave four powers of two for the ratio. -/
theorem exists_window {n m : ℕ} {p j : ℤ} (hn : 2 ^ 26 ≤ n) (hn' : n < 2 ^ 27) (hm : 2 ^ 24 ≤ m)
    (hm' : m < 2 ^ 25) (hnear : Near (n * (10 ^ p / 2 ^ j)) m) :
    ∃ i < 4, j = bits p + 1 + (i : ℕ) := by
  have hj : (0 : ℚ) < 2 ^ j := by positivity
  obtain ⟨hle, hlt⟩ := two_pow_bits_le p
  obtain ⟨hbelow, habove⟩ := abs_le.mp hnear
  have hnq : (2 : ℚ) ^ 26 ≤ n := by exact_mod_cast hn
  have hnq' : (n : ℚ) < 2 ^ 27 := by exact_mod_cast hn'
  have hmq : (2 : ℚ) ^ 24 ≤ m := by exact_mod_cast hm
  have hmq' : (m : ℚ) < 2 ^ 25 := by exact_mod_cast hm'
  have hratio : (0 : ℚ) < 10 ^ p / 2 ^ j := by positivity
  -- Both numbers are known up to a factor of two, so their ratio is known up to four of them.
  have hsmall : (10 : ℚ) ^ p / 2 ^ j < 1 := by
    by_contra hge
    have hmul : (2 : ℚ) ^ 26 * 1 ≤ n * (10 ^ p / 2 ^ j) :=
      mul_le_mul hnq (not_lt.mp hge) (by norm_num) (by linarith)
    linarith
  have hlarge : 1 / 16 < (10 : ℚ) ^ p / 2 ^ j := by
    by_contra hge
    have hmul : n * ((10 : ℚ) ^ p / 2 ^ j) ≤ 2 ^ 27 * (1 / 16) :=
      mul_le_mul hnq'.le (not_lt.mp hge) hratio.le (by norm_num)
    linarith
  rw [div_lt_one hj] at hsmall
  rw [lt_div_iff₀ hj] at hlarge
  have hlow : bits p < j := by
    rw [← zpow_lt_zpow_iff_right₀ (one_lt_two (α := ℚ))]
    linarith
  have hhigh : j < bits p + 5 := by
    rw [← zpow_lt_zpow_iff_right₀ (one_lt_two (α := ℚ)), show bits p + 5 = bits p + 1 + 4 by ring,
      zpow_add₀ two_ne_zero (bits p + 1)]
    norm_num
    linarith
  exact ⟨(j - bits p - 1).toNat, by omega, by omega⟩

/-- How far a multiple is off, as a whole number. -/
theorem near_iff_excess {n m : ℕ} {p j : ℤ} :
    Near (n * (10 ^ p / 2 ^ j)) m ↔ 2 ^ 104 * (excess (ratioNum p j) (ratioDen p j) n m).natAbs ≤
      n * ratioNum p j * (2 ^ 52 + 1) := by
  have hden : (0 : ℚ) < ratioDen p j := by exact_mod_cast ratioDen_pos p j
  have hexcess : ((excess (ratioNum p j) (ratioDen p j) n m : ℤ) : ℚ) =
      n * ratioNum p j - m * ratioDen p j := by
    unfold excess
    push_cast
    rfl
  have habs : (((excess (ratioNum p j) (ratioDen p j) n m).natAbs : ℕ) : ℚ) =
      |(n : ℚ) * ratioNum p j - m * ratioDen p j| := by
    rw [Nat.cast_natAbs, Int.cast_abs, hexcess]
  have hcast : 2 ^ 104 * (excess (ratioNum p j) (ratioDen p j) n m).natAbs ≤
      n * ratioNum p j * (2 ^ 52 + 1) ↔
      (2 : ℚ) ^ 104 * |(n : ℚ) * ratioNum p j - m * ratioDen p j| ≤
        n * ratioNum p j * (2 ^ 52 + 1) := by
    rw [← habs]
    exact_mod_cast Iff.rfl
  rw [hcast, ← near_mul_iff hden, ← ratio_eq, mul_assoc, div_mul_cancel₀ _ hden.ne', Near]
  constructor <;> intro h <;> linarith

/-- Numbers that are near are so near that only neighbours have multiples like them. -/
theorem excess_lt_of_near {n m : ℕ} {p j : ℤ} (hm : m < 2 ^ 25)
    (hnear : Near (n * (10 ^ p / 2 ^ j)) m) :
    (2 : ℤ) ^ 27 * |excess (ratioNum p j) (ratioDen p j) n m| < ratioDen p j := by
  have hden := ratioDen_pos p j
  rw [near_iff_excess] at hnear
  generalize ratioDen p j = b at *
  generalize ratioNum p j = a at *
  -- The number of 27 bits is not needed: its multiple is bounded by that of the other.
  have hclose : n * a ≤ m * b + (excess a b n m).natAbs := by
    unfold excess
    zify
    have hle := le_abs_self ((n : ℤ) * a - m * b)
    linarith
  have hm' : m * b ≤ (2 ^ 25 - 1) * b := Nat.mul_le_mul_right b (by omega)
  have hlt : 2 ^ 27 * (excess a b n m).natAbs < b := by omega
  zify at hlt
  exact hlt

/-- The decimals of a multiple of a neighbour. -/
theorem kept_of_multiple {f : ℕ × ℕ} {D i k m : ℕ} {p j : ℤ}
    (hsettled : Confusable p j f → Settled p f) (hn : D * 2 ^ i = k * f.1) (hm : m = k * f.2)
    (hi : i ≤ 26) (hlow : 2 ^ 26 ≤ D * 2 ^ i) (hhigh : D * 2 ^ i < 2 ^ 27) (hmlow : 2 ^ 24 ≤ m)
    (hmhigh : m < 2 ^ 25) (hne : excess (ratioNum p j) (ratioDen p j) (D * 2 ^ i) m ≠ 0)
    (hnear : Near ((D * 2 ^ i : ℕ) * (10 ^ p / 2 ^ j)) m) : Kept ⟨D, p⟩ := by
  have hk : 0 < k := by
    refine Nat.pos_of_ne_zero ?_
    rintro rfl
    omega
  rw [near_iff_excess] at hnear
  rw [hn] at hnear hne hlow hhigh
  rw [hm, excess_mul] at hnear hne
  -- A multiple is off by the multiple, so the fraction itself is as near in proportion.
  have hsmall : f.2 < 2 ^ 25 := lt_of_le_of_lt (Nat.le_mul_of_pos_left f.2 hk) (hm ▸ hmhigh)
  have hconfusable : Confusable p j f := by
    refine ⟨hsmall, right_ne_zero_of_mul hne, ?_⟩
    rw [Int.natAbs_mul, Int.natAbs_natCast] at hnear
    refine Nat.le_of_mul_le_mul_left ?_ hk
    linarith
  have hbound : k < 2 ^ 25 / f.2 + 1 := by
    have hpos : 0 < f.2 := Nat.pos_of_ne_zero (by rintro hzero; simp [hzero] at hm; omega)
    rw [Nat.lt_succ_iff, Nat.le_div_iff_mul_le hpos]
    omega
  have hkept := hsettled hconfusable k hbound ⟨hlow, hhigh, hm ▸ hmlow⟩ i (by omega)
  rw [← hn, Nat.mul_mod_left, Nat.mul_div_left D (Nat.two_pow_pos i)] at hkept
  exact hkept rfl

/-- What is near a number of 25 bits is the number, or is read one by one. -/
theorem eq_or_kept_of_near {D m : ℕ} {p k : ℤ} (hp : -53 ≤ p) (hp' : p ≤ 38) (hD : 0 < D)
    (hD' : D < 2 ^ 27) (hm : 0 < m) (hm' : m < 2 ^ 25) (hnear : Near (D * 10 ^ p) (m * 2 ^ k)) :
    (D : ℚ) * 10 ^ p = m * 2 ^ k ∨ Kept ⟨D, p⟩ := by
  -- Both are filled up with zeros, and the ratio takes what is left of the powers of two.
  obtain ⟨i, hi, hn, hn'⟩ := exists_filled hD hD'
  obtain ⟨r, -, hmr, hmr'⟩ := exists_filled hm hm'
  set j := k - r + i with hj
  have hscale : (0 : ℚ) < 2 ^ (i - j) := by positivity
  have hvalue : (D : ℚ) * 10 ^ p * 2 ^ (i - j) = (D * 2 ^ i : ℕ) * (10 ^ p / 2 ^ j) := by
    rw [zpow_sub₀ two_ne_zero, zpow_natCast]
    push_cast
    ring
  have hend : (m : ℚ) * 2 ^ k * 2 ^ (i - j) = (m * 2 ^ r : ℕ) := by
    rw [mul_assoc, ← zpow_add₀ two_ne_zero, show k + (i - j) = (r : ℤ) by omega, zpow_natCast]
    push_cast
    rfl
  have hnear' : Near ((D * 2 ^ i : ℕ) * (10 ^ p / 2 ^ j)) (m * 2 ^ r : ℕ) := by
    rw [← hvalue, ← hend, near_mul_iff hscale]
    exact hnear
  obtain ⟨w, hw, hjw⟩ := exists_window hn hn' hmr hmr' hnear'
  have hcovered := covered (p + 53).toNat (by omega) w hw
  rw [show ((p + 53).toNat : ℤ) - 53 = p by omega, ← hjw] at hcovered
  by_cases hzero : excess (ratioNum p j) (ratioDen p j) (D * 2 ^ i) (m * 2 ^ r) = 0
  · left
    have hden : (0 : ℚ) < ratioDen p j := by exact_mod_cast ratioDen_pos p j
    have hequal : ((D * 2 ^ i : ℕ) : ℚ) * ratioNum p j = (m * 2 ^ r : ℕ) * ratioDen p j := by
      exact_mod_cast sub_eq_zero.mp hzero
    rw [← mul_left_inj' hscale.ne', hvalue, hend, ← ratio_eq, mul_div_assoc', hequal,
      mul_div_cancel_right₀ _ hden.ne']
  · right
    have hfar := excess_lt_of_near hmr' hnear'
    obtain hle | ⟨f, hf, hf'⟩ | ⟨f, hf, hf'⟩ := hcovered.neighbours.le_excess_or (m := m * 2 ^ r)
      hcovered.bound hcovered.low_le hcovered.high_le (Nat.mul_pos hD (Nat.two_pow_pos i)) hn'
    · push_cast at hle
      omega
    · exact kept_of_multiple hcovered.low_settled hf hf' hi hn hn' hmr hmr' hzero hnear'
    · exact kept_of_multiple hcovered.high_settled hf hf' hi hn hn' hmr hmr' hzero hnear'

end Decimal

end LayerGraph
