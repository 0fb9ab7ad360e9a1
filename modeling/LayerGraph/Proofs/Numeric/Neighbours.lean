import Mathlib.Algebra.Order.Ring.Abs
import Mathlib.Tactic.Linarith
import Mathlib.Tactic.LinearCombination
import Mathlib.Tactic.Ring

/-! # Fractions next to a ratio

  How near can a multiple of `a` come to a multiple of `b`? Two fractions that are neighbours, one
  on each side of the ratio `a / b`, answer this for all multiples up to a bound: every other pair
  of multiples is a combination of those two, and a combination that uses both of them is either
  beyond the bound or as far off as the two together. So only multiples of the neighbours
  themselves can be nearer.

  The neighbours are found by going from one fraction to the next on either side. Nothing is proved
  about the search, since what it finds is easy to check (`Neighbours`).
-/

namespace LayerGraph

/-- By how much `n` times `a` is more than `m` times `b`. -/
def excess (a b : ℕ) (n m : ℕ) : ℤ := n * a - m * b

theorem excess_mul (a b k n m : ℕ) : excess a b (k * n) (k * m) = k * excess a b n m := by
  unfold excess
  push_cast
  ring

/-- Two fractions, a denominator with its numerator each, that have the ratio `a / b` between them
    and nothing of a smaller denominator. -/
structure Neighbours (a b : ℕ) (low high : ℕ × ℕ) : Prop where
  /-- They are next to each other. -/
  det : low.1 * high.2 = high.1 * low.2 + 1
  /-- The first is not above the ratio. -/
  low_le : low.2 * b ≤ low.1 * a
  /-- The second is not below it. -/
  le_high : high.1 * a ≤ high.2 * b

instance (a b : ℕ) (low high : ℕ × ℕ) : Decidable (Neighbours a b low high) :=
  decidable_of_iff (low.1 * high.2 = high.1 * low.2 + 1 ∧ low.2 * b ≤ low.1 * a ∧
      high.1 * a ≤ high.2 * b)
    ⟨fun h => ⟨h.1, h.2.1, h.2.2⟩, fun h => ⟨h.det, h.low_le, h.le_high⟩⟩

/-- Goes from one pair of fractions to the next below a bound, on the side that is further off as
    many times as it stays there. -/
def neighboursFrom (a b bound : ℕ) : ℕ → ℕ × ℕ → ℕ × ℕ → (ℕ × ℕ) × (ℕ × ℕ)
  | 0, low, high => (low, high)
  | fuel + 1, low, high =>
    let ahead := low.1 * a - low.2 * b
    let behind := high.2 * b - high.1 * a
    if bound ≤ low.1 + high.1 ∨ ahead = 0 ∨ behind = 0 then (low, high)
    else if behind ≤ ahead then
      let steps := min (ahead / behind) ((bound - 1 - low.1) / high.1)
      let steps := if high.1 = 0 then ahead / behind else steps
      neighboursFrom a b bound fuel (low.1 + steps * high.1, low.2 + steps * high.2) high
    else
      let steps := min (behind / ahead) ((bound - 1 - high.1) / low.1)
      neighboursFrom a b bound fuel low (high.1 + steps * low.1, high.2 + steps * low.2)

namespace Neighbours

variable {a b : ℕ} {low high : ℕ × ℕ}

theorem excess_low_nonneg (h : Neighbours a b low high) : 0 ≤ excess a b low.1 low.2 := by
  have hle : (low.2 * b : ℤ) ≤ low.1 * a := by exact_mod_cast h.low_le
  unfold excess
  omega

theorem excess_high_nonpos (h : Neighbours a b low high) : excess a b high.1 high.2 ≤ 0 := by
  have hle : (high.1 * a : ℤ) ≤ high.2 * b := by exact_mod_cast h.le_high
  unfold excess
  omega

/-- What both are off by, weighted. -/
theorem excess_eq (h : Neighbours a b low high) :
    high.1 * excess a b low.1 low.2 - low.1 * excess a b high.1 high.2 = b := by
  have hdet : (low.1 * high.2 : ℤ) = high.1 * low.2 + 1 := by exact_mod_cast h.det
  unfold excess
  linear_combination (b : ℤ) * hdet

/-- Every fraction is a combination of the two. -/
theorem exists_combination (h : Neighbours a b low high) (n m : ℕ) :
    ∃ s t : ℤ, (n : ℤ) = s * low.1 + t * high.1 ∧ (m : ℤ) = s * low.2 + t * high.2 ∧
      excess a b n m = s * excess a b low.1 low.2 + t * excess a b high.1 high.2 := by
  have hdet : (low.1 * high.2 : ℤ) = high.1 * low.2 + 1 := by exact_mod_cast h.det
  have hn : (n : ℤ) = (n * high.2 - m * high.1) * low.1 + (m * low.1 - n * low.2) * high.1 := by
    linear_combination (-n : ℤ) * hdet
  have hm : (m : ℤ) = (n * high.2 - m * high.1) * low.2 + (m * low.1 - n * low.2) * high.2 := by
    linear_combination (-m : ℤ) * hdet
  refine ⟨_, _, hn, hm, ?_⟩
  unfold excess
  linear_combination (a : ℤ) * hn - (b : ℤ) * hm

/-- A multiple other than zero is as far off as the number itself. -/
theorem abs_le_abs_mul {s : ℤ} (hs : s ≠ 0) (x : ℤ) : |x| ≤ |s * x| := by
  rw [abs_mul]
  exact le_mul_of_one_le_left (abs_nonneg x) (Int.one_le_abs hs)

/-- A difference that counts both numbers is as far off as the two together. -/
theorem sub_le_abs {s t x y : ℤ} (hx : 0 ≤ x) (hy : y ≤ 0)
    (hsign : (0 < s ∧ t < 0) ∨ (s < 0 ∧ 0 < t)) : x - y ≤ |s * x + t * y| := by
  obtain ⟨hs, ht⟩ | ⟨hs, ht⟩ := hsign
  · refine le_trans ?_ (le_abs_self _)
    nlinarith
  · refine le_trans ?_ (neg_le_abs _)
    nlinarith

/-- A multiple of a fraction with a positive denominator is so often the fraction. -/
theorem exists_multiple {n m : ℕ} {s : ℤ} {f : ℕ × ℕ} (hpos : 0 < n) (hn : (n : ℤ) = s * f.1)
    (hm : (m : ℤ) = s * f.2) : ∃ k : ℕ, n = k * f.1 ∧ m = k * f.2 := by
  have hs : 0 ≤ s := by
    by_contra hneg
    have hle : s * f.1 ≤ 0 := mul_nonpos_of_nonpos_of_nonneg (by omega) (Int.natCast_nonneg _)
    omega
  lift s to ℕ using hs
  exact ⟨s, by exact_mod_cast hn, by exact_mod_cast hm⟩

/-- Multiples below the bound are no nearer than the bound lets them be, unless they are multiples
    of one of the two fractions. -/
theorem le_excess_or (h : Neighbours a b low high) {bound : ℕ}
    (hbound : bound ≤ low.1 + high.1 ∨ excess a b low.1 low.2 = 0 ∨ excess a b high.1 high.2 = 0)
    (hlow : low.1 ≤ bound) (hhigh : high.1 ≤ bound) {n m : ℕ} (hpos : 0 < n) (hn : n < bound) :
    (b : ℤ) ≤ bound * |excess a b n m| ∨ (∃ k, n = k * low.1 ∧ m = k * low.2) ∨
      ∃ k, n = k * high.1 ∧ m = k * high.2 := by
  obtain ⟨s, t, hns, hms, hexcess⟩ := h.exists_combination n m
  by_cases hs : s = 0
  · right; right
    rw [hs, zero_mul, zero_add] at hns hms
    exact exists_multiple hpos hns hms
  by_cases ht : t = 0
  · right; left
    rw [ht, zero_mul, add_zero] at hns hms
    exact exists_multiple hpos hns hms
  left
  have hx := h.excess_low_nonneg
  have hy := h.excess_high_nonpos
  have hfar : excess a b low.1 low.2 - excess a b high.1 high.2 ≤ |excess a b n m| := by
    rw [hexcess]
    obtain hfull | hzero | hzero := hbound
    · -- A sum that counts both is beyond the bound.
      refine sub_le_abs hx hy ?_
      have hlt : s * low.1 + t * high.1 < low.1 + high.1 := by omega
      have hgt : 0 < s * low.1 + t * high.1 := by omega
      rcases lt_or_gt_of_ne hs with hs | hs <;> rcases lt_or_gt_of_ne ht with ht | ht
      · nlinarith
      · exact .inr ⟨hs, ht⟩
      · exact .inl ⟨hs, ht⟩
      · nlinarith
    · have hmul := abs_le_abs_mul ht (excess a b high.1 high.2)
      rw [abs_of_nonpos hy] at hmul
      rwa [hzero, mul_zero, zero_add, zero_sub]
    · have hmul := abs_le_abs_mul hs (excess a b low.1 low.2)
      rw [abs_of_nonneg hx] at hmul
      rwa [hzero, mul_zero, add_zero, sub_zero]
  have hlow' : (low.1 : ℤ) ≤ bound := by exact_mod_cast hlow
  have hhigh' : (high.1 : ℤ) ≤ bound := by exact_mod_cast hhigh
  calc (b : ℤ) = high.1 * excess a b low.1 low.2 - low.1 * excess a b high.1 high.2 :=
        h.excess_eq.symm
    _ ≤ bound * excess a b low.1 low.2 - bound * excess a b high.1 high.2 := by
        have hleft := mul_le_mul_of_nonneg_right hhigh' hx
        have hright := mul_le_mul_of_nonpos_right hlow' hy
        linarith
    _ = bound * (excess a b low.1 low.2 - excess a b high.1 high.2) := (mul_sub ..).symm
    _ ≤ bound * |excess a b n m| := mul_le_mul_of_nonneg_left hfar (Int.natCast_nonneg bound)

end Neighbours

end LayerGraph
