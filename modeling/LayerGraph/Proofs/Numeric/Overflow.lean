import LayerGraph.Numeric.Overflow
import LayerGraph.Proofs.Outcome
import Mathlib.Algebra.Order.BigOperators.Group.List

/-! # Numbers that fit

  An operation on integers of a fixed number of bits gives the number that it gives over the
  integers, or stops. So what was computed is exact, and the program stops exactly when the exact
  number needs more bits. For the sum of many integers this is asked of all its partial sums.
-/

namespace LayerGraph

variable {a b c : Int} {s t u : UInt32} {m n k : Nat} {e : Overflow} {values : List Int}

/-! ### Signed integers -/

theorem addInt64_eq_ok_iff :
    addInt64 a b = .ok c ↔ (-2 ^ 63 ≤ a + b ∧ a + b < 2 ^ 63) ∧ a + b = c := by
  unfold addInt64
  split <;> simp_all

theorem addInt64_eq_error_iff :
    addInt64 a b = .error e ↔ ¬ (-2 ^ 63 ≤ a + b ∧ a + b < 2 ^ 63) ∧ .add = e := by
  unfold addInt64
  split <;> simp_all

theorem subtractInt32_eq_error_iff :
    subtractInt32 a b = .error e ↔ ¬ (-2 ^ 31 ≤ a - b ∧ a - b < 2 ^ 31) ∧ .subtract = e := by
  unfold subtractInt32
  split <;> simp_all

/-- All partial sums, from the first integer on, have 64 bits. -/
def SumsFit (values : List Int) : Prop :=
  ∀ k, -2 ^ 63 ≤ (values.take k).sum ∧ (values.take k).sum < 2 ^ 63

/-- With one integer more at the end there is one partial sum more. -/
theorem sumsFit_concat_iff :
    SumsFit (values ++ [a]) ↔
      SumsFit values ∧ -2 ^ 63 ≤ values.sum + a ∧ values.sum + a < 2 ^ 63 := by
  constructor
  · intro h
    constructor
    · intro k
      by_cases hk : k ≤ values.length
      · have hfits := h k
        rwa [List.take_append_of_le_length hk] at hfits
      · have hfits := h values.length
        rwa [List.take_append_of_le_length (Nat.le_refl _), List.take_length,
          ← List.take_of_length_le (Nat.le_of_not_le hk)] at hfits
    · have hfits := h (values.length + 1)
      rwa [List.take_of_length_le (by simp), List.sum_append, List.sum_singleton] at hfits
  · rintro ⟨hbefore, hlast⟩ k
    by_cases hk : k ≤ values.length
    · rw [List.take_append_of_le_length hk]
      exact hbefore k
    · rw [List.take_of_length_le (by simp; omega), List.sum_append, List.sum_singleton]
      exact hlast

theorem sumInt64_eq_ok_iff : sumInt64 values = .ok c ↔ SumsFit values ∧ values.sum = c := by
  unfold sumInt64
  induction values using List.reverseRecOn generalizing c with
  | nil => simp [SumsFit, pure, Except.pure]
  | append_singleton values a ih =>
    rw [List.foldlM_append, Except.bind_eq_ok_iff, sumsFit_concat_iff, List.sum_append,
      List.sum_singleton]
    simp only [List.foldlM_cons, List.foldlM_nil, bind_pure, ih, addInt64_eq_ok_iff]
    constructor
    · rintro ⟨_, ⟨hbefore, rfl⟩, hlast, hc⟩
      exact ⟨⟨hbefore, hlast⟩, hc⟩
    · rintro ⟨⟨hbefore, hlast⟩, hc⟩
      exact ⟨_, ⟨hbefore, rfl⟩, hlast, hc⟩

/-- The sum stops when a partial sum needs more bits. -/
theorem sumInt64_eq_error_iff : sumInt64 values = .error e ↔ ¬ SumsFit values ∧ .add = e := by
  cases hsum : sumInt64 values with
  | ok c => simp [(sumInt64_eq_ok_iff.mp hsum).1]
  | error e' =>
    obtain ⟨done, a, after, c, -, -, hstep⟩ := Except.foldlM_eq_error_iff.mp hsum
    obtain ⟨-, rfl⟩ := addInt64_eq_error_iff.mp hstep
    have hfits : ¬ SumsFit values := by
      intro hfits
      rw [sumInt64_eq_ok_iff.mpr ⟨hfits, rfl⟩] at hsum
      cases hsum
    simp [hfits]

/-- Of integers that are not negative the whole sum is the greatest of all. -/
theorem sumsFit_iff_of_nonneg (hnonneg : ∀ v ∈ values, 0 ≤ v) :
    SumsFit values ↔ values.sum < 2 ^ 63 := by
  constructor
  · intro h
    have hall := (h values.length).2
    rwa [List.take_length] at hall
  · intro h k
    have htake : 0 ≤ (values.take k).sum :=
      List.sum_nonneg fun v hv => hnonneg v (List.mem_of_mem_take hv)
    have hdrop : 0 ≤ (values.drop k).sum :=
      List.sum_nonneg fun v hv => hnonneg v (List.mem_of_mem_drop hv)
    have hsplit : (values.take k).sum + (values.drop k).sum = values.sum :=
      List.sum_take_add_sum_drop values k
    omega

/-! ### Sizes -/

theorem addSizes_eq_error_iff :
    addSizes s t = .error e ↔ 2 ^ 32 ≤ s.toNat + t.toNat ∧ .add = e := by
  unfold addSizes
  split
  · next h => exact iff_of_false nofun fun hover => Nat.not_lt.mpr hover.1 h
  · next h => rw [Except.error.injEq, and_iff_right (Nat.le_of_not_lt h)]

theorem multiplySizes_eq_ok_iff :
    multiplySizes s t = .ok u ↔ s.toNat * t.toNat < 2 ^ 32 ∧ u.toNat = s.toNat * t.toNat := by
  unfold multiplySizes
  split
  · next h =>
    have hproduct : (s * t).toNat = s.toNat * t.toNat := by
      rw [UInt32.toNat_mul, Nat.mod_eq_of_lt h]
    rw [Except.ok.injEq, and_iff_right h, ← hproduct, UInt32.toNat_inj]
    exact eq_comm
  · next h => exact iff_of_false nofun fun hfits => h hfits.1

theorem multiplyCounts_eq_ok_iff : multiplyCounts m n = .ok k ↔ m * n < 2 ^ 64 ∧ m * n = k := by
  unfold multiplyCounts
  split <;> simp_all

end LayerGraph
