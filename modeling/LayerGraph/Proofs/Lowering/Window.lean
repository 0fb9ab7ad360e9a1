import LayerGraph.Lowering.Window
import Mathlib.Algebra.Order.Floor.Ring
import Mathlib.Algebra.Order.Archimedean.Basic
import Mathlib.Data.Rat.Floor
import Mathlib.Tactic.Linarith

/-! # Windows that fit

  A window of some extent is laid over a dimension again and again, each time one stride further.
  The rule `same` asks for as many windows as strides fit in the dimension, rounded up. Main
  statement: it pads by what is missing for so many windows, which is the least padding that makes
  room for them, and it gives up exactly when a size on the way does not fit in 32 bits
  (`padding?_same_spec`).
-/

namespace LayerGraph

namespace Windows

variable (input kernel stride dilation : UInt32)

/-! ### Sizes as integers -/

/-- Distance from one window to the next; windows that do not move are moved by one. -/
def distance : ℤ := max (stride.toNat : ℤ) 1

/-- Distance from the first to the last element of a window, both counted. -/
def extent : ℤ :=
  (max (dilation.toNat : ℤ) 1 - 1) * (max (kernel.toNat : ℤ) 1 - 1) + kernel.toNat

/-- Number of strides that fit in the dimension, a part of one counted as one. -/
def strides : ℤ := ⌈(input.toNat : ℚ) / distance stride⌉

/-- Distance from the first element of the first window to the last one of the last window. -/
def covered : ℤ := (max (strides input stride) 1 - 1) * distance stride + extent kernel dilation

/-- Number of windows that lie in a dimension of size `size`. -/
def positions (size : ℤ) : ℤ := (size - extent kernel dilation) / distance stride + 1

variable {input kernel stride dilation}

/-! ### What is computed -/

theorem distance_pos : 0 < distance stride := by
  unfold distance
  omega

/-- The number of strides is the number whose product with the stride is the first to reach the
    size. -/
theorem strides_bounds (input stride : UInt32) :
    (strides input stride - 1) * distance stride < input.toNat ∧
      (input.toNat : ℤ) ≤ strides input stride * distance stride := by
  have hpos : (0 : ℚ) < distance stride := by exact_mod_cast distance_pos
  obtain ⟨hlt, hle⟩ := Int.ceil_eq_iff.mp (rfl : strides input stride = strides input stride)
  rw [lt_div_iff₀ hpos] at hlt
  rw [div_le_iff₀ hpos] at hle
  exact ⟨by exact_mod_cast hlt, by exact_mod_cast hle⟩

theorem eq_strides {n : ℤ} (hlt : (n - 1) * distance stride < input.toNat)
    (hle : (input.toNat : ℤ) ≤ n * distance stride) : n = strides input stride := by
  have hpos : (0 : ℚ) < distance stride := by exact_mod_cast distance_pos
  refine (Int.ceil_eq_iff.mpr ⟨?_, ?_⟩).symm
  · rw [lt_div_iff₀ hpos]
    exact_mod_cast hlt
  · rw [div_le_iff₀ hpos]
    exact_mod_cast hle

/-- Division rounded up, as a quotient of naturals. -/
theorem ceilDiv_eq_strides (input stride : UInt32) :
    (((input.toNat + max stride.toNat 1 - 1) / max stride.toNat 1 : ℕ) : ℤ) =
      strides input stride := by
  have hpos : 0 < max stride.toNat 1 := by omega
  have hdistance : distance stride = (max stride.toNat 1 : ℕ) := by
    unfold distance
    omega
  generalize max stride.toNat 1 = s at *
  have hle := Nat.div_mul_le_self (input.toNat + s - 1) s
  have hlt := Nat.lt_div_mul_add hpos (a := input.toNat + s - 1)
  generalize (input.toNat + s - 1) / s = n at *
  apply eq_strides
  · rw [hdistance, sub_one_mul]
    have hle' : ((n * s : ℕ) : ℤ) ≤ (input.toNat + s - 1 : ℕ) := by exact_mod_cast hle
    push_cast at hle'
    omega
  · rw [hdistance]
    have hle' : input.toNat ≤ n * s := by omega
    exact_mod_cast hle'

theorem windowExtent_eq (kernel dilation : UInt32) :
    (windowExtent kernel.toNat dilation.toNat : ℤ) = extent kernel dilation := by
  have hdilation : ((max dilation.toNat 1 - 1 : ℕ) : ℤ) = max (dilation.toNat : ℤ) 1 - 1 := by omega
  have hkernel : ((max kernel.toNat 1 - 1 : ℕ) : ℤ) = max (kernel.toNat : ℤ) 1 - 1 := by omega
  unfold windowExtent extent
  push_cast [hdilation, hkernel]
  rfl

theorem covered_eq (kernel dilation : UInt32) {n : ℕ} (hn : (n : ℤ) = strides input stride) :
    (((max n 1 - 1) * max stride.toNat 1 + windowExtent kernel.toNat dilation.toNat : ℕ) : ℤ) =
      covered input kernel stride dilation := by
  have hcount : ((max n 1 - 1 : ℕ) : ℤ) = max (strides input stride) 1 - 1 := by
    rw [← hn]
    omega
  have hdistance : ((max stride.toNat 1 : ℕ) : ℤ) = distance stride := by
    unfold distance
    omega
  rw [covered, ← windowExtent_eq, ← hdistance, ← hcount]
  push_cast
  rfl

/-- The rule `same` in integers: half of what is missing on each side, the larger one behind. -/
theorem padding?_same :
    padding? input kernel stride dilation .same =
      if extent kernel dilation < 2 ^ 32 ∧ covered input kernel stride dilation < 2 ^ 32 then
        some (.ofNat ((covered input kernel stride dilation - input.toNat).toNat / 2),
          .ofNat ((covered input kernel stride dilation - input.toNat).toNat -
            (covered input kernel stride dilation - input.toNat).toNat / 2))
      else none := by
  unfold padding?
  dsimp only
  have hcovered := covered_eq kernel dilation (ceilDiv_eq_strides input stride)
  have hextent := windowExtent_eq kernel dilation
  generalize (max ((input.toNat + max stride.toNat 1 - 1) / max stride.toNat 1) 1 - 1) *
    max stride.toNat 1 + windowExtent kernel.toNat dilation.toNat = e at *
  generalize windowExtent kernel.toNat dilation.toNat = d at *
  rw [← hcovered, ← hextent]
  have htotal : ((e : ℤ) - input.toNat).toNat = e - input.toNat := by omega
  have hfits : (d < dimLimit ∧ e < dimLimit) ↔ ((d : ℤ) < 2 ^ 32 ∧ (e : ℤ) < 2 ^ 32) := by
    unfold dimLimit
    omega
  rw [htotal]
  exact if_congr hfits rfl rfl

/-! ### Windows in the padded dimension -/

/-- Something fits in a dimension that is not empty. -/
theorem one_le_strides (hinput : 0 < input.toNat) : 1 ≤ strides input stride := by
  obtain ⟨-, hle⟩ := strides_bounds input stride
  by_contra hlt
  have hnonpos : strides input stride * distance stride ≤ 0 :=
    mul_nonpos_of_nonpos_of_nonneg (by omega) distance_pos.le
  omega

/-- A window of at least one element has an extent. -/
theorem extent_pos (dilation : UInt32) (hkernel : 0 < kernel.toNat) :
    0 < extent kernel dilation := by
  have hmul : 0 ≤ (max (dilation.toNat : ℤ) 1 - 1) * (max (kernel.toNat : ℤ) 1 - 1) :=
    mul_nonneg (by omega) (by omega)
  unfold extent
  omega

/-- The last window of the covered distance starts where the strides before it end. -/
theorem positions_covered (hinput : 0 < input.toNat) :
    positions kernel stride dilation (covered input kernel stride dilation) =
      strides input stride := by
  unfold positions covered
  rw [add_sub_cancel_right, Int.mul_ediv_cancel _ distance_pos.ne',
    max_eq_left (one_le_strides hinput), sub_add_cancel]

/-- A dimension that is larger than what is covered has as many windows all the same. -/
theorem positions_of_covered_le (hinput : 0 < input.toNat) (hkernel : 0 < kernel.toNat)
    (hlarge : covered input kernel stride dilation ≤ input.toNat) :
    positions kernel stride dilation input.toNat = strides input stride := by
  have hextent := extent_pos dilation hkernel
  obtain ⟨-, hle⟩ := strides_bounds input stride
  rw [covered, max_eq_left (one_le_strides hinput)] at hlarge
  have hquotient : (input.toNat - extent kernel dilation) / distance stride =
      strides input stride - 1 := by
    rw [Int.ediv_eq_iff_of_pos distance_pos, sub_one_mul]
    rw [sub_one_mul] at hlarge
    constructor <;> linarith
  rw [positions, hquotient, sub_add_cancel]

/-- A dimension that is smaller than what is covered has fewer windows. -/
theorem positions_lt {size : ℤ} (hinput : 0 < input.toNat)
    (hsize : size < covered input kernel stride dilation) :
    positions kernel stride dilation size < strides input stride := by
  rw [covered, max_eq_left (one_le_strides hinput)] at hsize
  have hquotient : (size - extent kernel dilation) / distance stride <
      strides input stride - 1 := by
    rw [Int.ediv_lt_iff_lt_mul distance_pos]
    linarith
  unfold positions
  linarith

/-- Nothing but the window itself is covered when there is no stride. -/
theorem covered_of_empty (hinput : input.toNat = 0) :
    covered input kernel stride dilation = extent kernel dilation := by
  have hstrides : strides input stride = 0 := by
    unfold strides
    rw [hinput, Nat.cast_zero, zero_div, Int.ceil_zero]
  rw [covered, hstrides]
  simp

/-- The rule `same` adds what is missing for one window at each stride, halved with the larger half
    behind, and gives up exactly when a size does not fit in 32 bits. In a dimension that is not
    empty there is then one window for each stride, and less padding makes room for fewer. -/
theorem padding?_same_spec (input kernel stride dilation : UInt32) :
    (padding? input kernel stride dilation .same = none ↔
      2 ^ 32 ≤ extent kernel dilation ∨ 2 ^ 32 ≤ covered input kernel stride dilation) ∧
    ∀ front back, padding? input kernel stride dilation .same = some (front, back) →
      (front.toNat + back.toNat : ℤ) =
          max 0 (covered input kernel stride dilation - input.toNat) ∧
        0 ≤ (back.toNat : ℤ) - front.toNat ∧ (back.toNat : ℤ) - front.toNat ≤ 1 ∧
        (0 < input → 0 < kernel →
          positions kernel stride dilation (input.toNat + front.toNat + back.toNat) =
            strides input stride) ∧
        (0 < front.toNat + back.toNat → ∀ total : ℤ, total < front.toNat + back.toNat →
          extent kernel dilation ≤ input.toNat + total →
          positions kernel stride dilation (input.toNat + total) < strides input stride) := by
  rw [padding?_same]
  constructor
  · split_ifs with hfits
    · simp only [false_iff]
      omega
    · simp only [true_iff]
      omega
  · intro front back h
    split_ifs at h with hfits
    generalize hmissing : (covered input kernel stride dilation - input.toNat).toNat = missing at h
    have hfront : missing / 2 < UInt32.size := by
      show missing / 2 < 2 ^ 32
      omega
    have hback : missing - missing / 2 < UInt32.size := by
      show missing - missing / 2 < 2 ^ 32
      omega
    obtain ⟨rfl, rfl⟩ := Prod.mk.inj (Option.some.inj h)
    rw [UInt32.toNat_ofNat_of_lt' hfront, UInt32.toNat_ofNat_of_lt' hback]
    have hsum : ((missing / 2 : ℕ) : ℤ) + (missing - missing / 2 : ℕ) = missing := by omega
    refine ⟨by omega, by omega, by omega, ?_, ?_⟩
    · intro hinput hkernel
      rw [add_assoc, hsum]
      -- Either the padded size is what is covered, or nothing is missing.
      obtain hle | hlt := le_or_gt (covered input kernel stride dilation) input.toNat
      · obtain rfl : missing = 0 := by omega
        simpa using positions_of_covered_le hinput hkernel hle
      · rw [show (input.toNat + missing : ℤ) = covered input kernel stride dilation by omega]
        exact positions_covered hinput
    · intro hpadded total htotal hextent
      have hsize : input.toNat + total < covered input kernel stride dilation := by omega
      obtain hempty | hinput := Nat.eq_zero_or_pos input.toNat
      · rw [covered_of_empty hempty] at hsize
        omega
      · exact positions_lt hinput hsize

/-- Seven elements, windows of three and a stride of two: four windows, with one element added on
    each side. -/
theorem padding?_same_spec_oddInput :
    padding? 7 3 2 1 .same = some (1, 1) ∧ strides 7 2 = 4 ∧
      positions 3 2 1 (7 + 1 + 1) = 4 ∧ positions 3 2 1 (7 + 1) < 4 := by
  have hpadding : padding? 7 3 2 1 .same = some (1, 1) := by decide
  have hstrides : strides 7 2 = 4 := by
    rw [← eq_strides (n := 4)] <;> decide
  obtain ⟨-, hspec⟩ := padding?_same_spec 7 3 2 1
  obtain ⟨-, -, -, hwindows, hleast⟩ := hspec 1 1 hpadding
  refine ⟨hpadding, hstrides, ?_, ?_⟩
  · rw [← hstrides]
    exact hwindows (by decide) (by decide)
  · rw [← hstrides]
    exact hleast (by decide) 1 (by decide) (by decide)

end Windows

end LayerGraph
