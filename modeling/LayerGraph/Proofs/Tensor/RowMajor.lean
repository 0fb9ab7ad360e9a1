import LayerGraph.Proofs.Numeric.Overflow
import LayerGraph.Tensor.Permutation
import Mathlib.Algebra.BigOperators.Group.List.Basic
import Mathlib.Algebra.Order.BigOperators.GroupWithZero.List
import Mathlib.Algebra.Order.Ring.Nat
import Mathlib.Data.List.Forall2

/-! # Row-major order

  Positions in a payload and coordinates in the box of the sizes are two names of the same cells:
  `rowMajorIndex` and `rowMajorCoordinates` undo each other, for boxes of any rank and also when a
  size is one.

  An odometer counts the coordinates up, the last one first, with a carry when one has reached its
  size. It visits the coordinates of the positions one after the other (`tick_rowMajorCoordinates`).
  The position of coordinates is also the sum of each coordinate times the stride of its dimension
  (`sum_strides`). A stride is the product of the sizes behind its dimension, and all of them are
  numbers of 64 bits when strides are computed (`stridesOf_eq_ok_iff`).
-/

namespace LayerGraph

/-- Each coordinate is below the size of its dimension. -/
def InBox (dims coordinates : List Nat) : Prop := List.Forall₂ (· < ·) coordinates dims

variable {dims coordinates : List Nat} {index : Nat}

theorem InBox.length_eq (h : InBox dims coordinates) : coordinates.length = dims.length :=
  List.Forall₂.length_eq h

/-! ### Positions and coordinates -/

theorem rowMajorIndex_lt (h : InBox dims coordinates) :
    rowMajorIndex dims coordinates < dims.prod := by
  induction h with
  | nil => simp [rowMajorIndex]
  | @cons c d cs ds hc _ ih =>
    rw [rowMajorIndex, List.prod_cons]
    calc c * ds.prod + rowMajorIndex ds cs < c * ds.prod + ds.prod := Nat.add_lt_add_left ih _
      _ = (c + 1) * ds.prod := (Nat.succ_mul c ds.prod).symm
      _ ≤ d * ds.prod := Nat.mul_le_mul_right ds.prod hc

@[simp] theorem length_rowMajorCoordinates (dims : List Nat) (index : Nat) :
    (rowMajorCoordinates dims index).length = dims.length := by
  induction dims generalizing index with
  | nil => rfl
  | cons d ds ih => rw [rowMajorCoordinates, List.length_cons, ih, List.length_cons]

theorem inBox_rowMajorCoordinates (h : index < dims.prod) :
    InBox dims (rowMajorCoordinates dims index) := by
  induction dims generalizing index with
  | nil => exact .nil
  | cons d ds ih =>
    rw [List.prod_cons] at h
    have hpos : 0 < ds.prod := Nat.pos_of_mul_pos_left (Nat.zero_lt_of_lt h)
    exact .cons (Nat.div_lt_of_lt_mul (by rwa [Nat.mul_comm])) (ih (Nat.mod_lt index hpos))

/-- The coordinates of a position are at that position. -/
theorem rowMajorIndex_rowMajorCoordinates (h : index < dims.prod) :
    rowMajorIndex dims (rowMajorCoordinates dims index) = index := by
  induction dims generalizing index with
  | nil =>
    have hzero : index = 0 := by simpa using h
    rw [hzero]
    rfl
  | cons d ds ih =>
    rw [List.prod_cons] at h
    have hpos : 0 < ds.prod := Nat.pos_of_mul_pos_left (Nat.zero_lt_of_lt h)
    rw [rowMajorCoordinates, rowMajorIndex, ih (Nat.mod_lt index hpos), Nat.div_add_mod']

/-- The outermost coordinate counts the inner boxes before a position. -/
theorem rowMajorCoordinates_cons {inner : Nat} (d outer : Nat) (h : inner < dims.prod) :
    rowMajorCoordinates (d :: dims) (outer * dims.prod + inner) =
      outer :: rowMajorCoordinates dims inner := by
  have hpos : 0 < dims.prod := Nat.zero_lt_of_lt h
  rw [rowMajorCoordinates, Nat.add_comm, Nat.add_mul_div_right _ _ hpos, Nat.div_eq_of_lt h,
    Nat.zero_add, Nat.add_mul_mod_self_right, Nat.mod_eq_of_lt h]

/-- No other coordinates in the box are at the position of some. -/
theorem rowMajorCoordinates_rowMajorIndex (h : InBox dims coordinates) :
    rowMajorCoordinates dims (rowMajorIndex dims coordinates) = coordinates := by
  induction h with
  | nil => rfl
  | @cons c d cs ds _ hs ih =>
    rw [rowMajorIndex, rowMajorCoordinates_cons d c (rowMajorIndex_lt hs), ih]

/-! ### The odometer -/

/-- The next coordinates in row-major order. The flag says that they began again at zero: then the
    dimension before them counts up too. -/
def tick : (dims coordinates : List Nat) → Bool × List Nat
  | d :: dims, c :: rest =>
    match tick dims rest with
    | (false, next) => (false, c :: next)
    | (true, next) => if c + 1 < d then (false, (c + 1) :: next) else (true, 0 :: next)
  | _, _ => (true, [])

theorem rowMajorCoordinates_zero (dims : List Nat) :
    rowMajorCoordinates dims 0 = List.replicate dims.length 0 := by
  induction dims with
  | nil => rfl
  | cons d ds ih =>
    rw [rowMajorCoordinates, Nat.zero_div, Nat.zero_mod, ih, List.length_cons,
      List.replicate_succ]

/-- The odometer goes from the coordinates of a position to those of the next, and behind the last
    position it begins again. -/
theorem tick_rowMajorCoordinates (h : index < dims.prod) :
    tick dims (rowMajorCoordinates dims index) =
      if index + 1 < dims.prod then (false, rowMajorCoordinates dims (index + 1))
      else (true, rowMajorCoordinates dims 0) := by
  induction dims generalizing index with
  | nil =>
    have hzero : index = 0 := by simpa using h
    simp [tick, rowMajorCoordinates, hzero]
  | cons d ds ih =>
    rw [List.prod_cons] at h
    have hpos : 0 < ds.prod := Nat.pos_of_mul_pos_left (Nat.zero_lt_of_lt h)
    obtain ⟨outer, inner, hinner, rfl⟩ :
        ∃ outer inner, inner < ds.prod ∧ index = outer * ds.prod + inner :=
      ⟨index / ds.prod, index % ds.prod, Nat.mod_lt index hpos, (Nat.div_add_mod' _ _).symm⟩
    have houter : outer < d := Nat.lt_of_mul_lt_mul_right (Nat.lt_of_le_of_lt (Nat.le_add_right _ _) h)
    rw [rowMajorCoordinates_cons d outer hinner, tick, ih hinner, List.prod_cons]
    by_cases hcarry : inner + 1 < ds.prod
    · -- The inner coordinates have not come to their end, so the outer one stays.
      have hnext : outer * ds.prod + inner + 1 < d * ds.prod := by
        have hle : (outer + 1) * ds.prod ≤ d * ds.prod := Nat.mul_le_mul_right ds.prod houter
        rw [Nat.succ_mul] at hle
        omega
      rw [if_pos hcarry, if_pos hnext, Nat.add_assoc, rowMajorCoordinates_cons d outer hcarry]
    · -- They begin again, and the outer one counts up or begins again too.
      have hlast : outer * ds.prod + inner + 1 = (outer + 1) * ds.prod + 0 := by
        rw [Nat.succ_mul]
        omega
      rw [if_neg hcarry, hlast]
      by_cases hend : outer + 1 < d
      · have hlt : (outer + 1) * ds.prod + 0 < d * ds.prod := Nat.mul_lt_mul_of_pos_right hend hpos
        rw [if_pos hlt, rowMajorCoordinates_cons d (outer + 1) hpos]
        simp only [if_pos hend]
      · have heq : outer + 1 = d := by omega
        have hzero := rowMajorCoordinates_cons d 0 hpos
        rw [Nat.zero_mul, Nat.add_zero] at hzero
        rw [heq, Nat.add_zero, if_neg (Nat.lt_irrefl _), hzero]
        simp only [if_neg (Nat.lt_irrefl d)]

/-- The coordinates at which an odometer stands in so many turns, the given ones first. -/
def visits (dims : List Nat) : Nat → List Nat → List (List Nat)
  | 0, _ => []
  | turns + 1, coordinates => coordinates :: visits dims turns (tick dims coordinates).2

/-- In as many turns as there are positions left, the odometer stands at each of them once. -/
theorem visits_rowMajorCoordinates {turns : Nat} (h : index + turns ≤ dims.prod) :
    visits dims turns (rowMajorCoordinates dims index) =
      (List.range' index turns).map (rowMajorCoordinates dims) := by
  induction turns generalizing index with
  | zero => rfl
  | succ turns ih =>
    rw [visits, tick_rowMajorCoordinates (by omega), List.range'_succ, List.map_cons]
    congr 1
    by_cases hnext : index + 1 < dims.prod
    · rw [if_pos hnext, ih (by omega)]
    · -- The last position was visited, so this is the last turn.
      have hlast : turns = 0 := by omega
      rw [hlast]
      rfl

/-! ### Strides -/

/-- How far apart in a payload neighbours along each dimension are. -/
def rowMajorStrides : List Nat → List Nat
  | [] => []
  | _ :: dims => dims.prod :: rowMajorStrides dims

@[simp] theorem length_rowMajorStrides (dims : List Nat) :
    (rowMajorStrides dims).length = dims.length := by
  induction dims with
  | nil => rfl
  | cons d ds ih => rw [rowMajorStrides, List.length_cons, ih, List.length_cons]

/-- The position of coordinates is the sum of the steps along the dimensions. -/
theorem sum_strides (dims coordinates : List Nat) :
    (List.zipWith (· * ·) coordinates (rowMajorStrides dims)).sum =
      rowMajorIndex dims coordinates := by
  induction dims generalizing coordinates with
  | nil => cases coordinates <;> simp [rowMajorStrides, rowMajorIndex]
  | cons d ds ih =>
    cases coordinates with
    | nil => simp [rowMajorIndex]
    | cons c cs => rw [rowMajorStrides, List.zipWith_cons_cons, List.sum_cons, ih, rowMajorIndex]

/-- The products of the sizes behind each dimension are numbers of 64 bits. -/
def StridesFit (dims : List UInt32) : Prop :=
  ∀ behind, behind <:+ dims.tail → (behind.map UInt32.toNat).prod < 2 ^ 64

/-- The strides are computed exactly, or not at all. -/
theorem stridesOf_eq_ok_iff {dims : List UInt32} {strides : List Nat} :
    stridesOf dims = .ok strides ↔
      StridesFit dims ∧ rowMajorStrides (dims.map UInt32.toNat) = strides := by
  induction dims using stridesOf.induct generalizing strides with
  | case1 => simp [stridesOf, StridesFit, rowMajorStrides]
  | case2 d => simp [stridesOf, StridesFit, rowMajorStrides]
  | case3 d next dims ih =>
    have hfits : StridesFit (d :: next :: dims) ↔ StridesFit (next :: dims) ∧
        (dims.map UInt32.toNat).prod * next.toNat < 2 ^ 64 := by
      simp only [StridesFit, List.tail_cons, List.suffix_cons_iff, forall_eq_or_imp,
        List.map_cons, List.prod_cons]
      rw [Nat.mul_comm, and_comm]
    rw [stridesOf, hfits]
    simp only [Except.bind_eq_ok_iff, ih, multiplyCounts_eq_ok_iff, Except.pure_eq_ok_iff]
    constructor
    · rintro ⟨_, ⟨hrest, rfl⟩, _, ⟨hfirst, rfl⟩, rfl⟩
      exact ⟨⟨hrest, hfirst⟩, by simp [rowMajorStrides, Nat.mul_comm]⟩
    · rintro ⟨⟨hrest, hfirst⟩, rfl⟩
      exact ⟨_, ⟨hrest, rfl⟩, _, ⟨hfirst, rfl⟩, by simp [rowMajorStrides, Nat.mul_comm]⟩

/-- With positive sizes the strides are not above the number of elements. -/
theorem stridesFit_of_pos {dims : List UInt32} (hpos : ∀ d ∈ dims, 0 < d.toNat)
    (h : (dims.map UInt32.toNat).prod < 2 ^ 64) : StridesFit dims := by
  intro behind hbehind
  have hsuffix := hbehind.trans (List.tail_suffix dims)
  obtain ⟨before, rfl⟩ := hsuffix
  rw [List.map_append, List.prod_append] at h
  apply Nat.lt_of_le_of_lt _ h
  apply Nat.le_mul_of_pos_left
  apply List.prod_pos
  simpa using fun d hd => hpos d (List.mem_append_left _ hd)

/-! ### Cells -/

/-- The bytes of one cell of a payload. -/
def cellAt (size : Nat) (data : List UInt8) (index : Nat) : List UInt8 :=
  (data.drop (index * size)).take size

variable {size count : Nat} {data data' : List UInt8}

theorem length_cellAt (hdata : data.length = count * size) (h : index < count) :
    (cellAt size data index).length = size := by
  have hle : (index + 1) * size ≤ count * size := Nat.mul_le_mul_right size h
  rw [Nat.succ_mul] at hle
  rw [cellAt, List.length_take, List.length_drop, hdata]
  omega

/-- A payload is made of its cells. -/
theorem flatMap_cellAt (hdata : data.length = count * size) :
    (List.range count).flatMap (cellAt size data) = data := by
  induction count generalizing data with
  | zero =>
    rw [Nat.zero_mul] at hdata
    rw [List.length_eq_zero_iff.mp hdata]
    rfl
  | succ count ih =>
    have hshift (k : Nat) : cellAt size data (k + 1) = cellAt size (data.drop size) k := by
      rw [cellAt, cellAt, List.drop_drop, Nat.succ_mul, Nat.add_comm]
    have hrest : (data.drop size).length = count * size := by
      rw [List.length_drop, hdata, Nat.succ_mul, Nat.add_sub_cancel]
    rw [List.range_succ_eq_map, List.flatMap_cons, List.flatMap_map]
    simp only [Nat.succ_eq_add_one, hshift]
    rw [ih hrest, cellAt, Nat.zero_mul, List.drop_zero, List.take_append_drop]

/-- The cells of a payload that is put together of cells. -/
theorem cellAt_flatMap {cell : Nat → List UInt8} (hcell : ∀ k < count, (cell k).length = size)
    (h : index < count) : cellAt size ((List.range count).flatMap cell) index = cell index := by
  induction count generalizing index cell with
  | zero => cases h
  | succ count ih =>
    have hfirst := hcell 0 (Nat.succ_pos count)
    rw [List.range_succ_eq_map, List.flatMap_cons, List.flatMap_map]
    cases index with
    | zero => rw [cellAt, Nat.zero_mul, List.drop_zero, List.take_left' hfirst]
    | succ index =>
      have hdrop : (index + 1) * size = size + index * size := by rw [Nat.succ_mul, Nat.add_comm]
      rw [cellAt, hdrop, ← List.drop_drop, List.drop_left' hfirst]
      exact ih (fun k hk => hcell (k + 1) (Nat.succ_lt_succ hk)) (Nat.lt_of_succ_lt_succ h)

end LayerGraph
