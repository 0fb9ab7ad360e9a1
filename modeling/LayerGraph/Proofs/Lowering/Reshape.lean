import LayerGraph.Lowering.Reshape
import LayerGraph.Proofs.Tensor.DepthwiseLayout
import Mathlib.Algebra.BigOperators.Group.List.Basic
import Mathlib.Algebra.BigOperators.Ring.Finset
import Mathlib.Algebra.BigOperators.Ring.List
import Mathlib.Algebra.Order.Ring.Int

/-! # Shapes that fill a request

  A shape fills a request when it has the sizes that are asked for, any size where one is left
  open, and as many elements as there are. What `reshapeTarget` answers fills the request, and if
  anything does and there is at least one element, then it is unique and it is the answer
  (`reshapeTarget_spec`).

  The sizes are narrowed to 32 bits and the products are checked against 63 and 64 bits. None of
  this refuses a shape that fills the request: with a positive number of elements every size is
  positive, so that no partial product is above the whole one.
-/

namespace LayerGraph

/-! ### Requests -/

/-- Each size is the one that is asked for, if it is not left open. -/
def Agrees (target : List Int) (dims : List UInt32) : Prop :=
  List.Forall₂ (fun d (found : UInt32) => d ≠ -1 → (found.toNat : Int) = d) target dims

/-- Each size is the one that is asked for, and `size` where it is left open. -/
def Closes (size : Int) (target : List Int) (dims : List UInt32) : Prop :=
  List.Forall₂ (fun d (found : UInt32) => (found.toNat : Int) = if d = -1 then size else d)
    target dims

/-- A shape with the sizes that are asked for and so many elements. -/
structure Fills (elements : Nat) (target : List Int) (dims : List UInt32) : Prop where
  /-- It has the sizes that are asked for. -/
  agrees : Agrees target dims
  /-- The product of the sizes is the number of elements. -/
  count_eq : (dims.map UInt32.toNat).prod = elements

variable {elements : Nat} {target : List Int} {dims : List UInt32} {size : Int}

theorem Closes.agrees (h : Closes size target dims) : Agrees target dims := by
  refine h.imp ?_
  intro d found hfound hd
  rwa [if_neg hd] at hfound

/-- Where nothing is left open, any size closes the request. -/
theorem closes_iff_of_notMem (hopen : -1 ∉ target) :
    Closes size target dims ↔
      List.Forall₂ (fun d (found : UInt32) => (found.toNat : Int) = d) target dims := by
  have hsame : (target.map fun d => if d = -1 then size else d) = target := by
    conv_rhs => rw [← List.map_id target]
    refine List.map_congr_left ?_
    intro d hd
    rw [if_neg (ne_of_mem_of_not_mem hd hopen), id]
  conv_rhs => rw [← hsame, List.forall₂_map_left_iff]
  rfl

theorem Agrees.closes (hopen : -1 ∉ target) (h : Agrees target dims) :
    Closes size target dims := by
  induction h with
  | nil => exact .nil
  | cons hhead _ ih =>
    rw [List.mem_cons, not_or] at hopen
    refine .cons ?_ (ih hopen.2)
    rw [if_neg (Ne.symm hopen.1)]
    exact hhead (Ne.symm hopen.1)

/-- The sizes of the request that are not open. -/
def given (target : List Int) : List Int := target.filter (0 ≤ ·)

/-- Where nothing is left open, the given sizes are those of the shape. -/
theorem Agrees.given_eq (hopen : -1 ∉ target) (h : Agrees target dims) :
    given target = dims.map fun found => (found.toNat : Int) := by
  induction h with
  | nil => rfl
  | @cons d found target dims hhead _ ih =>
    rw [List.mem_cons, not_or] at hopen
    have hd := hhead (Ne.symm hopen.1)
    have hnonneg : 0 ≤ d := by omega
    rw [given, List.filter_cons_of_pos (by simpa using hnonneg), List.map_cons, hd, ← ih hopen.2]
    rfl

/-- One open size stands for one size of the shape. The others are given, so that it is what the
    product of the given ones leaves. -/
theorem Agrees.exists_closes (hone : target.count (-1) ≤ 1) (hopen : -1 ∈ target)
    (h : Agrees target dims) :
    ∃ found ∈ dims, Closes found.toNat target dims ∧
      (given target ++ [(found.toNat : Int)]).Perm (dims.map fun found => (found.toNat : Int)) := by
  induction h with
  | nil => cases hopen
  | @cons d found target dims hhead hrest ih =>
    by_cases hd : d = -1
    · subst hd
      have hclosed : -1 ∉ target := by
        rw [List.count_cons_self] at hone
        exact List.count_eq_zero.mp (by omega)
      refine ⟨found, List.mem_cons_self, .cons (by simp) (Agrees.closes hclosed hrest), ?_⟩
      have hgiven := Agrees.given_eq hclosed hrest
      rw [given, List.filter_cons_of_neg (by decide), ← given, hgiven, List.map_cons]
      exact List.perm_append_singleton _ _
    · rw [List.count_cons_of_ne hd] at hone
      obtain ⟨size, hmem, hcloses, hperm⟩ := ih hone (List.mem_of_ne_of_mem (Ne.symm hd) hopen)
      have hfound := hhead hd
      have hnonneg : 0 ≤ d := by omega
      refine ⟨size, List.mem_cons_of_mem _ hmem, .cons (by rw [if_neg hd, hfound]) hcloses, ?_⟩
      rw [given, List.filter_cons_of_pos (by simpa using hnonneg), ← given, List.map_cons, hfound]
      exact hperm.cons d

/-! ### What is checked -/

/-- Integers are narrowed when they are sizes, whatever others are refused with. -/
theorem narrow_eq_ok_iff {ε : Type} {e : Int → ε} {sizes : List Int} :
    (sizes.mapM fun d => if 0 ≤ d ∧ d < 2 ^ 32 then .ok (UInt32.ofNat d.toNat)
        else (.error (e d) : Except ε UInt32)) = .ok dims ↔
      List.Forall₂ (fun d (found : UInt32) => (found.toNat : Int) = d) sizes dims := by
  have hone : ∀ (d : Int) (found : UInt32),
      ((if 0 ≤ d ∧ d < 2 ^ 32 then .ok (UInt32.ofNat d.toNat)
        else .error (e d) : Except ε UInt32) = .ok found) ↔ (found.toNat : Int) = d := by
    intro d found
    have hlt := found.toNat_lt
    split
    · next h =>
      have hsize : d.toNat < UInt32.size := by
        show d.toNat < 2 ^ 32
        omega
      rw [Except.ok.injEq, ← UInt32.toNat_inj, UInt32.toNat_ofNat_of_lt' hsize]
      omega
    · next h =>
      constructor
      · intro herror
        cases herror
      · omega
  simp only [Except.mapM_eq_ok_iff, hone]

theorem openSize_eq_ok_iff :
    openSize elements target = .ok size ↔
      ∃ known, knownProduct? target = some known ∧ known ≠ 0 ∧
        ((elements : Int).bmod (2 ^ 64)).tmod known = 0 ∧
        ((elements : Int).bmod (2 ^ 64)).tdiv known = size := by
  unfold openSize
  generalize (elements : Int).bmod (2 ^ 64) = signed
  cases knownProduct? target with
  | none => simp
  | some known =>
    simp only [Except.check_eq_ok_iff, Except.pure_eq_ok_iff, Option.some.injEq, exists_eq_left',
      not_or, not_not, and_assoc, ne_eq]

/-- The answer has a size in place of the open one that is found from the others, and as many
    elements as there are. -/
theorem reshapeTarget_eq_ok_iff :
    reshapeTarget elements target = .ok dims ↔
      target.count (-1) ≤ 1 ∧ (∀ d ∈ target, -1 ≤ d) ∧
        (∃ size, (-1 ∈ target → openSize elements target = .ok size) ∧ Closes size target dims) ∧
        (Shape.ofDims dims).elementCount = .ok elements := by
  unfold reshapeTarget
  rw [Except.check_eq_ok_iff, Nat.not_lt]
  refine and_congr_right fun _ => ?_
  cases hfind : target.find? (· < -1) with
  | some d =>
    have hd : d < -1 := by simpa using List.find?_some hfind
    have hmem := List.mem_of_find?_eq_some hfind
    simp only [Except.bind_eq_ok_iff, Except.throw_ne_ok, false_and, exists_false, false_iff]
    rintro ⟨hall, -⟩
    have hle := hall d hmem
    omega
  | none =>
    have hall : ∀ d ∈ target, -1 ≤ d := by simpa using hfind
    simp only [List.contains_iff_mem]
    -- An open size is found from the elements; without one nothing is looked for.
    by_cases hopen : -1 ∈ target
    · simp only [if_pos hopen, Except.bind_eq_ok_iff, narrow_eq_ok_iff, Except.pure_eq_ok_iff,
        Except.mapError_eq_ok_iff, Except.check_eq_ok_iff, not_not, ne_eq]
      constructor
      · rintro ⟨size, hsize, _, rfl, found, hfound, count, hcount, rfl, rfl⟩
        exact ⟨hall, ⟨size, fun _ => hsize, List.forall₂_map_left_iff.mp hfound⟩, hcount⟩
      · rintro ⟨-, ⟨size, hsize, hcloses⟩, hcount⟩
        exact ⟨size, hsize hopen, _, rfl, dims, List.forall₂_map_left_iff.mpr hcloses, elements,
          hcount, rfl, rfl⟩
    · simp only [if_neg hopen, Except.bind_eq_ok_iff, narrow_eq_ok_iff, Except.pure_eq_ok_iff,
        Except.mapError_eq_ok_iff, Except.check_eq_ok_iff, not_not, ne_eq,
        closes_iff_of_notMem hopen]
      constructor
      · rintro ⟨_, rfl, found, hfound, count, hcount, rfl, rfl⟩
        exact ⟨hall, ⟨0, fun h => absurd h hopen, hfound⟩, hcount⟩
      · rintro ⟨-, ⟨size, -, hcloses⟩, hcount⟩
        exact ⟨_, rfl, dims, hcloses, elements, hcount, rfl, rfl⟩

/-! ### Numbers of elements -/

/-- Positive factors are multiplied without leaving the range. -/
theorem foldlM_known {factors : List Int} {start : Int} (hstart : 0 ≤ start)
    (hpos : ∀ d ∈ factors, 0 < d) (hlt : start * factors.prod < 2 ^ 63) :
    factors.foldlM (fun product d => if product * d < 2 ^ 63 then some (product * d) else none)
      start = some (start * factors.prod) := by
  induction factors generalizing start with
  | nil => simp
  | cons d factors ih =>
    obtain ⟨hd, hrest⟩ := List.forall_mem_cons.mp hpos
    rw [List.prod_cons, ← mul_assoc] at hlt
    have hprod : 0 < factors.prod := List.prod_pos hrest
    have hstep : start * d < 2 ^ 63 :=
      lt_of_le_of_lt (le_mul_of_one_le_right (mul_nonneg hstart hd.le) hprod) hlt
    rw [List.foldlM_cons, if_pos hstep, List.prod_cons, ← mul_assoc]
    exact ih (mul_nonneg hstart hd.le) hrest hlt

/-- A positive product has positive factors. -/
theorem pos_of_mem (h : 0 < (dims.map UInt32.toNat).prod) : ∀ found ∈ dims, 0 < found.toNat := by
  intro found hmem
  refine Nat.pos_of_ne_zero fun hzero => h.ne' (List.prod_eq_zero ?_)
  exact hzero ▸ List.mem_map_of_mem hmem

/-- The open size is what the given ones leave. -/
theorem openSize_eq_ok {found : UInt32} (hpos : 0 < elements) (hlt : elements < 2 ^ 63)
    (hcount : (given target).prod * (found.toNat : Int) = elements)
    (hgiven : ∀ d ∈ given target, 0 < d) (hfound : 0 < found.toNat) :
    openSize elements target = .ok (found.toNat : Int) := by
  have hprod : 0 < (given target).prod := List.prod_pos hgiven
  have hle : (given target).prod ≤ elements := by
    rw [← hcount]
    exact le_mul_of_one_le_right hprod.le (by omega)
  have hknown : knownProduct? target = some (given target).prod := by
    have hfold := foldlM_known zero_le_one hgiven (by rw [one_mul]; omega)
    rwa [one_mul] at hfold
  have hsigned : (elements : Int).bmod (2 ^ 64) = elements := by
    apply Int.bmod_eq_of_le <;> omega
  refine openSize_eq_ok_iff.mpr ⟨_, hknown, hprod.ne', ?_, ?_⟩
  · rw [hsigned, ← hcount, Int.mul_tmod_right]
  · rw [hsigned, ← hcount, Int.mul_tdiv_cancel_left _ hprod.ne']

/-! ### Fitting shapes -/

/-- The answer fills the request. -/
theorem fills_of_reshapeTarget (h : reshapeTarget elements target = .ok dims) :
    target.count (-1) ≤ 1 ∧ Fills elements target dims := by
  obtain ⟨hone, -, ⟨size, -, hcloses⟩, hcount⟩ := reshapeTarget_eq_ok_iff.mp h
  exact ⟨hone, hcloses.agrees, (Shape.elementCount_ofDims hcount).symm⟩

/-- What fills the request is the answer. -/
theorem Fills.reshapeTarget_eq_ok (h : Fills elements target dims) (hpos : 0 < elements)
    (hlt : elements < 2 ^ 63) (hone : target.count (-1) ≤ 1) :
    reshapeTarget elements target = .ok dims := by
  have hcount := h.count_eq
  have hsizes : ∀ found ∈ dims, 0 < found.toNat := pos_of_mem (by rwa [hcount])
  have hall : ∀ d ∈ target, -1 ≤ d := by
    intro d hd
    obtain ⟨found, -, hfound⟩ := exists_mem_of_forall₂ h.agrees.flip hd
    by_cases hopen : d = -1
    · omega
    · have heq := hfound hopen
      omega
  refine reshapeTarget_eq_ok_iff.mpr ⟨hone, hall, ?_, ?_⟩
  · by_cases hopen : -1 ∈ target
    · obtain ⟨found, hmem, hcloses, hperm⟩ := h.agrees.exists_closes hone hopen
      refine ⟨found.toNat, fun _ => ?_, hcloses⟩
      -- The sizes that are given and the one that was found are a rearrangement of the answer.
      have hproduct : (given target).prod * (found.toNat : Int) = elements := by
        have hprod := hperm.prod_eq
        rw [List.prod_append, List.prod_singleton] at hprod
        rw [hprod, ← hcount, Nat.cast_list_prod, List.map_map]
        rfl
      refine openSize_eq_ok hpos hlt hproduct ?_ (hsizes found hmem)
      intro d hd
      have hmem := hperm.subset (List.mem_append_left _ hd)
      obtain ⟨found, hfound, rfl⟩ := List.mem_map.mp hmem
      exact_mod_cast hsizes found hfound
    · exact ⟨0, fun h => absurd h hopen, h.agrees.closes hopen⟩
  · rw [← hcount]
    refine Shape.elementCount_of_pos hsizes ?_
    rw [hcount, Shape.sizeLimit]
    omega

/-- An answer has as many dimensions as the request, the sizes that are asked for, and the number of
    elements; no more than one size was left open. For at least one element, and fewer than a signed
    number of 64 bits can count, every request with at most one open size that some shape fills is
    answered by that shape, and no other shape fills it. -/
theorem reshapeTarget_spec (elements : Nat) (target : List Int) :
    (∀ dims, reshapeTarget elements target = .ok dims →
      target.count (-1) ≤ 1 ∧ dims.length = target.length ∧ Agrees target dims ∧
        (dims.map UInt32.toNat).prod = elements) ∧
    (0 < elements → elements < 2 ^ 63 → target.count (-1) ≤ 1 →
      ∀ dims, Agrees target dims → (dims.map UInt32.toNat).prod = elements →
        reshapeTarget elements target = .ok dims ∧
          ∀ other, Agrees target other → (other.map UInt32.toNat).prod = elements →
            other = dims) := by
  constructor
  · intro dims h
    obtain ⟨hone, hfills⟩ := fills_of_reshapeTarget h
    exact ⟨hone, hfills.agrees.length_eq.symm, hfills.agrees, hfills.count_eq⟩
  · intro hpos hlt hone dims hagrees hcount
    have hanswer := Fills.reshapeTarget_eq_ok ⟨hagrees, hcount⟩ hpos hlt hone
    refine ⟨hanswer, ?_⟩
    intro other hother hcount'
    have hanswer' := Fills.reshapeTarget_eq_ok ⟨hother, hcount'⟩ hpos hlt hone
    exact (Except.ok.inj (hanswer.symm.trans hanswer')).symm

/-- Twelve elements in rows of four. -/
theorem reshapeTarget_spec_rows : reshapeTarget 12 [-1, 4] = .ok [3, 4] := by
  refine ((reshapeTarget_spec 12 [-1, 4]).2 (by decide) (by decide) (by decide) [3, 4] ?_ ?_).1
  · exact .cons (by decide) (.cons (by decide) .nil)
  · decide

end LayerGraph
