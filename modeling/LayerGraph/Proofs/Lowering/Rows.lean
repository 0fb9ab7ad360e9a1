import LayerGraph.Lowering.Plan.Shapes
import LayerGraph.Proofs.Lowering.Faults

/-! # Rows of parts

  Tensors that are joined, and the parts that a tensor is taken apart into, are put into a row one
  by one, and the row counts with 32 bits where it ends. So it is exact where each of them starts,
  or it stops at the first one that does not fit behind those before it (`foldlM_add`). Tensors that
  are joined must agree with the result in their number of dimensions, which is checked for each of
  them just before it is put into the row (`foldlM_joinInto_eq_ok_iff`). So a row may stop before
  later tensors are looked at (`foldlM_joinInto_eq_overflow_iff`).
-/

namespace LayerGraph

variable {sizes : List UInt32} {size : UInt32} {rank axis k k' : Nat}

/-! ### Where parts start -/

/-- Where the part at a position starts when parts of the sizes follow each other. -/
def startOf (sizes : List UInt32) (k : Nat) : Nat := ((sizes.take k).map UInt32.toNat).sum

@[simp] theorem startOf_zero (sizes : List UInt32) : startOf sizes 0 = 0 := rfl

/-- A part starts where the one before ends. -/
theorem startOf_succ (h : sizes[k]? = some size) :
    startOf sizes (k + 1) = startOf sizes k + size.toNat := by
  obtain ⟨hk, rfl⟩ := List.getElem?_eq_some_iff.mp h
  unfold startOf
  rw [List.take_succ_eq_append_getElem hk, List.map_append, List.sum_append]
  simp

theorem startOf_cons_succ (size : UInt32) (sizes : List UInt32) (k : Nat) :
    startOf (size :: sizes) (k + 1) = size.toNat + startOf sizes k := by
  simp [startOf]

@[simp] theorem startOf_length (sizes : List UInt32) :
    startOf sizes sizes.length = (sizes.map UInt32.toNat).sum := by
  simp [startOf]

theorem startOf_mono (h : k ≤ k') : startOf sizes k ≤ startOf sizes k' := by
  induction k' with
  | zero =>
    obtain rfl : k = 0 := Nat.le_zero.mp h
    exact Nat.le_refl _
  | succ k' ih =>
    by_cases heq : k = k' + 1
    · rw [heq]
    · have hle : startOf sizes k ≤ startOf sizes k' := ih (by omega)
      apply Nat.le_trans hle
      cases hsize : sizes[k']? with
      | some size =>
        rw [startOf_succ hsize]
        exact Nat.le_add_right _ _
      | none =>
        -- Behind the last part nothing more is added.
        have hlength := List.getElem?_eq_none_iff.mp hsize
        unfold startOf
        rw [List.take_of_length_le hlength, List.take_of_length_le (by omega)]

theorem startOf_le (sizes : List UInt32) (k : Nat) :
    startOf sizes k ≤ (sizes.map UInt32.toNat).sum := by
  by_cases h : k ≤ sizes.length
  · rw [← startOf_length]
    exact startOf_mono h
  · unfold startOf
    rw [List.take_of_length_le (by omega)]

/-- A part ends before a later one starts. -/
theorem startOf_add_le (h : sizes[k]? = some size) (hlt : k < k') :
    startOf sizes k + size.toNat ≤ startOf sizes k' := by
  rw [← startOf_succ h]
  exact startOf_mono hlt

namespace Operation

/-! ### Origins -/

/-- The origins of parts of the sizes: zero but along the axis, and there where the part starts. -/
def originsOf (rank axis : Nat) (sizes : List UInt32) : List (List UInt32) :=
  (List.range sizes.length).map fun k =>
    (List.replicate rank 0).set axis (UInt32.ofNat (startOf sizes k))

/-- There is an origin for each size. -/
@[simp] theorem length_originsOf (rank axis : Nat) (sizes : List UInt32) :
    (originsOf rank axis sizes).length = sizes.length := by
  simp [originsOf]

theorem getElem?_originsOf (h : k < sizes.length) :
    (originsOf rank axis sizes)[k]? =
      some ((List.replicate rank 0).set axis (UInt32.ofNat (startOf sizes k))) := by
  unfold originsOf
  rw [List.getElem?_map, List.getElem?_range h, Option.map_some]

/-- A part behind the others has its origin where these end. -/
theorem originsOf_concat (rank axis : Nat) (sizes : List UInt32) (size : UInt32) :
    originsOf rank axis (sizes ++ [size]) = originsOf rank axis sizes ++
      [(List.replicate rank 0).set axis (UInt32.ofNat (sizes.map UInt32.toNat).sum)] := by
  have hstart {k : Nat} (hk : k ≤ sizes.length) :
      startOf (sizes ++ [size]) k = startOf sizes k := by
    unfold startOf
    rw [List.take_append_of_le_length hk]
  unfold originsOf
  rw [List.length_append, List.length_singleton, List.range_succ, List.map_append,
    List.map_singleton, hstart (Nat.le_refl _), startOf_length]
  congr 1
  apply List.map_congr_left
  intro k hk
  rw [hstart (Nat.le_of_lt (List.mem_range.mp hk))]

/-! ### Rows -/

/-- The row of parts of the sizes. -/
def rowOf (rank axis : Nat) (sizes : List UInt32) : Row :=
  ⟨originsOf rank axis sizes, UInt32.ofNat (sizes.map UInt32.toNat).sum⟩

/-- One part more is put behind the others if the row does not get too long. -/
theorem add_rowOf (hfits : (sizes.map UInt32.toNat).sum < 2 ^ 32) (size : UInt32) :
    Row.add rank axis (rowOf rank axis sizes) size =
      if ((sizes ++ [size]).map UInt32.toNat).sum < 2 ^ 32
      then .ok (rowOf rank axis (sizes ++ [size])) else .error .add := by
  have hstop : (rowOf rank axis sizes).stop.toNat = (sizes.map UInt32.toNat).sum :=
    UInt32.toNat_ofNat_of_lt' hfits
  have hsum : ((sizes ++ [size]).map UInt32.toNat).sum =
      (sizes.map UInt32.toNat).sum + size.toNat := by
    simp
  unfold Row.add addSizes
  rw [hstop, hsum]
  split
  · have hnext :
        (rowOf rank axis sizes).stop + size = (rowOf rank axis (sizes ++ [size])).stop := by
      unfold rowOf
      rw [hsum, UInt32.ofNat_add, UInt32.ofNat_toNat]
    simp only [bind, Except.bind, pure, Except.pure, hnext]
    unfold rowOf
    rw [originsOf_concat]
  · rfl

/-- Parts are put into a row exactly when this does not get too long. -/
theorem foldlM_add (rank axis : Nat) (sizes : List UInt32) :
    sizes.foldlM (Row.add rank axis) {} =
      if (sizes.map UInt32.toNat).sum < 2 ^ 32 then .ok (rowOf rank axis sizes)
      else .error .add := by
  induction sizes using List.reverseRecOn with
  | nil => rfl
  | append_singleton sizes size ih =>
    rw [List.foldlM_append, ih]
    by_cases hfits : (sizes.map UInt32.toNat).sum < 2 ^ 32
    · rw [if_pos hfits, ← add_rowOf hfits]
      show Row.add rank axis (rowOf rank axis sizes) size >>= pure = _
      rw [bind_pure]
    · have hlong : ¬ ((sizes ++ [size]).map UInt32.toNat).sum < 2 ^ 32 := by
        rw [List.map_append, List.sum_append]
        omega
      rw [if_neg hfits, if_neg hlong]
      rfl

theorem foldlM_add_eq_ok_iff {row : Row} :
    sizes.foldlM (Row.add rank axis) {} = .ok row ↔
      (sizes.map UInt32.toNat).sum < 2 ^ 32 ∧ row = rowOf rank axis sizes := by
  rw [foldlM_add]
  split
  · next hfits =>
    rw [Except.ok.injEq, and_iff_right hfits]
    exact eq_comm
  · next hlong => exact ⟨nofun, fun h => absurd h.1 hlong⟩

theorem foldlM_add_eq_error_iff {e : Overflow} :
    sizes.foldlM (Row.add rank axis) {} = .error e ↔
      2 ^ 32 ≤ (sizes.map UInt32.toNat).sum ∧ e = .add := by
  rw [foldlM_add]
  split
  · next hfits => exact ⟨nofun, fun h => absurd hfits (Nat.not_lt.mpr h.1)⟩
  · next hlong =>
    rw [Except.error.injEq, and_iff_right (Nat.le_of_not_lt hlong)]
    exact eq_comm

/-! ### Joined tensors -/

variable {op : Operation} {tensors : List Nat} {t : Nat} {row : Row} {e : LoweringError}

/-- A tensor is joined at the end of a row when it has the right number of dimensions and fits. -/
theorem joinInto_rowOf_eq_ok_iff (hfits : (sizes.map UInt32.toNat).sum < 2 ^ 32) :
    op.joinInto rank axis (rowOf rank axis sizes) t = .ok row ↔
      ∃ size, op.joinedSize rank axis t = .ok size ∧
        ((sizes ++ [size]).map UInt32.toNat).sum < 2 ^ 32 ∧
        row = rowOf rank axis (sizes ++ [size]) := by
  unfold joinInto
  rw [Except.bind_eq_ok_iff]
  refine exists_congr fun size => and_congr_right fun _ => ?_
  rw [Except.mapError_eq_ok_iff, add_rowOf hfits]
  split
  · next h =>
    rw [Except.ok.injEq, and_iff_right h]
    exact eq_comm
  · next h => exact ⟨nofun, fun hlong => absurd hlong.1 h⟩

theorem joinInto_rowOf_eq_error_iff (hfits : (sizes.map UInt32.toNat).sum < 2 ^ 32) :
    op.joinInto rank axis (rowOf rank axis sizes) t = .error e ↔
      op.joinedSize rank axis t = .error e ∨
      ∃ size, op.joinedSize rank axis t = .ok size ∧
        2 ^ 32 ≤ ((sizes ++ [size]).map UInt32.toNat).sum ∧ e = .overflow .add := by
  unfold joinInto
  rw [Except.bind_eq_error_iff]
  refine or_congr_right (exists_congr fun size => and_congr_right fun _ => ?_)
  rw [Except.mapError_eq_error_iff, add_rowOf hfits]
  split
  · next h =>
    constructor
    · rintro ⟨_, ⟨⟩, -⟩
    · exact fun hlong => absurd h (Nat.not_lt.mpr hlong.1)
  · next h =>
    constructor
    · rintro ⟨_, ⟨rfl⟩, rfl⟩
      exact ⟨Nat.le_of_not_lt h, rfl⟩
    · rintro ⟨-, rfl⟩
      exact ⟨.add, rfl, rfl⟩

/-- Joined tensors make up a row exactly when they have the right number of dimensions and the row
    does not get too long. -/
theorem foldlM_joinInto_eq_ok_iff :
    tensors.foldlM (op.joinInto rank axis) {} = .ok row ↔
      ∃ sizes, tensors.mapM (op.joinedSize rank axis) = .ok sizes ∧
        (sizes.map UInt32.toNat).sum < 2 ^ 32 ∧ row = rowOf rank axis sizes := by
  induction tensors using List.reverseRecOn generalizing row with
  | nil =>
    constructor
    · rintro ⟨⟩
      exact ⟨[], rfl, by decide, rfl⟩
    · rintro ⟨_, ⟨⟩, -, rfl⟩
      rfl
  | append_singleton tensors t ih =>
    rw [List.foldlM_append, Except.bind_eq_ok_iff]
    simp only [List.foldlM_cons, List.foldlM_nil, bind_pure, Except.mapM_concat_eq_ok_iff, ih]
    constructor
    · rintro ⟨_, ⟨sizes, hsizes, hfits, rfl⟩, hlast⟩
      obtain ⟨size, hsize, hlonger, rfl⟩ := (joinInto_rowOf_eq_ok_iff hfits).mp hlast
      exact ⟨_, ⟨sizes, size, hsizes, hsize, rfl⟩, hlonger, rfl⟩
    · rintro ⟨_, ⟨sizes, size, hsizes, hsize, rfl⟩, hlonger, rfl⟩
      have hfits : (sizes.map UInt32.toNat).sum < 2 ^ 32 := by
        rw [List.map_append, List.sum_append] at hlonger
        omega
      exact ⟨_, ⟨sizes, hsizes, hfits, rfl⟩,
        (joinInto_rowOf_eq_ok_iff hfits).mpr ⟨size, hsize, hlonger, rfl⟩⟩

/-- They are not put into a row because of its length exactly when some of them from the first one
    on are too long together, and none of these is refused. -/
theorem foldlM_joinInto_eq_overflow_iff {operation : Overflow} :
    tensors.foldlM (op.joinInto rank axis) {} = .error (.overflow operation) ↔
      operation = .add ∧ ∃ done sizes, done <+: tensors ∧
        done.mapM (op.joinedSize rank axis) = .ok sizes ∧
        2 ^ 32 ≤ (sizes.map UInt32.toNat).sum := by
  induction tensors using List.reverseRecOn with
  | nil =>
    constructor
    · rintro ⟨⟩
    · rintro ⟨-, done, sizes, hdone, hsizes, hlong⟩
      obtain rfl := List.prefix_nil.mp hdone
      cases hsizes
      exact absurd hlong (by decide)
  | append_singleton tensors t ih =>
    rw [List.foldlM_append, Except.bind_eq_error_iff, ih]
    simp only [List.foldlM_cons, List.foldlM_nil, bind_pure, foldlM_joinInto_eq_ok_iff]
    constructor
    · rintro (⟨rfl, done, sizes, hdone, hsizes, hlong⟩ | ⟨_, ⟨sizes, hsizes, hfits, rfl⟩, hlast⟩)
      · exact ⟨rfl, done, sizes, hdone.trans (List.prefix_append _ _), hsizes, hlong⟩
      · rcases (joinInto_rowOf_eq_error_iff hfits).mp hlast with
          hrefused | ⟨size, hsize, hlong, heq⟩
        · exact (joinedSize_blames _ hrefused).elim
        · cases heq
          exact ⟨rfl, _, _, List.prefix_rfl,
            Except.mapM_concat_eq_ok_iff.mpr ⟨sizes, size, hsizes, hsize, rfl⟩, hlong⟩
    · rintro ⟨rfl, done, sizes, hdone, hsizes, hlong⟩
      rcases List.prefix_concat_iff.mp hdone with rfl | hbefore
      · obtain ⟨before, size, hbefore, hsize, rfl⟩ := Except.mapM_concat_eq_ok_iff.mp hsizes
        -- Either the tensors before the last one are too long already, or it is the one too many.
        by_cases hfits : (before.map UInt32.toNat).sum < 2 ^ 32
        · exact .inr ⟨_, ⟨before, hbefore, hfits, rfl⟩,
            (joinInto_rowOf_eq_error_iff hfits).mpr (.inr ⟨size, hsize, hlong, rfl⟩)⟩
        · exact .inl ⟨rfl, tensors, before, List.prefix_rfl, hbefore, Nat.le_of_not_lt hfits⟩
      · exact .inl ⟨rfl, done, sizes, hbefore, hsizes, hlong⟩

/-! ### Plans with a row -/

variable {plan : Plan} {dims : List UInt32} {label : String}

/-- A plan in parts is a layer with their origins and sizes. -/
theorem planParts_eq_ok_iff :
    op.planParts t dims axis sizes label = .ok plan ↔
      (sizes.map UInt32.toNat).sum < 2 ^ 32 ∧
      op.layer (.splitter ⟨originsOf dims.length axis sizes, sizes.map (dims.set axis)⟩)
        (op.layerName label) [t] = .ok plan := by
  unfold planParts
  simp only [Except.bind_eq_ok_iff, Except.mapError_eq_ok_iff, foldlM_add_eq_ok_iff]
  constructor
  · rintro ⟨_, ⟨hfits, rfl⟩, hlayer⟩
    exact ⟨hfits, hlayer⟩
  · rintro ⟨hfits, hlayer⟩
    exact ⟨_, ⟨hfits, rfl⟩, hlayer⟩

/-- A plan that joins tensors is a layer with their origins. -/
theorem planConcatenation_eq_ok_iff :
    op.planConcatenation = .ok plan ↔ ∃ dims axis sizes,
      op.checkArity (.atLeast 1) (.exactly 1) = .ok () ∧ op.dims (op.output 0) = .ok dims ∧
      op.axis (op.output 0) op.options.axis.toInt dims.length = .ok axis ∧
      op.inputs.mapM (op.joinedSize dims.length axis) = .ok sizes ∧
      (sizes.map UInt32.toNat).sum < 2 ^ 32 ∧
      op.layer (.concat ⟨.ofNat axis, originsOf dims.length axis sizes⟩)
        (op.layerName "Concatenation") op.inputs = .ok plan := by
  unfold planConcatenation
  simp only [Except.bind_eq_ok_iff, foldlM_joinInto_eq_ok_iff]
  constructor
  · rintro ⟨_, harity, dims, hdims, axis, haxis, _, ⟨sizes, hsizes, hfits, rfl⟩, hlayer⟩
    exact ⟨dims, axis, sizes, harity, hdims, haxis, hsizes, hfits, hlayer⟩
  · rintro ⟨dims, axis, sizes, harity, hdims, haxis, hsizes, hfits, hlayer⟩
    exact ⟨(), harity, dims, hdims, axis, haxis, _, ⟨sizes, hsizes, hfits, rfl⟩, hlayer⟩

theorem add_eq_error {row : Row} {e : Overflow} (h : Row.add rank axis row size = .error e) :
    e = .add := by
  rcases Except.bind_eq_error_iff.mp h with hsum | ⟨_, -, hpure⟩
  · exact (addSizes_eq_error_iff.mp hsum).2.symm
  · cases hpure

/-- Tensors that are joined are refused for a fault of the operator or for their sizes. -/
theorem joinInto_refuses (hcode : op.operator.code = .concatenation) (row : Row) :
    (op.joinInto rank axis row t).Refuses op.Rejects := by
  unfold joinInto
  refine .bind (fun e he => (joinedSize_blames e he).rejects) fun size => mapError_refuses ?_
  intro e he
  rw [add_eq_error he]
  exact .joined hcode

end Operation

end LayerGraph
