import LayerGraph.Proofs.Lowering.Coverage
import LayerGraph.Proofs.Lowering.Reshape

/-! # How plans are drawn up

  A plan is drawn up from one layer (`Planned`), and on the way it is clear which tensors are read
  and what the reshapes are for. It reads the inputs of its operator only (`ReadsOwn`). The shape
  that a reshape gives belongs to that of the input that it reads (`Reshapes`): as a rule both have
  as many elements (`SameCount`), and the rows of a fully connected layer have as many as 32 bits
  can count (`InRows`).

  All this holds of one layer and is kept by a reshape in front and by a fused activation
  (`Drawn`).
-/

namespace LayerGraph

/-! ### Shapes of reshapes -/

/-- The shape that a reshape gives, if the layer is one. -/
def LayerKind.target? : LayerKind → Option (List UInt32)
  | .reshape target => some target
  | _ => none

/-- The sizes of a reshape have as many elements as those it reads. -/
def SameCount (dims target : List UInt32) : Prop :=
  (target.map UInt32.toNat).prod = (dims.map UInt32.toNat).prod

/-- A number of elements in rows of one size, the number of rows reduced to 32 bits. -/
structure InRows (dims target : List UInt32) (rows : Nat) (rowSize : UInt32) : Prop where
  /-- There is something in a row. -/
  pos : 0 < rowSize.toNat
  /-- The rows hold all elements. -/
  count_eq : (dims.map UInt32.toNat).prod = rows * rowSize.toNat
  /-- The shape has the two sizes. -/
  target_eq : target = [UInt32.ofNat rows, rowSize]

/-- Sizes of rows, whatever these are. -/
def SomeRows (dims target : List UInt32) : Prop := ∃ rows rowSize, InRows dims target rows rowSize

/-- A shape whose elements can be counted has known sizes, and their product is the count. -/
theorem Shape.eq_ofDims_of_elementCount {shape : Shape} {count : Nat}
    (h : shape.elementCount = .ok count) :
    ∃ dims : List UInt32, shape = .ofDims dims ∧ (dims.map UInt32.toNat).prod = count := by
  -- The count takes the sizes one by one and stops at an open one.
  have hspecified : ∀ (sizes all : List (Option UInt32)) (start : Nat),
      sizes.foldlM (countStep all) start = .ok count →
        ∃ dims : List UInt32, sizes = dims.map some := by
    intro sizes all
    induction sizes with
    | nil => exact fun _ _ => ⟨[], rfl⟩
    | cons size sizes ih =>
      intro start h
      rw [List.foldlM_cons, Except.bind_eq_ok_iff] at h
      obtain ⟨next, hstep, hrest⟩ := h
      cases size with
      | none => cases hstep
      | some d =>
        obtain ⟨dims, rfl⟩ := ih next hrest
        exact ⟨d :: dims, rfl⟩
  have hfold : shape.dims.foldlM (countStep shape.dims) 1 = .ok count := by
    rw [← h]
    unfold elementCount
    congr 1
  obtain ⟨dims, hdims⟩ := hspecified _ _ _ hfold
  have hshape : shape = .ofDims dims := by
    rw [ofDims, ← hdims]
  refine ⟨dims, hshape, ?_⟩
  rw [hshape] at h
  exact (elementCount_ofDims h).symm

namespace Operation

open Planning

variable {op : Operation} {kind : LayerKind} {name : String} {connected : List Nat} {t : Nat}
variable {R : List UInt32 → List UInt32 → Prop} {dims target : List UInt32} {plan : Plan}
variable {info : TensorInfo}

/-! ### Numbers of elements -/

/-- How the sizes of a planned reshape belong to those of the tensor, by the operator. -/
def Reshaped (code : OperatorCode) (dims target : List UInt32) : Prop :=
  if code = .fullyConnected then SomeRows dims target else SameCount dims target

/-- Sizes of one can be left out of a product. -/
theorem prod_filter_of_unit {items : List (UInt32 × Nat)} {keep : UInt32 × Nat → Bool}
    (hunit : ∀ item ∈ items, keep item = false → item.1 = 1) :
    (((items.filter keep).map (·.1)).map UInt32.toNat).prod =
      ((items.map (·.1)).map UInt32.toNat).prod := by
  induction items with
  | nil => rfl
  | cons item items ih =>
    obtain ⟨hhead, htail⟩ := List.forall_mem_cons.mp hunit
    cases hkeep : keep item with
    | true =>
      rw [List.filter_cons_of_pos hkeep]
      simp only [List.map_cons, List.prod_cons, ih htail]
    | false =>
      rw [List.filter_cons_of_neg (by rw [hkeep]; decide), ih htail]
      simp [hhead hkeep]

/-- Removing dimensions of size one keeps the number of elements. -/
theorem sameCount_squeezedDims {axes : List Nat} (h : ∀ axis ∈ axes, dims[axis]? = some 1) :
    SameCount dims (squeezedDims dims axes) := by
  unfold SameCount squeezedDims
  conv_rhs => rw [← List.zipIdx_map_fst 0 dims]
  refine prod_filter_of_unit ?_
  rintro ⟨d, i⟩ hmem hdropped
  have hd : dims[i]? = some d := List.mem_zipIdx_iff_getElem?.mp hmem
  dsimp only at hdropped
  split at hdropped
  · simpa using hdropped
  · have haxis : i ∈ axes := by simpa using hdropped
    rw [h i haxis] at hd
    exact (Option.some.inj hd).symm

/-- Ones in front of the sizes keep the number of elements. -/
theorem sameCount_replicate_append {n : Nat} : SameCount dims (List.replicate n 1 ++ dims) := by
  simp [SameCount]

/-! ### What is known of a tensor -/

/-- A tensor that the operator reads has the sizes. -/
structure HasDims (op : Operation) (t : Nat) (info : TensorInfo) (dims : List UInt32) : Prop where
  mem : t ∈ op.inputs
  info_eq : op.info t = .ok info
  shape_eq : info.shape = .ofDims dims

theorem input_mem {role : Nat} (h : role < op.inputs.length) : op.input role ∈ op.inputs := by
  rw [input, List.getD_eq_getElem?_getD, List.getElem?_eq_getElem h, Option.getD_some]
  exact List.getElem_mem h

theorem least_le_of_allows {arity : Arity} {n : Nat} (h : arity.allows n = true) :
    arity.least ≤ n := by
  unfold Arity.allows at h
  rw [Bool.and_eq_true, decide_eq_true_eq] at h
  exact h.1

/-- What plays a role that every operator with the arity has is an input. -/
theorem input_mem_of_allows {arity : Arity} {role : Nat}
    (hin : arity.allows op.inputs.length = true) (hrole : role < arity.least) :
    op.input role ∈ op.inputs :=
  input_mem (Nat.lt_of_lt_of_le hrole (least_le_of_allows hin))

theorem dims_eq_ok (h : op.dims t = .ok dims) :
    ∃ info, op.info t = .ok info ∧ info.shape = .ofDims dims := by
  obtain ⟨info, hinfo, h⟩ := Except.bind_eq_ok_iff.mp h
  split at h
  · next found hfound =>
    cases h
    exact ⟨info, hinfo, Shape.concrete?_eq_some_iff.mp hfound⟩
  · cases h

theorem elementCount_eq_ok {count : Nat} (h : op.elementCount t = .ok count) :
    ∃ (info : TensorInfo) (dims : List UInt32), op.info t = .ok info ∧ info.shape = .ofDims dims ∧
      (dims.map UInt32.toNat).prod = count := by
  obtain ⟨info, hinfo, h⟩ := Except.bind_eq_ok_iff.mp h
  split at h
  · next found hfound =>
    cases h
    obtain ⟨dims, hdims, hcount⟩ := Shape.eq_ofDims_of_elementCount hfound
    exact ⟨info, dims, hinfo, hdims, hcount⟩
  · cases h

/-! ### Reshapes -/

/-- A layer reads one tensor of the operator, and the sizes it gives belong to those of the
    tensor. -/
def Reshaping (op : Operation) (R : List UInt32 → List UInt32 → Prop) (t : Nat)
    (layer : PlannedLayer) (target : List UInt32) : Prop :=
  ∃ info dims, op.HasDims t info dims ∧ layer.inputs = [info] ∧ R dims target

/-- The sizes that the reshapes of a plan give belong to those of the tensors that they read. -/
structure Reshapes (op : Operation) (R : List UInt32 → List UInt32 → Prop) (plan : Plan) :
    Prop where
  /-- A reshape in front reads the tensor that it stands for. -/
  front : ∀ r ∈ plan.reshapes, ∀ target, r.2.kind.target? = some target →
    op.Reshaping R r.1 r.2 target
  /-- If the primary layer is a reshape, it reads one tensor. -/
  primary : ∀ target, plan.primary.kind.target? = some target →
    ∃ t, plan.inputs = [.tensor t] ∧ op.Reshaping R t plan.primary target
  /-- There are none behind it. -/
  tail : ∀ layer ∈ plan.tail, layer.kind.target? = none

/-- A layer of any other kind is no reshape. -/
theorem layer_reshapes_of_other (hkind : kind.target? = none) :
    (op.layer kind name connected).Yields (op.Reshapes R) := by
  intro plan h
  obtain ⟨inputs, outputs, -, -, rfl⟩ := layer_eq_ok h
  refine ⟨by simp, ?_, by simp⟩
  intro target htarget
  rw [hkind] at htarget
  cases htarget

/-- A reshape reads the one tensor that it is connected to. -/
theorem layer_reshapes (ht : op.HasDims t info dims) (hR : R dims target) :
    (op.layer (.reshape target) name [t]).Yields (op.Reshapes R) := by
  intro plan h
  obtain ⟨inputs, outputs, hinputs, -, rfl⟩ := layer_eq_ok h
  rw [Except.mapM_eq_ok_iff] at hinputs
  obtain ⟨found, rest, hfound, hnil, rfl⟩ := List.forall₂_cons_left_iff.mp hinputs
  obtain rfl := List.forall₂_nil_left_iff.mp hnil
  obtain rfl := Except.ok.inj (ht.info_eq.symm.trans hfound)
  refine ⟨by simp, ?_, by simp⟩
  intro target' htarget
  obtain rfl : target = target' := Option.some.inj htarget
  exact ⟨t, rfl, info, dims, ht, rfl, hR⟩

/-- A slot of a layer of another kind is fed through a reshape. -/
theorem Reshapes.reshapeInput {slot : Nat} (h : op.Reshapes R plan)
    (hkind : plan.primary.kind.target? = none) (ht : op.HasDims t info dims) (hR : R dims target) :
    op.Reshapes R (plan.reshapeInput slot t info target) where
  front := by
    intro r hr target' htarget
    obtain hold | hnew := List.mem_append.mp hr
    · exact h.front r hold target' htarget
    · obtain rfl := List.mem_singleton.mp hnew
      obtain rfl : target = target' := Option.some.inj htarget
      exact ⟨info, dims, ht, rfl, hR⟩
  primary := by
    intro target' htarget
    have hnone : (plan.reshapeInput slot t info target).primary.kind.target? = none := hkind
    rw [hnone] at htarget
    cases htarget
  tail := h.tail

theorem Reshapes.fuse {plan' : Plan} (h : op.Reshapes R plan) (hfuse : op.fuse plan = .ok plan') :
    op.Reshapes R plan' := by
  obtain rfl | ⟨params, name, rfl⟩ := fuse_eq_ok hfuse
  · exact h
  · refine ⟨h.front, h.primary, ?_⟩
    intro layer hlayer
    obtain hold | hnew := List.mem_append.mp hlayer
    · exact h.tail layer hold
    · obtain rfl := List.mem_singleton.mp hnew
      rfl

/-- A plan whose primary layer is no reshape, with the reshapes in front of it. -/
def Raised (op : Operation) (R : List UInt32 → List UInt32 → Prop) (plan : Plan) : Prop :=
  op.Reshapes R plan ∧ plan.primary.kind.target? = none

theorem layer_raised (R : List UInt32 → List UInt32 → Prop) (hkind : kind.target? = none) :
    (op.layer kind name connected).Yields (op.Raised R) := by
  intro plan h
  refine ⟨layer_reshapes_of_other hkind plan h, ?_⟩
  obtain ⟨inputs, outputs, -, -, rfl⟩ := layer_eq_ok h
  exact hkind

theorem Raised.reshapeInput {slot : Nat} (h : op.Raised R plan)
    (ht : op.HasDims t info dims) (hR : R dims target) :
    op.Raised R (plan.reshapeInput slot t info target) :=
  ⟨h.1.reshapeInput h.2 ht hR, h.2⟩

/-- Such a plan with nothing behind its primary layer. -/
def Unfused (op : Operation) (R : List UInt32 → List UInt32 → Prop) (plan : Plan) : Prop :=
  op.Raised R plan ∧ plan.tail = []

theorem layer_unfused (R : List UInt32 → List UInt32 → Prop) (hkind : kind.target? = none) :
    (op.layer kind name connected).Yields (op.Unfused R) := by
  intro plan h
  refine ⟨layer_raised R hkind plan h, ?_⟩
  obtain ⟨inputs, outputs, -, -, rfl⟩ := layer_eq_ok h
  rfl

/-! ### The tensors that a plan reads -/

/-- The plan reads tensors of its operator only. -/
def ReadsOwn (op : Operation) (plan : Plan) : Prop := ∀ k ∈ plan.consumed, k ∈ op.inputs

theorem layer_readsOwn (h : ∀ k ∈ connected, k ∈ op.inputs) :
    (op.layer kind name connected).Yields op.ReadsOwn := by
  intro plan hplan k hk
  obtain ⟨inputs, outputs, -, -, rfl⟩ := layer_eq_ok hplan
  rw [Plan.mem_consumed_iff] at hk
  simpa using h k (by simpa using hk)

theorem ReadsOwn.reshapeInput {slot : Nat} {target : List UInt32} (h : op.ReadsOwn plan)
    (ht : t ∈ op.inputs) : op.ReadsOwn (plan.reshapeInput slot t info target) := by
  intro k hk
  rcases Plan.mem_consumed_iff.mp hk with ⟨r, hr, rfl⟩ | hslot
  · rcases List.mem_append.mp hr with hold | hnew
    · exact h r.1 (Plan.mem_consumed_iff.mpr (.inl ⟨r, hold, rfl⟩))
    · rw [List.mem_singleton.mp hnew]
      exact ht
  · rcases List.mem_or_eq_of_mem_set hslot with hold | hnew
    · exact h k (Plan.mem_consumed_iff.mpr (.inr hold))
    · cases hnew

/-- A fused activation reads no tensor. -/
theorem ReadsOwn.fuse {plan' : Plan} (h : op.ReadsOwn plan) (hfuse : op.fuse plan = .ok plan') :
    op.ReadsOwn plan' := by
  rcases fuse_eq_ok hfuse with rfl | ⟨params, name, rfl⟩
  · exact h
  · exact h

/-! ### Drawn plans -/

/-- A plan of an operator: how it comes about, what it reads, and of what kind its reshapes are. -/
structure Drawn (op : Operation) (P : Plan → Prop) (plan : Plan) : Prop where
  planned : op.Planned plan
  own : op.ReadsOwn plan
  reshapes : P plan

theorem Drawn.of_unfused (h : op.Drawn (op.Unfused R) plan) : op.Drawn (op.Reshapes R) plan :=
  ⟨h.planned, h.own, h.reshapes.1.1⟩

theorem Drawn.reshapeInput {slot : Nat} (h : op.Drawn (op.Unfused R) plan)
    (ht : op.HasDims t info dims) (hR : R dims target) :
    op.Drawn (op.Unfused R) (plan.reshapeInput slot t info target) :=
  ⟨.reshaped h.planned ht.info_eq, h.own.reshapeInput ht.mem,
    h.reshapes.1.reshapeInput ht hR, h.reshapes.2⟩

theorem Drawn.fuse {plan' : Plan} (h : op.Drawn (op.Reshapes R) plan) (hone : op.outputs.length = 1)
    (hfuse : op.fuse plan = .ok plan') : op.Drawn (op.Reshapes R) plan' :=
  ⟨.fused h.planned hone hfuse, h.own.fuse hfuse, h.reshapes.fuse hfuse⟩

end Operation

end LayerGraph
