import LayerGraph.Proofs.Lowering.Planners

/-! # Elements of planned reshapes

  A plan has reshapes for three reasons: the operator asks for one, an operand of fewer dimensions
  is raised, or the data of a fully connected layer is brought into rows. The first two keep the
  number of elements. The rows are counted with 32 bits, so the third keeps it exactly when there
  are no more rows than that; otherwise the operator is planned all the same, and its reshape has
  fewer elements than what it reads. Main statement: `Plan.elements_of_reshapes`.
-/

namespace LayerGraph

/-- Rows that 32 bits can count hold all elements, and no others do. -/
theorem InRows.sameCount_iff {dims target : List UInt32} {rows : Nat} {rowSize : UInt32}
    (h : InRows dims target rows rowSize) : SameCount dims target ↔ rows < 2 ^ 32 := by
  have hprod : (target.map UInt32.toNat).prod = rows % 2 ^ 32 * rowSize.toNat := by
    rw [h.target_eq]
    simp
  rw [SameCount, hprod, h.count_eq, Nat.mul_left_inj h.pos.ne']
  constructor
  · intro heq
    rw [← heq]
    exact Nat.mod_lt _ (by decide)
  · exact Nat.mod_eq_of_lt

namespace Operation

variable {op : Operation} {t : Nat}

/-- The reshapes in the plan of an operator. -/
theorem plan_reshapes {standIn : Bool} :
    (op.plan standIn).Yields (op.Reshapes (Reshaped op.operator.code)) :=
  fun _ h => (plan_draws.post_of_ok h).reshapes

/-! ### Tensors of the model -/

/-- The tensors of an operation are those of its model. -/
theorem lt_of_mem_inputs {model : Model} {index : Nat} (h : ofModel model index = .ok op)
    (ht : t ∈ op.inputs) : t < model.tensors.length := by
  obtain ⟨_, inputs, _, -, hinputs, -, -, rfl⟩ := ofModel_eq_ok_iff.mp h
  obtain ⟨position, -, hposition⟩ := exists_mem_of_forall₂ (Except.mapM_eq_ok_iff.mp hinputs) ht
  unfold resolve at hposition
  split at hposition
  · cases hposition
    omega
  · cases hposition

end Operation

namespace Plan

/-- A layer of a plan reads one tensor: a reshape in front the one that it stands for, the primary
    layer the one in its only slot. -/
def Reads (plan : Plan) (layer : PlannedLayer) (t : Nat) : Prop :=
  (t, layer) ∈ plan.reshapes ∨ (layer = plan.primary ∧ plan.inputs = [.tensor t])

theorem target?_eq_some_iff {kind : LayerKind} {target : List UInt32} :
    kind.target? = some target ↔ kind = .reshape target := by
  cases kind <;> simp [LayerKind.target?]

/-- Every reshape in the plan of an operator reads one tensor, whose sizes are all known, and has as
    many elements. The exception are the rows of a fully connected layer: they hold the elements of
    the tensor too, but their number is reduced to 32 bits, so that the reshape has as many elements
    exactly when it fits. -/
theorem elements_of_reshapes {model : Model} {index : Nat} {standIn : Bool} {plan : Plan}
    (h : Plan.ofOperator model index standIn = .ok plan) :
    ∃ operator, model.operators[index]? = some operator ∧
      ∀ layer ∈ plan.layers, ∀ target, layer.kind = .reshape target →
        ∃ t source info, ∃ dims : List UInt32, plan.Reads layer t ∧
          model.tensors[t]? = some source ∧ source.info = .ok info ∧
          layer.inputs = [info] ∧ info.shape = .ofDims dims ∧
          (operator.code ≠ .fullyConnected →
            (target.map UInt32.toNat).prod = (dims.map UInt32.toNat).prod) ∧
          (operator.code = .fullyConnected → ∃ (rows : Nat) (rowSize : UInt32),
            0 < rowSize.toNat ∧ (dims.map UInt32.toNat).prod = rows * rowSize.toNat ∧
            target = [UInt32.ofNat rows, rowSize] ∧
            ((target.map UInt32.toNat).prod = (dims.map UInt32.toNat).prod ↔ rows < 2 ^ 32)) := by
  obtain ⟨op, hop, hplan⟩ := Except.bind_eq_ok_iff.mp h
  have hreshapes := Operation.plan_reshapes plan hplan
  refine ⟨op.operator, Operation.operator_of_ofModel hop, ?_⟩
  intro layer hlayer target htarget
  rw [← target?_eq_some_iff] at htarget
  obtain ⟨t, hreads, info, dims, ht, hinputs, hdims⟩ :
      ∃ t, plan.Reads layer t ∧
        op.Reshaping (Operation.Reshaped op.operator.code) t layer target := by
    obtain hfront | hbehind := List.mem_append.mp hlayer
    · obtain ⟨r, hr, rfl⟩ := List.mem_map.mp hfront
      exact ⟨r.1, .inl hr, hreshapes.front r hr target htarget⟩
    · obtain rfl | htail := List.mem_cons.mp hbehind
      · obtain ⟨t, ht, hreshaping⟩ := hreshapes.primary target htarget
        exact ⟨t, .inr ⟨rfl, ht⟩, hreshaping⟩
      · rw [hreshapes.tail layer htail] at htarget
        cases htarget
  have hlt := Operation.lt_of_mem_inputs hop ht.mem
  have hinfo := Operation.info_eq_ok ht.info_eq
  rw [Operation.tensor, Operation.model_eq_of_ofModel hop, List.getD_eq_getElem?_getD,
    List.getElem?_eq_getElem hlt, Option.getD_some] at hinfo
  refine ⟨t, _, info, dims, hreads, List.getElem?_eq_getElem hlt, hinfo, hinputs, ht.shape_eq,
    ?_, ?_⟩
  · intro hcode
    rwa [Operation.Reshaped, if_neg hcode] at hdims
  · intro hcode
    rw [Operation.Reshaped, if_pos hcode] at hdims
    obtain ⟨rows, rowSize, hrows⟩ := hdims
    exact ⟨rows, rowSize, hrows.pos, hrows.count_eq, hrows.target_eq, hrows.sameCount_iff⟩

/-- A fully connected layer over one weight, and data that has one row more than 32 bits can
    count. -/
def manyRows : Model where
  tensors := [
    { name := "x", shape := [65536, 65536, 1], storage := .float32 },
    { name := "w", shape := [1, 1], storage := .float32, data := some [0, 0, 128, 63] },
    { name := "y", shape := [1, 1], storage := .float32 }]
  operators := [{ code := .fullyConnected, inputs := [0, 1], outputs := [2] }]
  inputs := [0]
  outputs := [2]

theorem elements_of_reshapes_manyRows :
    ∃ plan layer info, ∃ dims : List UInt32, Plan.ofOperator manyRows 0 false = .ok plan ∧
      layer ∈ plan.layers ∧ layer.kind = .reshape [0, 1] ∧ layer.inputs = [info] ∧
      info.shape = .ofDims dims ∧ (dims.map UInt32.toNat).prod = 2 ^ 32 ∧
      (([0, 1] : List UInt32).map UInt32.toNat).prod ≠ (dims.map UInt32.toNat).prod := by
  have hbuilt : (Plan.ofOperator manyRows 0 false).map (fun plan =>
      plan.layers.head?.map fun layer => (layer.kind, layer.inputs.map (·.shape))) =
        .ok (some (.reshape [0, 1], [.ofDims [65536, 65536, 1]])) := by
    decide +kernel
  obtain ⟨plan, hplan, hfirst⟩ : ∃ plan, Plan.ofOperator manyRows 0 false = .ok plan ∧
      plan.layers.head?.map (fun layer => (layer.kind, layer.inputs.map (·.shape))) =
        some (.reshape [0, 1], [.ofDims [65536, 65536, 1]]) := by
    cases hplan : Plan.ofOperator manyRows 0 false with
    | error e =>
      rw [hplan] at hbuilt
      cases hbuilt
    | ok plan =>
      rw [hplan] at hbuilt
      exact ⟨plan, rfl, Except.ok.inj hbuilt⟩
  obtain ⟨layer, hlayer, hshown⟩ := Option.map_eq_some_iff.mp hfirst
  obtain ⟨hkind, hshapes⟩ := Prod.mk.inj hshown
  have hmem := List.mem_of_mem_head? hlayer
  obtain ⟨operator, hoperator, hreshapes⟩ := elements_of_reshapes hplan
  obtain ⟨t, source, info, dims, -, -, -, hinputs, hshape, -, hrows⟩ :=
    hreshapes layer hmem [0, 1] hkind
  obtain ⟨rows, rowSize, -, hcount, htarget, hiff⟩ := hrows (by cases hoperator; rfl)
  have hdims : dims = [65536, 65536, 1] := by
    rw [hinputs, List.map_singleton, hshape] at hshapes
    exact Shape.ofDims_injective (List.singleton_inj.mp hshapes)
  have hprod : (dims.map UInt32.toNat).prod = 2 ^ 32 := by
    rw [hdims]
    rfl
  -- Every row has one element, so there are as many rows as elements.
  have hmany : rows = 2 ^ 32 := by
    obtain ⟨-, hsize⟩ := List.cons.inj htarget
    obtain rfl := List.singleton_inj.mp hsize
    simpa [hprod] using hcount.symm
  refine ⟨plan, layer, info, dims, hplan, hmem, hkind, hinputs, hshape, hprod, ?_⟩
  rw [ne_eq, hiff, hmany]
  exact lt_irrefl _

end Plan

end LayerGraph
