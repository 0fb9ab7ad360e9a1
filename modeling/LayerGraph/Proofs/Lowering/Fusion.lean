import LayerGraph.Proofs.Lowering.Planners

/-! # Plans with a fused activation

  An operator may name a function that is applied to its result. Most operators do not look at this
  option. Those that do (`OperatorCode.fusing`) are planned without it, and then the function is
  put behind the result. So the plan is the one without the function and one layer more, and what
  is refused is refused with the same error (`ofOperator_withActivation`).
-/

namespace LayerGraph

/-! ### The option -/

/-- The operators that look at the option. -/
def OperatorCode.fusing : List OperatorCode :=
  [.add, .sub, .mul, .div, .averagePool2d, .maxPool2d, .conv2d, .depthwiseConv2d, .fullyConnected,
    .concatenation, .l2Normalization]

/-- The functions that can be put behind a result. -/
def FusedActivation.functions : List FusedActivation := [.relu, .relu6, .reluN1To1, .tanh]

/-- The operator with another fused activation. -/
def ModelOperator.withActivation (operator : ModelOperator) (f : FusedActivation) : ModelOperator :=
  { operator with options := { operator.options with fusedActivation := f } }

/-- The model with another fused activation of the operator at a position. -/
def Model.withActivation (model : Model) (index : Nat) (f : FusedActivation) : Model :=
  { model with operators := model.operators.modify index (·.withActivation f) }

/-- The plan with a function behind its primary layer, which has the same descriptor on both
    sides. -/
def Plan.activated (plan : Plan) (params : ActivationParams) (suffix : String) : Plan :=
  { plan with
    tail := [⟨.activation params, plan.primary.name ++ ":" ++ suffix, plan.primary.outputs,
      plan.primary.outputs⟩] }

/-- The plan has no layer behind the primary one, which writes one tensor. -/
structure Plan.Bare (plan : Plan) : Prop where
  tail : plan.tail = []
  written : ∃ k info, plan.outputs = [k] ∧ plan.primary.outputs = [info]

namespace Operation

open Planning

variable {op : Operation} {plan : Plan} {kind : LayerKind} {name label : String}
variable {connected : List Nat} {model : Model} {index i : Nat} {f : FusedActivation}
variable {params : ActivationParams} {suffix : String}

/-! ### Operations with another option -/

/-- The operation with another fused activation, in the model that has it at the position. -/
def withActivation (op : Operation) (index : Nat) (f : FusedActivation) : Operation :=
  { op with
    model := op.model.withActivation index f
    operator := op.operator.withActivation f }

/-- The operation in a model where the operator at the position has another fused activation. -/
def beside (op : Operation) (index : Nat) (f : FusedActivation) : Operation :=
  { op with model := op.model.withActivation index f }

/-- The tensors of an operator do not depend on the option. -/
theorem ofModel_of_getElem? {g : ModelOperator → ModelOperator}
    (hoperator : (model.withActivation index f).operators[i]? = model.operators[i]?.map g)
    (hg : ∀ operator, (g operator).inputs = operator.inputs ∧
      (g operator).outputs = operator.outputs) :
    ofModel (model.withActivation index f) i = (ofModel model i).map fun op =>
      { op with model := op.model.withActivation index f, operator := g op.operator } := by
  unfold ofModel
  rw [hoperator]
  cases model.operators[i]? with
  | none => rfl
  | some operator =>
    obtain ⟨hin, hout⟩ := hg operator
    show ((g operator).inputs.filter (· != -1)).mapM (resolve model i) >>= _ =
      Except.map _ (_ >>= _)
    rw [hin, Except.map_bind]
    apply bind_congr
    intro inputs
    rw [hout, Except.map_bind]
    apply bind_congr
    intro outputs
    have hdynamic : isDynamic (model.withActivation index f) = isDynamic model := rfl
    dsimp only
    rw [hdynamic]
    cases (inputs ++ outputs).find? (isDynamic model) <;> rfl

theorem ofModel_withActivation (model : Model) (index : Nat) (f : FusedActivation) :
    ofModel (model.withActivation index f) index =
      (ofModel model index).map (·.withActivation index f) := by
  apply ofModel_of_getElem? (g := (·.withActivation f))
  · exact List.getElem?_modify_eq _ _ _
  · exact fun operator => ⟨rfl, rfl⟩

theorem ofModel_beside (model : Model) (f : FusedActivation) (hne : i ≠ index) :
    ofModel (model.withActivation index f) i = (ofModel model i).map (·.beside index f) := by
  apply ofModel_of_getElem? (g := id)
  · rw [Option.map_id]
    exact List.getElem?_modify_ne _ _ hne.symm
  · exact fun operator => ⟨rfl, rfl⟩

/-! ### Plans without a function -/

/-- A plan that is drawn up for an operator of one output is bare before a function is fused. -/
theorem bare_of_draws {R : List UInt32 → List UInt32 → Prop} {arity : Arity}
    {rest : Unit → Planning Plan}
    (h : op.Draws (op.Unfused R) (op.checkArity arity (.exactly 1) >>= rest)) :
    Yields (op.checkArity arity (.exactly 1) >>= rest) Plan.Bare := by
  intro plan hrun
  have hdrawn := h.post_of_ok hrun
  have hcovered := hdrawn.planned.covered
  have hone : plan.outputs.length = 1 := by
    rw [hcovered.outputs, length_outputs_of_checked hrun]
  obtain ⟨k, hk⟩ := List.length_eq_one_iff.mp hone
  obtain ⟨info, hinfo⟩ := List.length_eq_one_iff.mp (hcovered.described.trans hone)
  exact ⟨hdrawn.reshapes.2, k, info, hk, hinfo⟩

/-- An operator that looks at the option is planned without it first. -/
theorem exists_base (hcode : op.operator.code ∈ OperatorCode.fusing) (index : Nat)
    (standIn : Bool) :
    ∃ base : Planning Plan, base.Yields Plan.Bare ∧ ∀ f,
      (op.withActivation index f).plan standIn = base >>= (op.withActivation index f).fuse := by
  have hsame (f : FusedActivation) :
      (op.withActivation index f).operator.code = op.operator.code := rfl
  have hbinary {kind : LayerKind} {label : String} (hkind : Simple 2 kind)
      (hother : kind.target? = none) : (op.planBinary kind label).Yields Plan.Bare :=
    bare_of_draws (planBinary_draws hkind hother)
  -- No planner looks at the option; only what comes behind it does.
  cases hkind : op.operator.code with
  | add =>
    refine ⟨op.planBinary .addition "Add", ?_, fun f => ?_⟩
    · exact hbinary (simple rfl trivial rfl rfl rfl) rfl
    · rw [plan, hsame, hkind]
      rfl
  | sub =>
    refine ⟨op.planBinary .subtraction "Sub", ?_, fun f => ?_⟩
    · exact hbinary (simple rfl trivial rfl rfl rfl) rfl
    · rw [plan, hsame, hkind]
      rfl
  | mul =>
    refine ⟨op.planBinary .multiplication "Mul", ?_, fun f => ?_⟩
    · exact hbinary (simple rfl trivial rfl rfl rfl) rfl
    · rw [plan, hsame, hkind]
      rfl
  | div =>
    refine ⟨op.planBinary .division "Div", ?_, fun f => ?_⟩
    · exact hbinary (simple rfl trivial rfl rfl rfl) rfl
    · rw [plan, hsame, hkind]
      rfl
  | averagePool2d =>
    refine ⟨op.planPooling .average "AveragePool2D", ?_, fun f => ?_⟩
    · exact bare_of_draws (R := SameCount) planPooling_draws
    · rw [plan, hsame, hkind]
      rfl
  | maxPool2d =>
    refine ⟨op.planPooling .max "MaxPool2D", ?_, fun f => ?_⟩
    · exact bare_of_draws (R := SameCount) planPooling_draws
    · rw [plan, hsame, hkind]
      rfl
  | conv2d =>
    refine ⟨op.planConvolution, ?_, fun f => ?_⟩
    · exact bare_of_draws (R := SameCount) planConvolution_draws
    · rw [plan, hsame, hkind]
      rfl
  | depthwiseConv2d =>
    refine ⟨op.planDepthwiseConvolution, ?_, fun f => ?_⟩
    · exact bare_of_draws (R := SameCount) planDepthwiseConvolution_draws
    · rw [plan, hsame, hkind]
      rfl
  | fullyConnected =>
    refine ⟨op.planFullyConnected, ?_, fun f => ?_⟩
    · exact bare_of_draws planFullyConnected_draws
    · rw [plan, hsame, hkind]
      rfl
  | concatenation =>
    refine ⟨op.planConcatenation, ?_, fun f => ?_⟩
    · exact bare_of_draws (R := SameCount) (planConcatenation_draws hkind)
    · rw [plan, hsame, hkind]
      rfl
  | l2Normalization =>
    refine ⟨op.single (.l2Normalization {}) "L2Normalization", ?_, fun f => ?_⟩
    · exact bare_of_draws (R := SameCount) (single_draws (simple rfl trivial rfl rfl rfl) rfl)
    · rw [plan, hsame, hkind]
      rfl
  | _ => simp [hkind, OperatorCode.fusing] at hcode

/-! ### Plans with a function -/

/-- There is a layer for each of the functions. -/
theorem exists_fusedLayer? (h : f ∈ FusedActivation.functions) :
    ∃ params suffix, fusedLayer? f = .ok (some (params, suffix)) := by
  cases f with
  | relu | relu6 | reluN1To1 | tanh => exact ⟨_, _, rfl⟩
  | none | signBit => simp [FusedActivation.functions] at h

theorem fuse_withActivation (hf : fusedLayer? f = .ok (some (params, suffix))) (h : plan.Bare) :
    (op.withActivation index f).fuse plan = .ok (plan.activated params suffix) := by
  obtain ⟨k, info, -, hinfo⟩ := h.written
  have hlast : plan.tail.getLastD plan.primary = plan.primary := by rw [h.tail, List.getLastD_nil]
  have hoption : (op.withActivation index f).options.fusedActivation = f := rfl
  unfold fuse
  rw [hoption, hf]
  dsimp only
  rw [hlast, h.tail, hinfo, Plan.activated, hinfo]
  rfl

/-- The function is put behind what is planned without it. -/
theorem plan_withActivation (hcode : op.operator.code ∈ OperatorCode.fusing)
    (hf : fusedLayer? f = .ok (some (params, suffix))) (standIn : Bool) :
    ((op.withActivation index .none).plan standIn).Yields Plan.Bare ∧
      (op.withActivation index f).plan standIn =
        ((op.withActivation index .none).plan standIn).map (·.activated params suffix) := by
  obtain ⟨base, hbare, hplan⟩ := exists_base hcode index standIn
  have hnone : (op.withActivation index .none).plan standIn = base := by
    rw [hplan]
    exact bind_pure base
  rw [hnone, hplan]
  refine ⟨hbare, ?_⟩
  cases hbase : base with
  | error e => rfl
  | ok plan => exact fuse_withActivation hf (hbare plan hbase)

end Operation

namespace Plan

open Operation

variable {model : Model} {index i : Nat} {operator : ModelOperator} {f : FusedActivation}
variable {params : ActivationParams} {suffix : String}

/-- With the function, an operator is planned as without it and has one layer more, or is refused
    with the same error. -/
theorem ofOperator_withActivation (hoperator : model.operators[index]? = some operator)
    (hcode : operator.code ∈ OperatorCode.fusing)
    (hf : fusedLayer? f = .ok (some (params, suffix))) (standIn : Bool) :
    (Plan.ofOperator (model.withActivation index .none) index standIn).Yields Plan.Bare ∧
      Plan.ofOperator (model.withActivation index f) index standIn =
        (Plan.ofOperator (model.withActivation index .none) index standIn).map
          (·.activated params suffix) := by
  unfold Plan.ofOperator
  rw [ofModel_withActivation, ofModel_withActivation]
  cases hop : ofModel model index with
  | error e => exact ⟨Planning.yields_error, rfl⟩
  | ok op =>
    have hfound := operator_of_ofModel hop
    rw [hoperator, Option.some.injEq] at hfound
    exact plan_withActivation (hfound ▸ hcode) hf standIn

/-- The other operators are planned as before. -/
theorem ofOperator_beside (f : FusedActivation) (standIn : Bool) (hne : i ≠ index) :
    Plan.ofOperator (model.withActivation index f) i standIn =
      Plan.ofOperator model i standIn := by
  unfold Plan.ofOperator
  rw [ofModel_beside model f hne]
  cases ofModel model i with
  | error e => rfl
  | ok op => rfl

end Plan

end LayerGraph
