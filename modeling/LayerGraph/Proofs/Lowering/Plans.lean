import LayerGraph.Lowering.Plan.OfOperator
import LayerGraph.Proofs.Container.Kinds

/-! # What is planned

  Every plan starts as one layer and may get reshapes in front and an activation behind
  (`Planned`). The kind of the layer has a slot for every tensor that it is connected to and for
  every output, as far as 32 bits can count them (`Represents`).

  The descriptors of a plan come from the tensors of the model, which have consistent ones. There
  is one exception: a reshape in front of the primary layer gives its tensor another shape and
  keeps its scales. Sound plans are those of which all but these reshapes can be stored, and every
  plan is sound (`Planned.sound`).
-/

namespace LayerGraph

/-! ### Descriptors of a model -/

/-- The descriptor of a tensor of a model is consistent. -/
theorem ModelTensor.info_consistent {t : ModelTensor} {info : TensorInfo}
    (h : t.info = .ok info) : info.Consistent := by
  unfold ModelTensor.info at h
  obtain ⟨elementType, -, h⟩ := Except.bind_eq_ok_iff.mp h
  split at h
  · cases h
    exact trivial
  · next q =>
    split at h
    · cases h
      exact trivial
    · obtain ⟨offset, -, h⟩ := Except.bind_eq_ok_iff.mp h
      cases h
      exact trivial
    · obtain ⟨offset, -, h⟩ := Except.bind_eq_ok_iff.mp h
      obtain ⟨described, hdescribed, h⟩ := Except.bind_eq_ok_iff.mp h
      cases h
      rw [Except.mapError_eq_ok_iff, TensorInfo.withPerAxis_eq_ok_iff] at hdescribed
      exact hdescribed.2

/-- A tensor with at most one scale has no axis. -/
theorem ModelTensor.info_axis_eq_none {t : ModelTensor} {info : TensorInfo} (h : t.info = .ok info)
    (hscales : ∀ q ∈ t.quantization, q.scales.length ≤ 1) : info.quantization.axis? = none := by
  unfold ModelTensor.info at h
  obtain ⟨elementType, -, h⟩ := Except.bind_eq_ok_iff.mp h
  split at h
  · cases h
    rfl
  · next q hq =>
    have hlen := hscales q hq
    split at h
    · cases h
      rfl
    · obtain ⟨offset, -, h⟩ := Except.bind_eq_ok_iff.mp h
      cases h
      rfl
    · next scales hnil hsingle =>
      match hs : q.scales with
      | [] => exact absurd hs hnil
      | [scale] => exact absurd hs (hsingle scale)
      | _ :: _ :: _ => simp [hs] at hlen

/-! ### What a computation plans -/

/-- Whatever is planned has a property. -/
def Planning.Yields {α : Type} (x : Planning α) (p : α → Prop) : Prop := ∀ a, x = .ok a → p a

namespace Planning

variable {α β : Type} {p : α → Prop} {q : β → Prop}

theorem yields_ok {a : α} (h : p a) : Yields (.ok a) p := by
  intro b hb
  cases hb
  exact h

theorem yields_error {e : LoweringError} : Yields (.error e) p := by
  intro b hb
  cases hb

theorem Yields.bind {x : Planning β} {f : β → Planning α} (hf : ∀ b, x = .ok b → Yields (f b) p) :
    Yields (x >>= f) p := by
  intro a h
  obtain ⟨b, hb, hfb⟩ := Except.bind_eq_ok_iff.mp h
  exact hf b hb a hfb

theorem Yields.andThen {x : Planning β} {f : β → Planning α} (hx : Yields x q)
    (hf : ∀ b, q b → Yields (f b) p) : Yields (x >>= f) p :=
  .bind fun b hb => hf b (hx b hb)

/-- A check that refuses is passed when there is a plan. -/
theorem Yields.check {c : Prop} [Decidable c] {e : LoweringError} {f : β → Planning α}
    {x : Planning α} (h : ¬ c → Yields x p) :
    Yields (if c then (.error e : Planning β) >>= f else x) p := by
  split
  · exact yields_error
  · next hc => exact h hc

end Planning

namespace Operation

open Planning

variable {op : Operation} {kind : LayerKind} {name : String} {connected : List Nat} {t : Nat}

/-- An operation is an operator of the model whose tensors exist and have known sizes. -/
theorem ofModel_eq_ok_iff {model : Model} {index : Nat} :
    ofModel model index = .ok op ↔ ∃ operator inputs outputs,
      model.operators[index]? = some operator ∧
      (operator.inputs.filter (· != -1)).mapM (resolve model index) = .ok inputs ∧
      operator.outputs.mapM (resolve model index) = .ok outputs ∧
      (∀ k ∈ inputs ++ outputs, isDynamic model k = false) ∧
      op = ⟨model, index, operator, inputs, outputs⟩ := by
  constructor
  · intro h
    unfold ofModel at h
    split at h
    · next operator hoperator =>
      obtain ⟨inputs, hinputs, h⟩ := Except.bind_eq_ok_iff.mp h
      obtain ⟨outputs, houtputs, h⟩ := Except.bind_eq_ok_iff.mp h
      split at h
      · cases h
      · next hnone =>
        cases h
        refine ⟨operator, inputs, outputs, hoperator, hinputs, houtputs, ?_, rfl⟩
        have hknown := List.find?_eq_none.mp (Option.eq_none_iff_forall_ne_some.mpr hnone)
        exact fun k hk => Bool.eq_false_iff.mpr (hknown k hk)
    · cases h
  · rintro ⟨operator, inputs, outputs, hoperator, hinputs, houtputs, hknown, rfl⟩
    have hnone : (inputs ++ outputs).find? (isDynamic model) = none := by
      rw [List.find?_eq_none]
      exact fun k hk => Bool.eq_false_iff.mp (hknown k hk)
    unfold ofModel
    rw [hoperator]
    refine Except.bind_eq_ok_iff.mpr ⟨inputs, hinputs, ?_⟩
    refine Except.bind_eq_ok_iff.mpr ⟨outputs, houtputs, ?_⟩
    rw [hnone]
    rfl

/-- An operation reads the tensors of its model. -/
theorem model_eq_of_ofModel {model : Model} {index : Nat} (h : ofModel model index = .ok op) :
    op.model = model := by
  obtain ⟨_, _, _, -, -, -, -, rfl⟩ := ofModel_eq_ok_iff.mp h
  rfl

theorem index_eq_of_ofModel {model : Model} {index : Nat} (h : ofModel model index = .ok op) :
    op.index = index := by
  obtain ⟨_, _, _, -, -, -, -, rfl⟩ := ofModel_eq_ok_iff.mp h
  rfl

/-- An operation is the operator at its position. -/
theorem operator_of_ofModel {model : Model} {index : Nat} (h : ofModel model index = .ok op) :
    model.operators[index]? = some op.operator := by
  obtain ⟨_, _, _, hoperator, -, -, -, rfl⟩ := ofModel_eq_ok_iff.mp h
  exact hoperator

theorem info_eq_ok {info : TensorInfo} (h : op.info t = .ok info) :
    (op.tensor t).info = .ok info := by
  unfold Operation.info at h
  split at h
  · next hinfo =>
    cases h
    exact hinfo
  · cases h

theorem info_consistent {info : TensorInfo} (h : op.info t = .ok info) : info.Consistent :=
  ModelTensor.info_consistent (info_eq_ok h)

/-- So is that of a constant which a tensor is. -/
theorem constant_consistent {c : Constant} (h : op.constant t = .ok c) : c.info.Consistent := by
  unfold Operation.constant at h
  split at h
  · obtain ⟨info, hinfo, h⟩ := Except.bind_eq_ok_iff.mp h
    split at h
    · next hbytes =>
      cases h
      rw [(Constant.ofBytes_eq_ok_iff.mp hbytes).2.1, TensorInfo.consistent_withConstant]
      exact info_consistent hinfo
    · cases h
  · cases h

theorem optionalConstant_consistent {role : Nat} {c : Option Constant}
    (h : op.optionalConstant role = .ok c) : ∀ t ∈ c, t.info.Consistent := by
  unfold optionalConstant at h
  split at h
  · next t ht =>
    rw [map_eq_pure_bind, Except.bind_eq_ok_iff] at h
    obtain ⟨found, hfound, h⟩ := h
    cases h
    intro t ht
    cases ht
    exact constant_consistent hfound
  · cases h
    intro t ht
    cases ht

/-! ### Numbers of tensors -/

theorem allows_exactly_iff {m n : Nat} : (Arity.exactly n).allows m = true ↔ m = n := by
  show (decide (n ≤ m) && decide (m ≤ n)) = true ↔ m = n
  rw [Bool.and_eq_true, decide_eq_true_eq, decide_eq_true_eq]
  exact ⟨fun h => Nat.le_antisymm h.2 h.1, fun h => ⟨h.ge, h.le⟩⟩

theorem checkArity_eq_ok_iff {inputs outputs : Arity} :
    op.checkArity inputs outputs = .ok () ↔
      inputs.allows op.inputs.length = true ∧ outputs.allows op.outputs.length = true := by
  unfold checkArity
  cases inputs.allows op.inputs.length with
  | false => exact ⟨nofun, fun h => nomatch h.1⟩
  | true =>
    cases outputs.allows op.outputs.length with
    | false => exact ⟨nofun, fun h => nomatch h.2⟩
    | true => exact ⟨fun _ => ⟨rfl, rfl⟩, fun _ => rfl⟩

/-- An operator whose numbers of tensors are checked has so many outputs. -/
theorem length_outputs_of_checked {α : Type} {inputs : Arity} {n : Nat} {f : Unit → Planning α}
    {a : α} (h : op.checkArity inputs (.exactly n) >>= f = .ok a) : op.outputs.length = n := by
  obtain ⟨_, hcheck, -⟩ := Except.bind_eq_ok_iff.mp h
  exact allows_exactly_iff.mp (checkArity_eq_ok_iff.mp hcheck).2

theorem yields_arity {inputs : Arity} {n : Nat} {f : Unit → Planning Plan} {p : Plan → Prop}
    (h : inputs.allows op.inputs.length = true → op.outputs.length = n → (f ()).Yields p) :
    (op.checkArity inputs (.exactly n) >>= f).Yields p := by
  apply Yields.bind
  intro _ hcheck
  obtain ⟨hinputs, houtputs⟩ := checkArity_eq_ok_iff.mp hcheck
  exact h hinputs (allows_exactly_iff.mp houtputs)

/-- A layer can count the tensors of the operator. Only two kinds do so, and they count with 32
    bits: the layer that packs tensors, and the one that stands in for an unknown operator. -/
structure Countable (op : Operation) : Prop where
  packed : op.operator.code = .pack → op.inputs.length < 2 ^ 32
  unknown : ∀ name, op.operator.code = .other name →
    op.inputs.length < 2 ^ 32 ∧ op.outputs.length < 2 ^ 32

/-! ### Planned layers -/

/-- A layer of the kind that is connected to the given tensors can represent the operator. -/
structure Represents (op : Operation) (kind : LayerKind) (connected : List Nat) : Prop where
  storable : kind.Storable
  binding? : kind.binding? = none
  inputs_le : kind.inputCount ≤ connected.length
  outputs_le : kind.outputCount ≤ op.outputs.length
  counts : op.Countable →
    kind.inputCount = connected.length ∧ kind.outputCount = op.outputs.length

/-- The plans of an operator, and how they come about. -/
inductive Planned (op : Operation) : Plan → Prop where
  /-- One layer. -/
  | layer {kind : LayerKind} {name : String} {connected : List Nat} {plan : Plan}
      (hkind : op.Represents kind connected) (h : op.layer kind name connected = .ok plan) :
      Planned op plan
  /-- A slot fed through a reshape. -/
  | reshaped {plan : Plan} {slot tensor : Nat} {info : TensorInfo} {target : List UInt32}
      (h : Planned op plan) (hinfo : op.info tensor = .ok info) :
      Planned op (plan.reshapeInput slot tensor info target)
  /-- A fused activation, if there is one, behind the layer of the one output. -/
  | fused {plan plan' : Plan} (h : Planned op plan) (hone : op.outputs.length = 1)
      (hfuse : op.fuse plan = .ok plan') : Planned op plan'

theorem represents {connected : List Nat} (hstorable : kind.Storable)
    (hbinding : kind.binding? = none) (hinputs : kind.inputCount = connected.length)
    (houtputs : kind.outputCount = op.outputs.length) : op.Represents kind connected :=
  ⟨hstorable, hbinding, hinputs.le, houtputs.le, fun _ => ⟨hinputs, houtputs⟩⟩

/-! ### Kinds of planned layers -/

/-- A kind that can be stored and has so many inputs and one output. -/
structure Simple (n : Nat) (kind : LayerKind) : Prop where
  storable : kind.Storable
  binding? : kind.binding? = none
  inputs : kind.inputCount = n
  outputs : kind.outputCount = 1

theorem Simple.represents {n : Nat} (hkind : Simple n kind) (hlength : connected.length = n)
    (hone : op.outputs.length = 1) : op.Represents kind connected :=
  Operation.represents hkind.storable hkind.binding? (hkind.inputs.trans hlength.symm)
    (hkind.outputs.trans hone.symm)

/-- A kind that owns no constants can be stored, when it is no splitter. -/
theorem storable_of_no_constants (h : kind.constants = []) (heven : kind.EvenParts) :
    kind.Storable := by
  refine ⟨fun t ht => ?_, heven⟩
  rw [h] at ht
  cases ht

/-- A kind that owns weights and an optional bias can be stored. -/
theorem storable_of_weights {weights : Constant} {biases : Option Constant}
    (hconstants : kind.constants = weights :: biases.toList) (heven : kind.EvenParts)
    (hweights : weights.info.Consistent) (hbiases : ∀ t ∈ biases, t.info.Consistent) :
    kind.Storable := by
  refine ⟨fun t ht => ?_, heven⟩
  rw [hconstants] at ht
  rcases List.mem_cons.mp ht with rfl | hbias
  · exact hweights
  · exact hbiases t (Option.mem_toList.mp hbias)

theorem simple {n : Nat} (hconstants : kind.constants = []) (heven : kind.EvenParts)
    (hbinding : kind.binding? = none) (hinputs : kind.inputCount = n)
    (houtputs : kind.outputCount = 1) : Simple n kind :=
  ⟨storable_of_no_constants hconstants heven, hbinding, hinputs, houtputs⟩

/-! ### Numbers of results -/

/-- A mapped computation gives as many values as there are items. -/
theorem length_of_mapM {α β : Type} {f : α → Planning β} {items : List α} {values : List β}
    (h : items.mapM f = .ok values) : values.length = items.length :=
  (Except.mapM_eq_ok_iff.mp h).length_eq.symm

/-! ### Sound plans -/

/-- A plan whose layers can be stored, but perhaps for the reshapes in front. -/
structure Sound (op : Operation) (plan : Plan) : Prop where
  /-- A reshape in front has the descriptor of what it reads with another shape. -/
  reshapes : ∀ r ∈ plan.reshapes, ∃ info target, op.info r.1 = .ok info ∧
    r.2.kind = .reshape target ∧ r.2.outputs = [info.withShape (.ofDims target)]
  kinds : ∀ layer ∈ plan.primary :: plan.tail, layer.kind.Storable
  infos : ∀ layer ∈ plan.primary :: plan.tail, ∀ info ∈ layer.outputs, info.Consistent

theorem layer_eq_ok {plan : Plan} (h : op.layer kind name connected = .ok plan) :
    ∃ inputs outputs, connected.mapM op.info = .ok inputs ∧ op.outputs.mapM op.info = .ok outputs ∧
      plan = ⟨[], ⟨kind, name, inputs, outputs⟩, connected.map .tensor, [], op.outputs⟩ := by
  unfold layer at h
  obtain ⟨inputs, hinputs, h⟩ := Except.bind_eq_ok_iff.mp h
  obtain ⟨outputs, houtputs, h⟩ := Except.bind_eq_ok_iff.mp h
  cases h
  exact ⟨inputs, outputs, hinputs, houtputs, rfl⟩

/-- A fused activation has the descriptor of the layer that it follows. -/
theorem fuse_eq_ok {plan plan' : Plan} (h : op.fuse plan = .ok plan') :
    plan' = plan ∨ ∃ params name, plan' = { plan with
      tail := plan.tail ++ [⟨.activation params, name,
        (plan.tail.getLastD plan.primary).outputs.take 1,
        (plan.tail.getLastD plan.primary).outputs.take 1⟩] } := by
  unfold fuse at h
  split at h
  · cases h
  · cases h
    exact .inl rfl
  · next params suffix _ =>
    cases h
    exact .inr ⟨params, _, rfl⟩

theorem layer_sound {plan : Plan} (hkind : kind.Storable)
    (h : op.layer kind name connected = .ok plan) : op.Sound plan := by
  obtain ⟨inputs, outputs, -, houtputs, rfl⟩ := layer_eq_ok h
  refine ⟨by simp, by simpa using hkind, ?_⟩
  simp only [List.mem_singleton, forall_eq]
  intro info hinfo
  obtain ⟨t, -, ht⟩ := exists_mem_of_forall₂ (Except.mapM_eq_ok_iff.mp houtputs) hinfo
  exact info_consistent ht

theorem fuse_sound {plan plan' : Plan} (h : op.Sound plan) (hfuse : op.fuse plan = .ok plan') :
    op.Sound plan' := by
  rcases fuse_eq_ok hfuse with rfl | ⟨params, name, rfl⟩
  · exact h
  · have hlast : plan.tail.getLastD plan.primary ∈ plan.primary :: plan.tail := by
      rw [List.getLastD_eq_getLast?]
      cases hl : plan.tail.getLast? with
      | none => exact List.mem_cons_self
      | some last => exact List.mem_cons_of_mem _ (List.mem_of_getLast? hl)
    refine ⟨h.reshapes, ?_, ?_⟩
    · intro layer hmem
      rw [← List.cons_append, List.mem_append, List.mem_singleton] at hmem
      rcases hmem with hold | rfl
      · exact h.kinds layer hold
      · exact storable_of_no_constants rfl trivial
    · intro layer hmem info hinfo
      rw [← List.cons_append, List.mem_append, List.mem_singleton] at hmem
      rcases hmem with hold | rfl
      · exact h.infos layer hold info hinfo
      · exact h.infos _ hlast info (List.mem_of_mem_take hinfo)

theorem reshapeInput_sound {plan : Plan} {slot : Nat} {info : TensorInfo} {target : List UInt32}
    (h : op.Sound plan) (hinfo : op.info t = .ok info) :
    op.Sound (plan.reshapeInput slot t info target) where
  reshapes := by
    intro r hr
    rcases List.mem_append.mp hr with hold | hnew
    · exact h.reshapes r hold
    · rw [List.mem_singleton] at hnew
      subst hnew
      exact ⟨info, target, hinfo, rfl, rfl⟩
  kinds := by
    intro layer hmem
    rcases List.mem_cons.mp hmem with rfl | htail
    · exact h.kinds plan.primary List.mem_cons_self
    · exact h.kinds layer (List.mem_cons_of_mem _ htail)
  infos := by
    intro layer hmem
    rcases List.mem_cons.mp hmem with rfl | htail
    · exact h.infos plan.primary List.mem_cons_self
    · exact h.infos layer (List.mem_cons_of_mem _ htail)

/-- Whatever is planned for an operator is sound. -/
theorem Planned.sound {plan : Plan} (h : op.Planned plan) : op.Sound plan := by
  induction h with
  | layer hkind h => exact layer_sound hkind.storable h
  | reshaped _ hinfo ih => exact reshapeInput_sound ih hinfo
  | fused _ _ hfuse ih => exact fuse_sound ih hfuse

end Operation

end LayerGraph
