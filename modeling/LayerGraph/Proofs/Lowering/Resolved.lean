import LayerGraph.Proofs.Lowering.Elements
import LayerGraph.Proofs.Lowering.Support

/-! # Shapes in a graph are resolved

  The descriptor of a tensor leaves a size open in two cases: the shape of the tensor has a negative
  entry, or its signature has one at the same place. Tensors are refused by another test, which
  looks for negative entries anywhere in both. It is made where an input is added, and where an
  operator is found with its tensors.

  So the tensors of an operator that is planned have known sizes. Every descriptor of a plan comes
  from them, since a plan reads no other tensors (`Operation.plan_readsOwn`) and a reshape in front
  is given all its sizes. What is made of plans is a graph in which all sizes are known, whichever
  operators were refused. Main statement: `Lowering.shapes_resolved`.
-/

namespace LayerGraph

/-- The sizes of all dimensions are known. -/
def TensorInfo.Resolved (info : TensorInfo) : Prop := info.shape.isSpecified = true

namespace TensorInfo

theorem resolved_withShape (info : TensorInfo) (dims : List UInt32) :
    (info.withShape (.ofDims dims)).Resolved := by
  simp [Resolved, withShape, Shape.isSpecified, Shape.ofDims]

end TensorInfo

/-- An executor is asked about layers of the plan only. -/
theorem mem_of_queried {support : LayerSupport} {layers : List PlannedLayer} {layer : PlannedLayer}
    (h : layer ∈ queried support layers) : layer ∈ layers := by
  induction layers with
  | nil => exact h
  | cons first layers ih =>
    unfold queried at h
    split at h
    · rcases List.mem_cons.mp h with rfl | hrest
      · exact List.mem_cons_self
      · exact List.mem_cons_of_mem first (ih hrest)
    · obtain rfl := List.mem_singleton.mp h
      exact List.mem_cons_self

/-! ### Tensors of a model -/

namespace ModelTensor

variable {t : ModelTensor} {info : TensorInfo}

/-- The shape has a negative entry, or the signature has one, be it behind the end of the shape. -/
def HasNegative (t : ModelTensor) : Prop :=
  (∃ d ∈ t.shape, d < 0) ∨ ∃ dims ∈ t.signature, ∃ d ∈ dims, d < 0

theorem isDynamic_iff : t.isDynamic = true ↔ t.HasNegative := by
  simp [isDynamic, HasNegative, Option.any_eq_true]

theorem info_shape (h : t.info = .ok info) : info.shape = t.graphShape := by
  unfold ModelTensor.info at h
  obtain ⟨elementType, -, h⟩ := Except.bind_eq_ok_iff.mp h
  split at h
  · cases h
    rfl
  · split at h
    · cases h
      rfl
    · obtain ⟨offset, -, h⟩ := Except.bind_eq_ok_iff.mp h
      cases h
      rfl
    · obtain ⟨offset, -, h⟩ := Except.bind_eq_ok_iff.mp h
      obtain ⟨described, hdescribed, h⟩ := Except.bind_eq_ok_iff.mp h
      cases h
      rw [Except.mapError_eq_ok_iff, TensorInfo.withPerAxis_eq_ok_iff] at hdescribed
      rw [hdescribed.1]
      rfl

/-- A size is only left open where the shape or the signature has a negative entry. -/
theorem isSpecified_graphShape (h : t.isDynamic = false) : t.graphShape.isSpecified = true := by
  unfold graphShape
  split
  · rfl
  · rw [Shape.isSpecified, List.all_eq_true]
    intro size hsize
    obtain ⟨i, hi, rfl⟩ := List.mem_mapIdx.mp hsize
    rw [isDynamic, Bool.or_eq_false_iff] at h
    have hshape : ¬ t.shape[i] < 0 := by
      simpa using List.any_eq_false.mp h.1 _ (List.getElem_mem hi)
    have hsignature : (t.signature.bind (·[i]?)).any (· < 0) = false := by
      cases hdims : t.signature with
      | none => rfl
      | some dims =>
        cases hd : dims[i]? with
        | none => simp [hd]
        | some d =>
          have hany := h.2
          rw [hdims] at hany
          simpa [hd] using List.any_eq_false.mp hany d (List.mem_of_getElem? hd)
    simp [dim?, hsignature, hshape]

theorem info_resolved (h : t.info = .ok info) (hknown : t.isDynamic = false) : info.Resolved := by
  rw [TensorInfo.Resolved, info_shape h]
  exact isSpecified_graphShape hknown

end ModelTensor

namespace Operation

open Planning

variable {op : Operation} {kind : LayerKind} {name label : String} {connected : List Nat}
variable {plan : Plan} {t k role : Nat} {info : TensorInfo}

/-! ### Descriptors of a plan -/

/-- Whatever is planned for an operator reads its own tensors only. -/
theorem plan_readsOwn {standIn : Bool} : (op.plan standIn).Yields op.ReadsOwn :=
  fun _ h => (plan_draws.post_of_ok h).own

/-- The tensors of an operator that was found have known sizes. -/
theorem resolved_of_ofModel {model : Model} {index : Nat} (h : ofModel model index = .ok op)
    (hk : k ∈ op.inputs ++ op.outputs) (hinfo : op.info k = .ok info) : info.Resolved := by
  obtain ⟨operator, inputs, outputs, -, -, -, hknown, rfl⟩ := ofModel_eq_ok_iff.mp h
  apply ModelTensor.info_resolved (info_eq_ok hinfo)
  -- A position behind the last tensor stands for one without dimensions.
  have hdynamic := hknown k hk
  unfold isDynamic at hdynamic
  unfold tensor
  rw [List.getD_eq_getElem?_getD]
  cases hsource : model.tensors[k]? with
  | none => rfl
  | some source =>
    rw [hsource] at hdynamic
    exact hdynamic

/-- The layers of a plan write tensors of known sizes, when those are that the operator writes. -/
theorem Planned.resolved_outputs (h : op.Planned plan)
    (hknown : ∀ k ∈ op.outputs, ∀ info, op.info k = .ok info → info.Resolved) :
    ∀ layer ∈ plan.layers, ∀ info ∈ layer.outputs, info.Resolved := by
  induction h with
  | layer _ h =>
    obtain ⟨inputs, outputs, -, houtputs, rfl⟩ := layer_eq_ok h
    intro layer hlayer info hinfo
    obtain rfl := List.mem_singleton.mp hlayer
    obtain ⟨k, hk, heq⟩ := exists_mem_of_forall₂ (Except.mapM_eq_ok_iff.mp houtputs) hinfo
    exact hknown k hk info heq
  | @reshaped plan slot tensor info target _ _ ih =>
    intro layer hlayer found hfound
    rcases List.mem_append.mp hlayer with hfront | hbehind
    · obtain ⟨r, hr, rfl⟩ := List.mem_map.mp hfront
      rcases List.mem_append.mp hr with hold | hnew
      · exact ih r.2 (List.mem_append_left _ (List.mem_map_of_mem hold)) found hfound
      · -- The new reshape gives its tensor sizes that are all known.
        obtain rfl := List.mem_singleton.mp hnew
        obtain rfl := List.mem_singleton.mp hfound
        exact info.resolved_withShape target
    · rcases List.mem_cons.mp hbehind with rfl | htail
      · exact ih plan.primary (List.mem_append_right _ List.mem_cons_self) found hfound
      · exact ih layer (List.mem_append_right _ (List.mem_cons_of_mem _ htail)) found hfound
  | @fused plan plan' _ _ hfuse ih =>
    rcases fuse_eq_ok hfuse with rfl | ⟨params, name, rfl⟩
    · exact ih
    · intro layer hlayer found hfound
      rw [Plan.layers, ← List.cons_append, ← List.append_assoc, List.mem_append] at hlayer
      rcases hlayer with hold | hnew
      · exact ih layer hold found hfound
      · -- The activation writes what the last layer wrote.
        obtain rfl := List.mem_singleton.mp hnew
        have hlast : plan.tail.getLastD plan.primary ∈ plan.layers :=
          List.mem_append_right _ List.getLastD_mem_cons
        exact ih _ hlast found (List.mem_of_mem_take hfound)

/-- So do they read tensors of known sizes, when those are that the operator reads. -/
theorem Planned.resolved_inputs (h : op.Planned plan) (hreads : op.ReadsOwn plan)
    (hknown : ∀ k ∈ op.inputs ++ op.outputs, ∀ info, op.info k = .ok info → info.Resolved) :
    ∀ layer ∈ plan.layers, ∀ info ∈ layer.inputs, info.Resolved := by
  have hwritten : ∀ layer ∈ plan.layers, ∀ info ∈ layer.outputs, info.Resolved :=
    h.resolved_outputs fun k hk => hknown k (List.mem_append_right _ hk)
  have hread : ∀ k ∈ plan.consumed, ∀ info, op.info k = .ok info → info.Resolved :=
    fun k hk => hknown k (List.mem_append_left _ (hreads k hk))
  have hlabels := h.labelled
  intro layer hlayer info hinfo
  rcases List.mem_append.mp hlayer with hfront | hbehind
  · obtain ⟨r, hr, rfl⟩ := List.mem_map.mp hfront
    obtain ⟨found, hfound, hinputs⟩ := hlabels.reshapes r hr
    rw [hinputs, List.mem_singleton] at hinfo
    rw [hinfo]
    exact hread r.1 (Plan.mem_consumed_iff.mpr (.inl ⟨r, hr, rfl⟩)) found hfound
  · rcases List.mem_cons.mp hbehind with rfl | htail
    · obtain ⟨source, hsource, hprovides⟩ := exists_mem_of_forall₂ hlabels.inputs hinfo
      cases source with
      | tensor k => exact hread k (Plan.mem_consumed_iff.mpr (.inr hsource)) info hprovides
      | reshape r =>
        obtain ⟨entry, hentry, houtputs⟩ := hprovides
        apply hwritten entry.2
        · exact List.mem_append_left _ (List.mem_map_of_mem (List.mem_of_getElem? hentry))
        · rw [houtputs]
          exact List.mem_singleton_self info
    · -- A layer behind the primary one reads what the layer before writes.
      obtain ⟨place, hplace⟩ := List.mem_iff_getElem?.mp htail
      have hlt : place < (plan.primary :: plan.tail).length :=
        Nat.lt_succ_of_lt (List.getElem?_eq_some_iff.mp hplace).1
      have hbefore := List.getElem?_eq_getElem hlt
      rw [hlabels.tail place _ layer hbefore hplace] at hinfo
      apply hwritten _ (List.mem_append_right _ (List.getElem_mem hlt))
      exact List.mem_of_mem_take hinfo

/-- Every descriptor of a plan has known sizes. -/
theorem resolved_of_plan {model : Model} {index : Nat} {standIn : Bool}
    (h : Plan.ofOperator model index standIn = .ok plan) :
    ∀ layer ∈ plan.layers, ∀ info ∈ layer.inputs ++ layer.outputs, info.Resolved := by
  obtain ⟨op, hop, hplan⟩ := Except.bind_eq_ok_iff.mp h
  have hplanned : op.Planned plan := plan_planned plan hplan
  have hknown (k : Nat) (hk : k ∈ op.inputs ++ op.outputs) (info : TensorInfo)
      (hinfo : op.info k = .ok info) : info.Resolved := resolved_of_ofModel hop hk hinfo
  intro layer hlayer info hinfo
  rcases List.mem_append.mp hinfo with hread | hwritten
  · exact hplanned.resolved_inputs (plan_readsOwn plan hplan) hknown layer hlayer info hread
  · apply hplanned.resolved_outputs _ layer hlayer info hwritten
    exact fun k hk => hknown k (List.mem_append_right _ hk)

/-! ### Dynamic tensors -/

/-- What is wrong with an operator that is not found, although the model has it: one of its tensors
    does not exist, or has unknown sizes. -/
theorem ofModel_refuses {model : Model} {index : Nat} {operator : ModelOperator}
    (hoperator : model.operators[index]? = some operator) :
    (ofModel model index).Refuses fun e =>
      (∃ other, e = .invalidTensor index other .noSuchTensor) ∨
        ∃ other, isDynamic model other = true ∧ e = .dynamicShape index other := by
  have hresolve (tensor : Int32) : (resolve model index tensor).Refuses fun e =>
      (∃ other, e = .invalidTensor index other .noSuchTensor) ∨
        ∃ other, isDynamic model other = true ∧ e = .dynamicShape index other := by
    unfold resolve
    split
    · exact refuses_ok _
    · exact refuses_error (.inl ⟨_, rfl⟩)
  unfold ofModel
  rw [hoperator]
  apply Refuses.bind (refuses_mapM hresolve _)
  intro inputs
  apply Refuses.bind (refuses_mapM hresolve _)
  intro outputs
  split
  · next tensor hfound => exact refuses_error (.inr ⟨tensor, List.find?_some hfound, rfl⟩)
  · exact refuses_ok _

/-- A tensor that is named by a position is among those that are found for it. -/
theorem mem_of_resolve {model : Model} {index : Nat} {tensor : Int32} {named : List Int32}
    {found : List Nat} (h : named.mapM (resolve model index) = .ok found) (htensor : tensor ∈ named)
    (hk : resolve model index tensor = .ok k) : k ∈ found := by
  have hpairs : List.Forall₂ (fun k tensor => resolve model index tensor = .ok k) found named :=
    (Except.mapM_eq_ok_iff.mp h).flip
  obtain ⟨k', hk', heq⟩ := exists_mem_of_forall₂ hpairs htensor
  rw [hk] at heq
  cases heq
  exact hk'

/-- An operator with a tensor of unknown sizes is not found. -/
theorem ofModel_ne_ok_of_dynamic {model : Model} {index : Nat} {operator : ModelOperator}
    {tensor : Int32} {source : ModelTensor} (hoperator : model.operators[index]? = some operator)
    (htensor : tensor ∈ operator.inputs ++ operator.outputs)
    (hsource : Lowering.boundaryTensor? model tensor = some (k, source))
    (hdynamic : source.isDynamic = true) : ofModel model index ≠ .ok op := by
  intro hop
  obtain ⟨found, inputs, outputs, hfound, hinputs, houtputs, hknown, rfl⟩ :=
    ofModel_eq_ok_iff.mp hop
  obtain rfl : operator = found := Option.some.inj (hoperator.symm.trans hfound)
  unfold Lowering.boundaryTensor? at hsource
  split at hsource
  · cases hsource
  · next hnonneg =>
    obtain ⟨source', hget, heq⟩ := Option.map_eq_some_iff.mp hsource
    cases heq
    have hlt := (List.getElem?_eq_some_iff.mp hget).1
    have hle : 0 ≤ tensor.toInt := by
      simpa [Int32.lt_iff_toInt_lt] using hnonneg
    have hresolve : resolve model index tensor = .ok tensor.toInt.toNat := by
      unfold resolve
      rw [if_pos ⟨hle, by omega⟩]
    have hmem : tensor.toInt.toNat ∈ inputs ++ outputs := by
      rcases List.mem_append.mp htensor with hread | hwritten
      · -- A position that is not negative does not stand for a tensor left out.
        have hkept : tensor ∈ operator.inputs.filter (· != -1) := by
          apply List.mem_filter.mpr
          refine ⟨hread, ?_⟩
          rw [bne_iff_ne]
          rintro rfl
          exact absurd hle (by decide)
        exact List.mem_append_left _ (mem_of_resolve hinputs hkept hresolve)
      · exact List.mem_append_right _ (mem_of_resolve houtputs hwritten hresolve)
    have hstatic := hknown _ hmem
    unfold isDynamic at hstatic
    rw [hget] at hstatic
    exact absurd hdynamic (Bool.eq_false_iff.mp hstatic)

/-- It is refused whatever it should become, and one of its tensors is the reason. -/
theorem refused_of_dynamic {model : Model} {index : Nat} {operator : ModelOperator}
    {tensor : Int32} {source : ModelTensor} (hoperator : model.operators[index]? = some operator)
    (htensor : tensor ∈ operator.inputs ++ operator.outputs)
    (hsource : Lowering.boundaryTensor? model tensor = some (k, source))
    (hdynamic : source.isDynamic = true) :
    ∃ e, (∀ standIn, Plan.ofOperator model index standIn = .error e) ∧
      ((∃ other, e = .invalidTensor index other .noSuchTensor) ∨
        ∃ other, isDynamic model other = true ∧ e = .dynamicShape index other) := by
  cases hop : ofModel model index with
  | ok op => exact absurd hop (ofModel_ne_ok_of_dynamic hoperator htensor hsource hdynamic)
  | error e =>
    refine ⟨e, ?_, ofModel_refuses hoperator e hop⟩
    intro standIn
    unfold Plan.ofOperator
    rw [hop]
    rfl

end Operation

/-! ### Graphs -/

namespace Graph

variable {g g' : Graph} {supply : GuidSupply} {drafts : List Draft}

/-- Every output slot has a descriptor whose sizes are known. -/
def Resolved (g : Graph) : Prop :=
  ∀ slot, g.HasOutput slot → ∃ info, g.info? slot = some info ∧ info.Resolved

theorem resolved_empty : Resolved .empty := by
  intro slot hslot
  obtain ⟨l, hl, -⟩ := hslot
  cases hl

/-- A graph stays resolved when drafts of known sizes are appended. -/
theorem Resolved.extend (h : g.Resolved)
    (hextends : Extends g (drafts.map Draft.content) g' supply)
    (hknown : ∀ d ∈ drafts, ∀ info ∈ d.infos, info.Resolved) : g'.Resolved := by
  intro slot hslot
  obtain ⟨c, hc, hindex⟩ := hasOutput_iff.mp hslot
  by_cases hold : slot.layer < g.layers.length
  · -- Nothing has happened to an older layer.
    have hcontent := hextends.content?_of_lt hold
    obtain ⟨info, hinfo, hresolved⟩ := h slot (hasOutput_iff.mpr ⟨c, hcontent ▸ hc, hindex⟩)
    exact ⟨info, (hextends.info?_of_lt hold).trans hinfo, hresolved⟩
  · obtain ⟨place, hplace⟩ := Nat.exists_eq_add_of_le (Nat.le_of_not_lt hold)
    rw [hplace, hextends.content?_new, List.getElem?_map, Option.map_eq_some_iff] at hc
    obtain ⟨d, hd, rfl⟩ := hc
    have hlt : slot.index < d.infos.length := by
      simpa [Draft.content] using hindex
    refine ⟨d.infos[slot.index], ?_, hknown d (List.mem_of_getElem? hd) _ (List.getElem_mem hlt)⟩
    have hcontent : g'.content? slot.layer = some d.content := by
      rw [hplace, hextends.content?_new, List.getElem?_map, hd, Option.map_some]
    rw [info?_of_draft hcontent, List.getElem?_eq_getElem hlt]

end Graph

/-! ### Lowerings -/

namespace Lowering

open LayerGraph.Graph

variable {model : Model} {standIn : Bool} {t t' : Lowering} {supply supply' : GuidSupply}
variable {index : Nat} {step : Step} {tensor : Int32} {op : Operation} {plan : Plan}
variable {sources : List (Nat × OutputRef)} {constants : List PendingConstant}

/-- An input is added for a tensor of known sizes only. -/
theorem resolved_addInput (h : t.graph.Resolved) (hvalid : Valid model standIn t supply)
    (hrun : (t.addInput tensor).run supply = .ok t' supply') : t'.graph.Resolved := by
  obtain ⟨index, source, info, hfound, hinfo, hextends, -⟩ := hvalid.addInput_eq_ok hrun
  obtain ⟨_, _, _, _, hfound', hknown, -⟩ := Lowering.addInput_eq_ok hrun
  rw [hvalid.sameModel, hfound] at hfound'
  cases hfound'
  rw [← List.map_singleton] at hextends
  apply h.extend hextends
  intro d hd found hmem
  obtain rfl := List.mem_singleton.mp hd
  obtain rfl := List.mem_singleton.mp hmem
  exact ModelTensor.info_resolved hinfo hknown

/-- An output has no output slots. -/
theorem resolved_addOutput (h : t.graph.Resolved) (hvalid : Valid model standIn t supply)
    (hrun : (t.addOutput tensor).run supply = .ok t' supply') : t'.graph.Resolved := by
  obtain ⟨index, source, producer, -, -, hextends, -⟩ := hvalid.addOutput_eq_ok hrun
  rw [← List.map_singleton] at hextends
  apply h.extend hextends
  intro d hd info hinfo
  obtain rfl := List.mem_singleton.mp hd
  cases hinfo

/-- The layers of an operator have descriptors of known sizes: the constants those of tensors that
    the operator reads, and the others those of the plan. -/
theorem Made.resolved_drafts (h : Made t op plan sources constants step supply')
    (hop : Operation.ofModel model index = .ok op)
    (hplan : Plan.ofOperator model index standIn = .ok plan) (hreads : op.ReadsOwn plan)
    (hpending : ∀ c ∈ constants, pendingConstant model index c.tensor = .ok c) :
    ∀ d ∈ stepDrafts plan sources constants t.graph.layers.length,
      ∀ info ∈ d.infos, info.Resolved := by
  have hplanned (layer : PlannedLayer) (hlayer : layer ∈ plan.layers) (info : TensorInfo)
      (hinfo : info ∈ layer.outputs) : info.Resolved :=
    Operation.resolved_of_plan hplan layer hlayer info (List.mem_append_right _ hinfo)
  intro d hd info hinfo
  rcases stepDrafts_cases hd with ⟨c, hc, rfl⟩ | ⟨layer, hlayer, p, rfl⟩ | ⟨slots, -, rfl⟩
  · obtain rfl := List.mem_singleton.mp hinfo
    have htensor : op.info c.tensor = .ok c.constant.info :=
      hasInfo_of_pendingConstant (hpending c hc) op (Operation.model_eq_of_ofModel hop)
    have hconsumed : c.tensor ∈ plan.consumed := by
      have hmem : c.tensor ∈ constants.map (·.tensor) := List.mem_map_of_mem hc
      rw [h.sourced.tensors] at hmem
      exact (List.mem_filter.mp hmem).1
    exact Operation.resolved_of_ofModel hop
      (List.mem_append_left _ (hreads c.tensor hconsumed)) htensor
  · apply hplanned layer _ info hinfo
    rcases hlayer with hfront | htail
    · exact List.mem_append_left _ hfront
    · exact List.mem_append_right _ (List.mem_cons_of_mem _ htail)
  · exact hplanned plan.primary (List.mem_append_right _ List.mem_cons_self) info hinfo

theorem resolved_lower (h : t.graph.Resolved) (hvalid : Valid model standIn t supply)
    (hrun : (t.lower index).run supply = .ok step supply') : step.lowering.graph.Resolved := by
  obtain ⟨op, plan, sources, constants, hop, hplan, hsources, hmade, -⟩ := hvalid.lower_eq_ok hrun
  have hpending := pending_of_sourcesOf hsources
  rw [hvalid.sameModel] at hpending
  have hreads : op.ReadsOwn plan := by
    obtain ⟨op', hop', hplan'⟩ := Except.bind_eq_ok_iff.mp hplan
    rw [hop] at hop'
    cases hop'
    exact Operation.plan_readsOwn plan hplan'
  exact h.extend hmade.extension (hmade.resolved_drafts hop hplan hreads hpending)

theorem resolved_of_start (h : (start model standIn).run supply = .ok t supply') :
    t.graph.Resolved := by
  refine start_invariant (P := fun t => t.graph.Resolved) ?_ resolved_empty h
  intro t s tensor t' s' hvalid hresolved hrun
  exact resolved_addInput hresolved hvalid hrun

/-- Whichever calls fail, the graph stays resolved. -/
theorem History.resolved_calls {history : History}
    (hvalid : Valid model standIn history.site.lowering history.site.supply)
    (h : history.site.lowering.graph.Resolved) (indices : List Nat) :
    (history.calls indices).site.lowering.graph.Resolved := by
  apply calls_invariant (P := fun t => t.graph.Resolved) _ hvalid h
  intro t supply index step supply' hvalid hresolved hrun
  exact resolved_lower hresolved hvalid hrun

theorem resolved_of_finish {g : Graph} (h : t.graph.Resolved)
    (hvalid : Valid model standIn t supply) (hrun : t.finish.run supply = .ok g supply') :
    g.Resolved := by
  obtain ⟨t', houtputs, -, rfl⟩ := finish_eq_ok_iff.mp hrun
  refine hvalid.addOutputs_prefix (P := fun _ t => t.graph.Resolved) ?_ h houtputs
  intro done t s tensor t' s' hvalid hresolved hstep
  exact resolved_addOutput hresolved hvalid hstep

/-! ### Dynamic inputs -/

/-- An input is refused for its own fault. -/
theorem addInput_eq_error {e : LoweringError}
    (h : (t.addInput tensor).run supply = .error e supply') :
    ∃ fault, e = .invalidBoundary .input tensor.toInt fault := by
  unfold addInput at h
  dsimp only at h
  split at h
  · split at h
    · cases h
      exact ⟨_, rfl⟩
    · split at h
      · rw [pure_bind] at h
        rcases Build.bind_eq_error_iff.mp h with hinsert | ⟨p, s, -, h⟩
        · obtain ⟨cause, -, rfl⟩ := Build.adaptExcept_eq_error_iff.mp hinsert
          exact ⟨_, rfl⟩
        rcases Build.bind_eq_error_iff.mp h with hinfo | ⟨g, s, -, h⟩
        · obtain ⟨cause, -, rfl⟩ := Build.adaptExcept_eq_error_iff.mp hinfo
          exact ⟨_, rfl⟩
        · cases h
      · cases h
        exact ⟨_, rfl⟩
  · cases h
    exact ⟨_, rfl⟩

/-- A model with an input of unknown sizes is not started. -/
theorem start_of_dynamic {k : Nat} {source : ModelTensor} (htensor : tensor ∈ model.inputs)
    (hsource : boundaryTensor? model tensor = some (k, source))
    (hdynamic : source.isDynamic = true) (standIn : Bool) (supply : GuidSupply) :
    ∃ other fault s, (start model standIn).run supply =
      .error (.invalidBoundary .input other fault) s := by
  cases hrun : (start model standIn).run supply with
  | ok t s =>
    -- Every input was added, so all of them have known sizes.
    have hknown : t.model = model ∧ ∀ tensor ∈ model.inputs, ∀ k source,
        boundaryTensor? model tensor = some (k, source) → source.isDynamic = false := by
      refine Build.foldlM_prefix (P := fun done t _ => t.model = model ∧ ∀ tensor ∈ done,
        ∀ k source, boundaryTensor? model tensor = some (k, source) → source.isDynamic = false)
        ?_ ⟨rfl, List.forall_mem_nil _⟩ hrun
      intro done tensor _ t s t' s' hdone hstep
      obtain ⟨_, source, _, _, hfound, hstatic, -, -, rfl⟩ := Lowering.addInput_eq_ok hstep
      obtain ⟨hmodel, hdone⟩ := hdone
      rw [hmodel] at hfound
      refine ⟨hmodel, List.forall_mem_append.mpr ⟨hdone, List.forall_mem_singleton.mpr ?_⟩⟩
      intro k source' hsource'
      rw [hfound] at hsource'
      cases hsource'
      exact hstatic
    have hstatic := hknown.2 tensor htensor k source hsource
    rw [hdynamic] at hstatic
    cases hstatic
  | error e s =>
    have hfault : ∃ other fault, e = .invalidBoundary .input other fault := by
      refine Build.foldlM_eq_error
        (p := fun e => ∃ other fault, e = .invalidBoundary .input other fault) ?_ hrun
      intro tensor _ t s e s' hstep
      obtain ⟨fault, rfl⟩ := addInput_eq_error hstep
      exact ⟨_, fault, rfl⟩
    obtain ⟨other, fault, rfl⟩ := hfault
    exact ⟨other, fault, s, rfl⟩

/-- An operator that cannot be planned leaves everything as it is. -/
theorem lower_of_unplanned {site : Site} {e : LoweringError}
    (h : Plan.ofOperator site.lowering.model index site.lowering.standIn = .error e) :
    (InPlace.lower index).run site = .error e site := by
  have hprepare : site.lowering.prepare index = .error e := by
    unfold prepare
    rw [h]
    rfl
  show InPlace.lower index site = _
  rw [InPlace.lower, hprepare]

/-! ### Resolved shapes -/

/-- Whatever is lowered and whatever is refused, every output slot of the graph has a descriptor
    whose sizes are known, and so has every slot of the finished graph. An executor is asked about
    such descriptors only. An input with a negative entry in its shape or in its signature keeps the
    model from being started, and an operator with such a tensor is refused by the lowering, which
    stays as it is, and by the support check. -/
theorem shapes_resolved (model : Model) (standIn : Bool) :
    (∀ supply indices history, History.over? model standIn supply indices = some history →
      history.site.lowering.graph.Resolved ∧
      ∀ g s, history.site.lowering.finish.run history.site.supply = .ok g s → g.Resolved) ∧
    (∀ index plan, Plan.ofOperator model index false = .ok plan → ∀ support,
      ∀ layer ∈ queried support plan.layers,
        ∀ info ∈ layer.inputs ++ layer.outputs, info.Resolved) ∧
    (∀ tensor ∈ model.inputs, ∀ k source, boundaryTensor? model tensor = some (k, source) →
      source.HasNegative → ∀ supply, ∃ other fault s,
        (start model standIn).run supply = .error (.invalidBoundary .input other fault) s) ∧
    ∀ index operator, model.operators[index]? = some operator →
      ∀ tensor ∈ operator.inputs ++ operator.outputs, ∀ k source,
        boundaryTensor? model tensor = some (k, source) → source.HasNegative →
        ∃ e, ((∃ other, e = .invalidTensor index other .noSuchTensor) ∨
            ∃ other, Operation.isDynamic model other = true ∧ e = .dynamicShape index other) ∧
          (∀ support, checkSupport model index support = .error e) ∧
          ∀ supply indices history, History.over? model standIn supply indices = some history →
            (InPlace.lower index).run history.site = .error e history.site := by
  refine ⟨?histories, ?support, ?inputs, ?operators⟩
  case histories =>
    intro supply indices history hhistory
    obtain ⟨t, s, hstart, rfl⟩ := History.exists_of_over? hhistory
    have hfirst := History.valid_first hstart
    have hvalid := History.valid_calls hfirst indices
    have hresolved := History.resolved_calls hfirst (resolved_of_start hstart) indices
    exact ⟨hresolved, fun g s hfinish => resolved_of_finish hresolved hvalid hfinish⟩
  case support =>
    intro index plan hplan support layer hlayer
    exact Operation.resolved_of_plan hplan layer (mem_of_queried hlayer)
  case inputs =>
    intro tensor htensor k source hsource hnegative supply
    exact start_of_dynamic htensor hsource (ModelTensor.isDynamic_iff.mpr hnegative) standIn supply
  case operators =>
    intro index operator hoperator tensor htensor k source hsource hnegative
    obtain ⟨e, hplan, hreason⟩ := Operation.refused_of_dynamic hoperator htensor hsource
      (ModelTensor.isDynamic_iff.mpr hnegative)
    refine ⟨e, hreason, ?_, ?_⟩
    · intro support
      unfold checkSupport
      rw [hplan]
      rfl
    · intro supply indices history hhistory
      obtain ⟨t, s, hstart, rfl⟩ := History.exists_of_over? hhistory
      have hvalid := History.valid_calls (History.valid_first hstart) indices
      apply lower_of_unplanned
      rw [hvalid.sameModel]
      exact hplan _

/-- A model with a size that is only known when it is computed. The signature says so, at a place
    where the shape has no entry. -/
def openBatch : Model where
  tensors := [
    { name := "x", shape := [1], signature := some [1, -1], storage := .float32 },
    { name := "y", shape := [1], storage := .float32 }]
  operators := [{ code := .relu, inputs := [0], outputs := [1] }]
  inputs := [0]
  outputs := [1]

theorem shapes_resolved_examples :
    (∃ history, History.over? raisedConstant false .initial [0, 7] = some history ∧
      history.site.lowering.graph.layers.length = 5 ∧ history.site.lowering.graph.Resolved) ∧
    (∃ other fault s, (start openBatch true).run .initial =
      .error (.invalidBoundary .input other fault) s) ∧
    ∃ e, (∀ support, checkSupport openBatch 0 support = .error e) ∧
      Plan.ofOperator openBatch 0 false = .error e := by
  have hhistory : (History.over? raisedConstant false .initial [0, 7]).map
      (fun history => history.site.lowering.graph.layers.length) = some 5 := by
    decide +kernel
  obtain ⟨history, hover, hlength⟩ := Option.map_eq_some_iff.mp hhistory
  obtain ⟨hresolved, -⟩ := shapes_resolved raisedConstant false
  obtain ⟨-, -, hinputs, hoperators⟩ := shapes_resolved openBatch true
  have hopen : boundaryTensor? openBatch 0 =
      some (0, { name := "x", shape := [1], signature := some [1, -1], storage := .float32 }) := by
    decide
  have hnegative : ModelTensor.HasNegative
      { name := "x", shape := [1], signature := some [1, -1], storage := .float32 } := by
    apply ModelTensor.isDynamic_iff.mp
    decide
  refine ⟨⟨history, hover, hlength, (hresolved _ _ _ hover).1⟩, ?_, ?_⟩
  · exact hinputs 0 (by decide) 0 _ hopen hnegative .initial
  · obtain ⟨e, -, hcheck, -⟩ := hoperators 0 _ rfl 0 (by decide) 0 _ hopen hnegative
    refine ⟨e, hcheck, ?_⟩
    have hasked := hcheck fun _ => ⟨true, ""⟩
    unfold checkSupport at hasked
    cases hplan : Plan.ofOperator openBatch 0 false with
    | ok plan =>
      rw [hplan] at hasked
      cases hasked
    | error e' =>
      rw [hplan] at hasked
      cases hasked
      rfl

end Lowering

end LayerGraph
