import LayerGraph.Proofs.Container.Rewriting
import LayerGraph.Proofs.Lowering.Steps

/-! # Storing a graph that was lowered

  The descriptors of a lowered graph come from the model, and those of its tensors are consistent.
  Only the reshapes that are made in front of a layer have descriptors of their own: the shape is
  new, the scales are those of the tensor. Scales along an axis may be at another dimension then.
  Main statement: the container of a lowered graph is read as the same graph when the reshapes are
  consistent, and is refused when one of them is not (`container_of_toGraph`).
-/

namespace LayerGraph

/-! ### Profiles that can be stored -/

/-- A layer that can be read back as far as the numbers of scales go. -/
def LayerProfile.Fair (p : LayerProfile) : Prop := p.1.Storable ∧ ∀ info ∈ p.2, info.Scaled

/-- A layer with consistent descriptors. -/
def LayerProfile.Consistent (p : LayerProfile) : Prop := ∀ info ∈ p.2, info.Consistent

namespace Graph

variable {g : Graph}

theorem mem_profile_infos {c : LayerContent} {info : TensorInfo} :
    info ∈ c.profile.2 ↔ some info ∈ c.infos := by
  simp [LayerContent.profile]

theorem scaled_of_profile (h : ∀ p ∈ g.profile, LayerProfile.Fair p) : g.Scaled := by
  intro id c hc
  obtain ⟨hkind, hinfos⟩ := h c.profile (mem_profile_iff.mpr ⟨id, c, hc, rfl⟩)
  refine ⟨fun info hinfo => ?_, fun t ht => ?_, hkind.evenParts⟩
  · exact hinfos info (mem_profile_infos.mpr hinfo)
  · exact (hkind.constants t ht).scaled

theorem storable_iff_of_profile (h : ∀ p ∈ g.profile, LayerProfile.Fair p) :
    g.Storable ↔ ∀ p ∈ g.profile, LayerProfile.Consistent p := by
  constructor
  · intro hstore p hp info hinfo
    obtain ⟨id, c, hc, rfl⟩ := mem_profile_iff.mp hp
    exact (hstore id c hc).infos info (mem_profile_infos.mp hinfo)
  · intro hconsistent id c hc
    have hp : c.profile ∈ g.profile := mem_profile_iff.mpr ⟨id, c, hc, rfl⟩
    refine ⟨fun info hinfo => ?_, (h c.profile hp).1⟩
    exact hconsistent c.profile hp info (mem_profile_infos.mpr hinfo)

end Graph

/-! ### Plans -/

namespace Operation

variable {op : Operation} {plan : Plan}

theorem Sound.fair (h : op.Sound plan) :
    ∀ layer ∈ plan.layers, LayerProfile.Fair layer.profile := by
  intro layer hmem
  rcases List.mem_append.mp hmem with hreshape | hrest
  · obtain ⟨r, hr, rfl⟩ := List.mem_map.mp hreshape
    obtain ⟨info, target, hinfo, hkind, houtputs⟩ := h.reshapes r hr
    constructor
    · show r.2.kind.Storable
      rw [hkind]
      exact storable_of_no_constants rfl trivial
    · show ∀ found ∈ r.2.outputs, found.Scaled
      rw [houtputs, List.forall_mem_singleton]
      exact (info_consistent hinfo).scaled
  · exact ⟨h.kinds layer hrest, fun info hinfo => (h.infos layer hrest info hinfo).scaled⟩

/-- Only the reshapes in front decide whether all descriptors are consistent. -/
theorem Sound.consistent_iff (h : op.Sound plan) :
    (∀ layer ∈ plan.layers, LayerProfile.Consistent layer.profile) ↔
      ∀ r ∈ plan.reshapes, ∀ info ∈ r.2.outputs, info.Consistent := by
  unfold Plan.layers
  rw [List.forall_mem_append, List.forall_mem_map]
  exact and_iff_left h.infos

end Operation

/-! ### What was lowered -/

namespace Model

/-- The reshapes in front of the layer of an operator have consistent descriptors. -/
def ReshapesAgree (model : Model) (standIn : Bool) (index : Nat) : Prop :=
  ∀ plan ∈ (Plan.ofOperator model index standIn).toOption, ∀ r ∈ plan.reshapes,
    ∀ info ∈ r.2.outputs, info.Consistent

instance (model : Model) (standIn : Bool) (index : Nat) :
    Decidable (model.ReshapesAgree standIn index) := by
  unfold ReshapesAgree
  infer_instance

/-- So do those of all operators. -/
def ReshapesConsistent (model : Model) (standIn : Bool) : Prop :=
  ∀ index ∈ List.range model.operators.length, model.ReshapesAgree standIn index

instance (model : Model) (standIn : Bool) : Decidable (model.ReshapesConsistent standIn) := by
  unfold ReshapesConsistent
  infer_instance

theorem reshapesAgree_iff {model : Model} {standIn : Bool} {index : Nat} {plan : Plan}
    (h : Plan.ofOperator model index standIn = .ok plan) :
    model.ReshapesAgree standIn index ↔
      ∀ r ∈ plan.reshapes, ∀ info ∈ r.2.outputs, info.Consistent := by
  simp [ReshapesAgree, h, Except.toOption]

/-- Scales agree with any shape when no tensor has several of them. -/
theorem reshapesConsistent_of_single_scales {model : Model} {standIn : Bool}
    (h : ∀ t ∈ model.tensors, ∀ q ∈ t.quantization, q.scales.length ≤ 1) :
    model.ReshapesConsistent standIn := by
  intro index _ plan hplan
  have hok : Plan.ofOperator model index standIn = .ok plan := by
    cases hof : Plan.ofOperator model index standIn with
    | ok found =>
      rw [hof] at hplan
      cases hplan
      rfl
    | error e =>
      rw [hof] at hplan
      cases hplan
  obtain ⟨op, hop, hplanned⟩ := Plan.ofOperator_planned hok
  intro r hr
  obtain ⟨info, target, hinfo, -, houtputs⟩ := hplanned.sound.reshapes r hr
  rw [houtputs, List.forall_mem_singleton]
  apply TensorInfo.consistent_of_axis_eq_none
  show info.quantization.axis? = none
  apply ModelTensor.info_axis_eq_none (Operation.info_eq_ok hinfo)
  -- A position beyond the tensors stands for one without quantization.
  unfold Operation.tensor
  rw [Operation.model_eq_of_ofModel hop, List.getD_eq_getElem?_getD]
  cases ht : model.tensors[r.1]? with
  | some t => exact h t (List.mem_of_getElem? ht)
  | none =>
    intro q hq
    cases hq

end Model

namespace Lowering

open LayerGraph.Graph Container

/-- A lowering after some operators of a model. -/
structure Progress (model : Model) (standIn : Bool) (done : List Nat) (t : Lowering)
    (supply : GuidSupply) : Prop where
  valid : Valid model standIn t supply
  fair : ∀ p ∈ t.graph.profile, LayerProfile.Fair p
  /-- Only the reshapes of operators can have inconsistent descriptors. -/
  consistent_iff : (∀ p ∈ t.graph.profile, LayerProfile.Consistent p) ↔
    ∀ index ∈ done, model.ReshapesAgree standIn index

variable {model : Model} {standIn : Bool} {done : List Nat} {t t' : Lowering} {tensor : Int32}
variable {supply supply' : GuidSupply} {gain : List LayerContent} {d : Draft}

theorem progress_start (model : Model) (standIn : Bool) (supply : GuidSupply) :
    Progress model standIn [] ⟨model, standIn, .empty, []⟩ supply where
  valid := valid_start model standIn supply
  fair := by simp [Graph.profile, Graph.empty]
  consistent_iff := by simp [Graph.profile, Graph.empty]

/-- The profiles of some more operators are added. -/
theorem Progress.extend (h : Progress model standIn done t supply) (more : List Nat)
    (hvalid : Valid model standIn t' supply') (hextends : Extends t.graph gain t'.graph supply')
    (hfair : ∀ p ∈ gain.map LayerContent.profile, LayerProfile.Fair p)
    (hiff : (∀ p ∈ gain.map LayerContent.profile, LayerProfile.Consistent p) ↔
      ∀ index ∈ more, model.ReshapesAgree standIn index) :
    Progress model standIn (done ++ more) t' supply' where
  valid := hvalid
  fair := by
    rw [hextends.profile]
    exact List.forall_mem_append.mpr ⟨h.fair, hfair⟩
  consistent_iff := by
    rw [hextends.profile, List.forall_mem_append, List.forall_mem_append, h.consistent_iff, hiff]

/-- A boundary layer is added. -/
theorem Progress.boundary (h : Progress model standIn done t supply) (direction : Direction)
    {binding : BindingId} (hkind : d.kind = direction.kind binding)
    (hinfos : ∀ info ∈ d.infos, info.Consistent) (hvalid : Valid model standIn t' supply')
    (hextends : Extends t.graph [d.content] t'.graph supply') :
    Progress model standIn done t' supply' := by
  have hstorable : d.kind.Storable := by
    rw [hkind]
    cases direction <;> exact ⟨by simp [Direction.kind, LayerKind.constants], trivial⟩
  have hprogress := h.extend [] hvalid hextends ?_ ?_
  · rw [List.append_nil] at hprogress
    exact hprogress
  · rw [List.map_singleton, List.forall_mem_singleton, Draft.profile_content]
    exact ⟨hstorable, fun info hinfo => (hinfos info hinfo).scaled⟩
  · rw [List.map_singleton, List.forall_mem_singleton, Draft.profile_content]
    exact iff_of_true hinfos (List.forall_mem_nil _)

theorem Progress.addInput (h : Progress model standIn done t supply)
    (hrun : (t.addInput tensor).run supply = .ok t' supply') :
    Progress model standIn done t' supply' := by
  obtain ⟨index, source, info, -, hinfo, hextends, -, hvalid⟩ := h.valid.addInput_eq_ok hrun
  refine h.boundary .input rfl ?_ hvalid hextends
  exact List.forall_mem_singleton.mpr (ModelTensor.info_consistent hinfo)

theorem Progress.addOutput (h : Progress model standIn done t supply)
    (hrun : (t.addOutput tensor).run supply = .ok t' supply') :
    Progress model standIn done t' supply' := by
  obtain ⟨index, source, producer, -, -, hextends, -, hvalid⟩ := h.valid.addOutput_eq_ok hrun
  exact h.boundary .output rfl (List.forall_mem_nil _) hvalid hextends

/-- The layers of an operator are added. -/
theorem Progress.lower {index : Nat} {step : Step} (h : Progress model standIn done t supply)
    (hrun : (t.lower index).run supply = .ok step supply') :
    Progress model standIn (done ++ [index]) step.lowering supply' := by
  obtain ⟨op, plan, sources, constants, -, hplan, -, hmade, hvalid⟩ := h.valid.lower_eq_ok hrun
  have hsound : op.Sound plan := hmade.planned.sound
  have hconstants := hmade.sourced.consistent
  refine h.extend [index] hvalid hmade.extension ?_ ?_
  · rw [profile_stepDrafts, List.forall_mem_append, List.forall_mem_map, List.forall_mem_map]
    refine ⟨fun c hc => ⟨⟨?_, trivial⟩, ?_⟩, hsound.fair⟩
    · exact List.forall_mem_singleton.mpr (hconstants c hc)
    · exact List.forall_mem_singleton.mpr (hconstants c hc).scaled
  · rw [profile_stepDrafts, List.forall_mem_append, List.forall_mem_map, List.forall_mem_map,
      hsound.consistent_iff, List.forall_mem_singleton, Model.reshapesAgree_iff hplan]
    exact and_iff_right fun c hc => List.forall_mem_singleton.mpr (hconstants c hc)

end Lowering

/-! ### The container of a lowered graph -/

open LayerGraph.Graph Lowering Container

variable {model : Model} {standIn : Bool} {supply supply' : GuidSupply} {g : Graph}
variable {bytes : List UInt8}

/-- What a lowered graph is like. -/
theorem Model.toGraph_progress (h : (model.toGraph standIn).run supply = .ok g supply') :
    ∃ t, t.graph = g ∧
      Progress model standIn (List.range model.operators.length) t supply' := by
  unfold Model.toGraph at h
  obtain ⟨t₁, s₁, hstart, h⟩ := Build.bind_eq_ok_iff.mp h
  obtain ⟨t₂, s₂, hlower, h⟩ := Build.bind_eq_ok_iff.mp h
  have hstarted : Progress model standIn [] t₁ s₁ :=
    Build.foldlM_invariant (fun _ _ _ _ _ _ => Progress.addInput) (progress_start _ _ _) hstart
  have hlowered : Progress model standIn (List.range model.operators.length) t₂ s₂ := by
    refine Build.foldlM_prefix (P := Progress model standIn) ?_ hstarted hlower
    intro done index _ t s t' s' hdone hstep
    obtain ⟨step, s₃, hrun, heq⟩ := Build.bind_eq_ok_iff.mp hstep
    obtain ⟨rfl, rfl⟩ := Build.pure_eq_ok_iff.mp heq
    exact hdone.lower hrun
  obtain ⟨t₃, houtputs, -, heq⟩ := finish_eq_ok_iff.mp h
  have hfinished : Progress model standIn (List.range model.operators.length) t₃ supply' :=
    Build.foldlM_invariant (fun _ _ _ _ _ _ => Progress.addOutput) hlowered houtputs
  exact ⟨t₃, heq, hfinished⟩

/-- The container of a lowered graph is read as the same graph, layer by layer, when the reshapes
    are consistent. Otherwise it is refused. -/
theorem container_of_toGraph (h : (model.toGraph standIn).run supply = .ok g supply')
    (hbytes : g.serialize = .ok bytes) :
    (model.ReshapesConsistent standIn → ∀ t, ∃ g' t', (deserialize bytes).run t = .ok g' t' ∧
      Alike g g') ∧
    (¬ model.ReshapesConsistent standIn → ∀ t, ∃ e t', (deserialize bytes).run t = .error e t') := by
  obtain ⟨lowered, rfl, hprogress⟩ := Model.toGraph_progress h
  have hg : lowered.graph.Coherent := hprogress.valid.grown.sound.coherent
  have hstore : lowered.graph.Storable ↔ model.ReshapesConsistent standIn :=
    (storable_iff_of_profile hprogress.fair).trans hprogress.consistent_iff
  constructor
  · intro hconsistent t
    obtain ⟨g', t', hrun, hrenumbered⟩ := hg.exists_deserialize (hstore.mpr hconsistent) hbytes t
    exact ⟨g', t', hrun, hrenumbered.alike hg hprogress.valid.grown.forward⟩
  · intro hbad t
    have hscaled := scaled_of_profile hprogress.fair
    exact hg.deserialize_eq_error hscaled (fun h => hbad (hstore.mp h)) hbytes t

/-- A model that adds a tensor of three scales to one of two dimensions. The first is reshaped from
    `[3]` to `[1, 3]`, and its scales stay at the axis in front. -/
def raisedOperand : Model where
  tensors := [
    { name := "a", shape := [3], storage := .int8, quantization := some { scales := [1, 2, 3] } },
    { name := "b", shape := [1, 3], storage := .float32 },
    { name := "c", shape := [1, 3], storage := .float32 }]
  operators := [{ code := .add, inputs := [0, 1], outputs := [2] }]
  inputs := [0, 1]
  outputs := [2]

theorem container_of_toGraph_raisedOperand :
    ∃ g supply bytes, (raisedOperand.toGraph false).run .initial = .ok g supply ∧
      g.serialize = .ok bytes ∧ ¬ raisedOperand.ReshapesConsistent false ∧
      ∀ t, ∃ e t', (deserialize bytes).run t = .error e t' := by
  have hbad : ¬ raisedOperand.ReshapesConsistent false := by decide +kernel
  have hcheck : (match (raisedOperand.toGraph false).run .initial with
      | .ok g _ => g.serialize.toOption.isSome
      | .error _ _ => false) = true := by decide +kernel
  cases hrun : (raisedOperand.toGraph false).run .initial with
  | ok g supply =>
    rw [hrun] at hcheck
    cases hbytes : g.serialize with
    | ok bytes => exact ⟨g, supply, bytes, rfl, hbytes, hbad, (container_of_toGraph hrun hbytes).2 hbad⟩
    | error e => simp [hbytes, Except.toOption] at hcheck
  | error e supply =>
    rw [hrun] at hcheck
    cases hcheck

end LayerGraph
