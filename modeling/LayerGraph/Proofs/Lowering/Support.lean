import LayerGraph.Lowering.Verdict
import LayerGraph.Proofs.Lowering.Failures
import LayerGraph.Proofs.Lowering.Producers

/-! # Support checks are about the layers that are built

  An executor is asked about the layers of a plan, with descriptors that are computed from the
  tensors of the model. The layers are built later, and read what other operators, constants or
  inputs wrote. Main statement: the executor is asked about exactly the layers that are built, with
  the descriptors that are recorded in the graph (`support_of_built`).

  Two facts are carried to it. Within a plan, a layer states the descriptor of the tensor that it
  reads, or of the layer of the plan that it reads (`Operation.Labelled`). And in a lowering, the
  slot that produces a tensor has the descriptor of the tensor (`Lowering.Labelled`), whichever
  operators were lowered or refused before.
-/

namespace LayerGraph

theorem mapM_eq_some_of_forall₂ {α β : Type} {f : α → Option β} {xs : List α} {ys : List β}
    (h : List.Forall₂ (fun x y => f x = some y) xs ys) : xs.mapM f = some ys := by
  induction h with
  | nil => rfl
  | cons hxy _ ih =>
    rw [List.mapM_cons, hxy, ih]
    rfl

theorem forall₂_set {α β : Type} {r : α → β → Prop} {xs : List α} {ys : List β} {x : α} {y : β}
    (h : List.Forall₂ r xs ys) (hxy : r x y) (index : Nat) :
    List.Forall₂ r (xs.set index x) (ys.set index y) := by
  induction h generalizing index with
  | nil => exact .nil
  | cons hfirst hrest ih =>
    cases index with
    | zero => exact .cons hxy hrest
    | succ index => exact .cons hfirst (ih index)

/-- The last item of a list that has a first one. -/
theorem getElem?_length_cons {α : Type} (first : α) (rest : List α) :
    (first :: rest)[rest.length]? = some (rest.getLastD first) := by
  induction rest generalizing first with
  | nil => rfl
  | cons next rest ih =>
    rw [List.length_cons, List.getElem?_cons_succ, ih, List.getLastD_cons]

/-! ### Verdicts -/

variable {support : LayerSupport}

theorem supported_verdictOn (support : LayerSupport) (layers : List PlannedLayer) :
    (verdictOn support layers).supported = true ↔
      ∀ layer ∈ layers, (support layer).supported = true := by
  induction layers with
  | nil => simp [verdictOn]
  | cons layer layers ih =>
    by_cases hlayer : (support layer).supported = true
    · simp [verdictOn, hlayer, ih]
    · simp [verdictOn, hlayer]

/-- An executor that can run everything is asked about every layer. -/
theorem queried_of_supported (h : ∀ layer, (support layer).supported = true)
    (layers : List PlannedLayer) : queried support layers = layers := by
  induction layers with
  | nil => rfl
  | cons layer layers ih => rw [queried, if_pos (h layer), ih]

/-! ### Descriptors within a plan -/

namespace Operation

variable {op : Operation} {plan : Plan} {k : Nat} {info : TensorInfo}

theorem info_eq_ok_iff : op.info k = .ok info ↔ (op.tensor k).info = .ok info := by
  refine ⟨info_eq_ok, fun h => ?_⟩
  rw [Operation.info, h]

/-- What a slot reads has the descriptor, if it is a tensor or one of the reshapes. -/
def Provides (op : Operation) (reshapes : List (Nat × PlannedLayer)) :
    SlotSource → TensorInfo → Prop
  | .tensor k, info => op.info k = .ok info
  | .reshape r, info => ∃ entry, reshapes[r]? = some entry ∧ entry.2.outputs = [info]

/-- What the layers of a plan state about their inputs and outputs. -/
structure Labelled (op : Operation) (plan : Plan) : Prop where
  /-- A reshape reads a tensor. -/
  reshapes : ∀ r ∈ plan.reshapes, ∃ info, op.info r.1 = .ok info ∧ r.2.inputs = [info]
  /-- The primary layer reads tensors and reshapes. -/
  inputs : List.Forall₂ (op.Provides plan.reshapes) plan.inputs plan.primary.inputs
  /-- A layer behind it reads the layer before. -/
  tail : ∀ (place : Nat) (before layer : PlannedLayer),
    (plan.primary :: plan.tail)[place]? = some before → plan.tail[place]? = some layer →
    layer.inputs = before.outputs.take 1
  /-- The last layer writes the outputs. -/
  outputs : List.Forall₂ (fun k info => op.info k = .ok info) plan.outputs
    (plan.tail.getLastD plan.primary).outputs

theorem layer_labelled {kind : LayerKind} {name : String} {connected : List Nat}
    (h : op.layer kind name connected = .ok plan) : op.Labelled plan := by
  obtain ⟨inputs, outputs, hinputs, houtputs, rfl⟩ := layer_eq_ok h
  refine ⟨List.forall_mem_nil _, ?_, ?_, Except.mapM_eq_ok_iff.mp houtputs⟩
  · rw [List.forall₂_map_left_iff]
    exact Except.mapM_eq_ok_iff.mp hinputs
  · intro place before layer _ hlayer
    cases hlayer

theorem Labelled.reshapeInput {slot tensor : Nat} {target : List UInt32} (h : op.Labelled plan)
    (hinfo : op.info tensor = .ok info) :
    op.Labelled (plan.reshapeInput slot tensor info target) where
  reshapes := by
    intro r hr
    rcases List.mem_append.mp hr with hold | hnew
    · exact h.reshapes r hold
    · rw [List.mem_singleton.mp hnew]
      exact ⟨info, hinfo, rfl⟩
  inputs := by
    -- The slots that read reshapes still read the same ones.
    have hkept : List.Forall₂ (op.Provides (plan.reshapeInput slot tensor info target).reshapes)
        plan.inputs plan.primary.inputs := by
      refine h.inputs.imp ?_
      intro source found hprovides
      cases source with
      | tensor k => exact hprovides
      | reshape r =>
        obtain ⟨entry, hentry, houtputs⟩ := hprovides
        refine ⟨entry, ?_, houtputs⟩
        show (plan.reshapes ++ [_])[r]? = some entry
        rw [List.getElem?_append_left (List.getElem?_eq_some_iff.mp hentry).1, hentry]
    refine forall₂_set hkept ?_ slot
    show ∃ entry, (plan.reshapes ++ [_])[plan.reshapes.length]? = some entry ∧ _
    rw [List.getElem?_concat_length]
    exact ⟨_, rfl, rfl⟩
  tail := by
    intro place before layer hbefore hlayer
    cases place with
    | zero =>
      cases hbefore
      exact h.tail 0 plan.primary layer rfl hlayer
    | succ place => exact h.tail (place + 1) before layer hbefore hlayer
  outputs := by
    have hlast : (plan.tail.getLastD (plan.reshapeInput slot tensor info target).primary).outputs =
        (plan.tail.getLastD plan.primary).outputs := by
      rw [List.getLastD_eq_getLast?, List.getLastD_eq_getLast?]
      cases plan.tail.getLast? <;> rfl
    show List.Forall₂ _ plan.outputs (plan.tail.getLastD _).outputs
    rw [hlast]
    exact h.outputs

theorem Labelled.fuse {plan' : Plan} (h : op.Labelled plan) (hone : plan.outputs.length = 1)
    (hfuse : op.fuse plan = .ok plan') : op.Labelled plan' := by
  rcases fuse_eq_ok hfuse with rfl | ⟨params, name, rfl⟩
  · exact h
  · refine ⟨h.reshapes, h.inputs, ?_, ?_⟩
    · intro place before layer hbefore hlayer
      rcases Nat.lt_trichotomy place plan.tail.length with hlt | rfl | hgt
      · -- A layer that was there before follows the one that it followed.
        refine h.tail place before layer ?_ ?_
        · rw [← hbefore]
          show _ = (plan.primary :: plan.tail ++ [_])[place]?
          rw [List.getElem?_append_left (by simpa using Nat.lt_succ_of_lt hlt)]
        · rw [← hlayer]
          show _ = (plan.tail ++ [_])[place]?
          rw [List.getElem?_append_left hlt]
      · -- The activation follows the layer that was the last one, and reads what it writes.
        have hlast : (plan.primary :: plan.tail ++ [_])[plan.tail.length]? = some before := hbefore
        rw [List.getElem?_append_left (Nat.lt_succ_self _), getElem?_length_cons] at hlast
        have hnew : (plan.tail ++ [_])[plan.tail.length]? = some layer := hlayer
        rw [List.getElem?_concat_length] at hnew
        cases hlast
        cases hnew
        rfl
      · -- Nothing follows the activation.
        have hnone : (plan.tail ++ [_])[place]? = some layer := hlayer
        rw [List.getElem?_eq_none (by simpa using Nat.succ_le_of_lt hgt)] at hnone
        cases hnone
    · -- The activation writes what the last layer wrote, which is one tensor.
      have hlength : (plan.tail.getLastD plan.primary).outputs.length = 1 := by
        rw [← h.outputs.length_eq, hone]
      show List.Forall₂ _ plan.outputs ((plan.tail ++ [_]).getLastD plan.primary).outputs
      rw [List.getLastD_concat, List.take_of_length_le hlength.le]
      exact h.outputs

/-- The layers of every plan state the descriptors of the tensors that they read and write. -/
theorem Planned.labelled (h : op.Planned plan) : op.Labelled plan := by
  induction h with
  | layer _ h => exact layer_labelled h
  | reshaped _ hinfo ih => exact ih.reshapeInput hinfo
  | fused hplanned hone hfuse ih =>
    refine ih.fuse ?_ hfuse
    rw [hplanned.covered.outputs, hone]

end Operation

/-! ### Descriptors in a graph -/

namespace Graph

variable {g g' : Graph} {id : LayerId} {slot : OutputRef} {planned : PlannedLayer}
variable {sources : List OutputRef} {d : Draft} {gain : List LayerContent} {supply : GuidSupply}

/-- What an executor has to be asked about the layer at a position: whether it runs a layer of this
    kind on the tensors that are recorded where the layer reads them, and where it writes them. -/
def query? (g : Graph) (id : LayerId) : Option PlannedLayer := do
  let layer ← g.layers[id]?
  let inputs ← layer.inputs.mapM fun (source : Option OutputRef) => source.bind g.info?
  let outputs ← layer.outputs.mapM OutputSlot.info
  return ⟨layer.kind, layer.name, inputs, outputs⟩

/-- A planned layer that was made is asked about as planned when it reads the descriptors that it
    states. -/
theorem query?_of_draft (hc : g.content? id = some (planned.draft sources).content)
    (hinputs : List.Forall₂ (fun p info => g.info? p = some info) sources planned.inputs) :
    g.query? id = some planned := by
  obtain ⟨l, hl, hcontent⟩ := Option.map_eq_some_iff.mp hc
  have hkind : l.kind = planned.kind := congrArg LayerContent.kind hcontent
  have hname : l.name = planned.name := congrArg LayerContent.name hcontent
  have hread : l.inputs = sources.map some := congrArg LayerContent.inputs hcontent
  have hwritten : l.outputs.map (·.info) = planned.outputs.map some :=
    congrArg LayerContent.infos hcontent
  -- What the layer reads has the descriptors that were planned, and what it writes has them by its
  -- content.
  have hmapped : (sources.map some).mapM (fun (source : Option OutputRef) => source.bind g.info?) =
      some planned.inputs := by
    refine mapM_eq_some_of_forall₂ ?_
    rw [List.forall₂_map_left_iff]
    exact hinputs
  have houtputs : l.outputs.mapM OutputSlot.info = some planned.outputs := by
    refine mapM_eq_some_of_forall₂ ?_
    rw [← List.forall₂_map_right_iff (f := some), ← hwritten, List.forall₂_map_right_iff]
    exact List.forall₂_same.mpr fun _ _ => rfl
  rw [query?, hl]
  show ((l.inputs.mapM fun (source : Option OutputRef) => source.bind g.info?).bind fun inputs =>
    (l.outputs.mapM OutputSlot.info).bind fun outputs =>
      some (⟨l.kind, l.name, inputs, outputs⟩ : PlannedLayer)) = some planned
  rw [hread, hmapped, houtputs, hkind, hname]
  rfl

end Graph

/-! ### Descriptors of the tensors that are produced -/

/-- The descriptor says that a tensor is constant when the tensor has values. -/
theorem ModelTensor.info_isConstant {t : ModelTensor} {info : TensorInfo} (h : t.info = .ok info) :
    info.isConstant = t.isConstant := by
  unfold ModelTensor.info at h
  obtain ⟨elementType, -, h⟩ := Except.bind_eq_ok_iff.mp h
  split at h
  · cases h
    rfl
  · split at h
    · cases h
      rfl
    · obtain ⟨offset, -, h⟩ := Except.bind_eq_ok_iff.mp h
      cases h
      rfl
    · obtain ⟨offset, -, h⟩ := Except.bind_eq_ok_iff.mp h
      obtain ⟨described, -, h⟩ := Except.bind_eq_ok_iff.mp h
      cases h
      rfl

namespace Lowering

open LayerGraph.Graph

variable {model : Model} {standIn : Bool} {t t' : Lowering} {supply supply' : GuidSupply}
variable {index : Nat} {op : Operation} {plan : Plan} {sources : List (Nat × OutputRef)}
variable {constants : List PendingConstant} {step : Step} {info : TensorInfo} {k : Nat}
variable {layer : PlannedLayer}

/-- The tensor at a position has the descriptor, for every operation of the model. -/
def HasInfo (model : Model) (k : Nat) (info : TensorInfo) : Prop :=
  ∀ op : Operation, op.model = model → op.info k = .ok info

theorem hasInfo_of_tensor {source : ModelTensor} (hk : model.tensors[k]? = some source)
    (hinfo : source.info = .ok info) : HasInfo model k info := by
  rintro op rfl
  rw [Operation.info_eq_ok_iff, Operation.tensor, List.getD_eq_getElem?_getD, hk]
  exact hinfo

theorem hasInfo_of_operation (hop : op.model = model) (h : op.info k = .ok info) :
    HasInfo model k info := by
  intro op' hop'
  rw [Operation.info_eq_ok_iff] at h ⊢
  rwa [Operation.tensor, hop', ← hop]

/-- The constant of a tensor has the descriptor of the tensor, which says already that it is
    constant. -/
theorem hasInfo_of_pendingConstant {operator tensor : Nat} {c : PendingConstant}
    (h : pendingConstant model operator tensor = .ok c) :
    HasInfo model tensor c.constant.info := by
  obtain ⟨source, data, info, constant, hsource, hdata, hinfo, hconstant, rfl⟩ :=
    pendingConstant_eq_ok_iff.mp h
  have hflag : info.isConstant = true := by
    rw [ModelTensor.info_isConstant hinfo, ModelTensor.isConstant, hdata]
    rfl
  have hsame : info.withConstant true = info := by
    rw [TensorInfo.withConstant, ← hflag]
  show HasInfo model tensor constant.info
  rw [(Constant.ofBytes_eq_ok_iff.mp hconstant).2.1, hsame]
  exact hasInfo_of_tensor hsource hinfo

/-- The slots that produce tensors have the descriptors of the tensors. -/
def Labelled (model : Model) (t : Lowering) : Prop :=
  ∀ entry ∈ t.producers, ∃ info, HasInfo model entry.1 info ∧ t.graph.info? entry.2 = some info

theorem Labelled.addInput {tensor : Int32} (h : Labelled model t)
    (hvalid : Valid model standIn t supply)
    (hrun : (t.addInput tensor).run supply = .ok t' supply') : Labelled model t' := by
  obtain ⟨index, source, info, hfound, hinfo, hextends, hproducers, -⟩ :=
    hvalid.addInput_eq_ok hrun
  have hsource : model.tensors[index]? = some source := by
    unfold boundaryTensor? at hfound
    split at hfound
    · cases hfound
    · obtain ⟨source', hsource', heq⟩ := Option.map_eq_some_iff.mp hfound
      cases heq
      exact hsource'
  unfold Labelled
  rw [hproducers]
  refine List.forall_mem_cons.mpr ⟨⟨info, hasInfo_of_tensor hsource hinfo, ?_⟩, ?_⟩
  · exact info?_of_draft (p := ⟨_, 0⟩) (hextends.content?_new 0)
  · intro entry hentry
    obtain ⟨info, htensor, hslot⟩ := h entry hentry
    refine ⟨info, htensor, ?_⟩
    rw [hextends.info?_of_lt (hvalid.lt_of_produced hentry), hslot]

theorem labelled_of_start (h : (start model standIn).run supply = .ok t supply') :
    Labelled model t := by
  refine start_invariant ?_ (List.forall_mem_nil _) h
  intro t s tensor t' s' hvalid hlabelled hrun
  exact hlabelled.addInput hvalid hrun

/-! ### Descriptors of the layers that were made -/

theorem Made.info?_constant (h : Made t op plan sources constants step supply')
    (hpending : ∀ c ∈ constants, pendingConstant model index c.tensor = .ok c)
    {entry : Nat × OutputRef} (hentry : entry ∈ constantSlots constants t.graph.layers.length) :
    ∃ info, HasInfo model entry.1 info ∧ step.lowering.graph.info? entry.2 = some info := by
  obtain ⟨k, p⟩ := entry
  obtain ⟨place, c, hc, rfl, rfl⟩ := mem_constantSlots_iff.mp hentry
  have hcontent := h.content?_constant hc
  have hpend := hpending c (List.mem_of_getElem? hc)
  exact ⟨c.constant.info, hasInfo_of_pendingConstant hpend,
    info?_of_draft (p := ⟨_, 0⟩) hcontent⟩

/-- What is known of a tensor that a plan reads has the descriptor of the tensor. -/
theorem Made.info?_known (h : Made t op plan sources constants step supply')
    (hvalid : Valid model standIn t supply) (hlabelled : Labelled model t)
    (hpending : ∀ c ∈ constants, pendingConstant model index c.tensor = .ok c)
    (hop : op.model = model) (hk : k ∈ plan.consumed) (hinfo : op.info k = .ok info) :
    step.lowering.graph.info?
      (((knownSlots sources constants t.graph.layers.length).lookup k).getD ⟨0, 0⟩) =
        some info := by
  obtain ⟨p, hknown, -⟩ := h.sourced.exists_slot plan.nodup_consumed hk t.graph.layers.length
  rw [hknown, Option.getD_some]
  have hfound : ∃ info, HasInfo model k info ∧ step.lowering.graph.info? p = some info := by
    rcases List.mem_append.mp (mem_of_lookup_eq_some hknown) with hmade | hold
    · exact h.info?_constant hpending (List.mem_reverse.mp hmade)
    · -- The tensor was produced before, and nothing has happened to its slot.
      have hproduced := mem_of_lookup_eq_some (h.sourced.produced _ hold)
      obtain ⟨info, htensor, hslot⟩ := hlabelled _ hproduced
      refine ⟨info, htensor, ?_⟩
      rw [h.extension.info?_of_lt (hvalid.lt_of_produced hproduced), hslot]
  obtain ⟨info', htensor, hslot⟩ := hfound
  have hsame : Except.ok info' = Except.ok info := (htensor op hop).symm.trans hinfo
  cases hsame
  exact hslot

/-- The primary layer and those behind it stand behind the reshapes, each reading the one before. -/
theorem Made.content?_behind (h : Made t op plan sources constants step supply') {i : Nat}
    (hlayer : (plan.primary :: plan.tail)[i]? = some layer) :
    ∃ slots, step.lowering.graph.content?
        (t.graph.layers.length + constants.length + (plan.reshapes.length + i)) =
          some (layer.draft slots).content ∧
      ∀ j, i = j + 1 → slots =
        [⟨t.graph.layers.length + constants.length + (plan.reshapes.length + j), 0⟩] := by
  have hplace := getElem?_planDrafts plan (knownSlots sources constants t.graph.layers.length)
    (t.graph.layers.length + constants.length) i
  rw [← getElem?_stepDrafts] at hplace
  cases i with
  | zero =>
    cases hlayer
    have hcontent := h.content?_draft hplace
    rw [← Nat.add_assoc] at hcontent
    exact ⟨_, hcontent, nofun⟩
  | succ i =>
    rw [List.getElem?_cons_succ] at hlayer
    rw [List.getElem?_cons_succ, getElem?_chainDrafts, hlayer, Option.map_some] at hplace
    have hcontent := h.content?_draft hplace
    rw [← Nat.add_assoc] at hcontent
    refine ⟨_, hcontent, ?_⟩
    rintro j hj
    obtain rfl : i = j := Nat.succ.inj hj
    rw [Nat.add_assoc _ plan.reshapes.length]

/-- A reshape in front of the primary layer reads the descriptor of its tensor. -/
theorem Made.query?_reshape (h : Made t op plan sources constants step supply')
    (hvalid : Valid model standIn t supply) (hlabelled : Labelled model t)
    (hpending : ∀ c ∈ constants, pendingConstant model index c.tensor = .ok c)
    (hop : op.model = model) {r : Nat} {entry : Nat × PlannedLayer}
    (hr : plan.reshapes[r]? = some entry) :
    step.lowering.graph.query? (t.graph.layers.length + constants.length + r) =
      some entry.2 := by
  obtain ⟨info, hinfo, hinputs⟩ :=
    h.planned.labelled.reshapes entry (List.mem_of_getElem? hr)
  refine query?_of_draft (h.content?_reshape hr) ?_
  rw [hinputs]
  exact .cons (h.info?_known hvalid hlabelled hpending hop
    (Plan.mem_consumed_of_reshape hr) hinfo) .nil

/-- The primary layer reads the descriptors of tensors, and of the outputs of the reshapes. -/
theorem Made.query?_primary (h : Made t op plan sources constants step supply')
    (hvalid : Valid model standIn t supply) (hlabelled : Labelled model t)
    (hpending : ∀ c ∈ constants, pendingConstant model index c.tensor = .ok c)
    (hop : op.model = model) :
    step.lowering.graph.query?
      (t.graph.layers.length + constants.length + plan.reshapes.length) = some plan.primary := by
  refine query?_of_draft h.content?_primary ?_
  rw [List.forall₂_map_left_iff]
  have hprovided := (List.forall₂_and_left plan.inputs plan.primary.inputs).mpr
    ⟨fun source hsource => hsource, h.planned.labelled.inputs⟩
  refine hprovided.imp ?_
  rintro source info ⟨hsource, hprovides⟩
  cases source with
  | tensor k =>
    exact h.info?_known hvalid hlabelled hpending hop
      (Plan.mem_consumed_iff.mpr (.inr hsource)) hprovides
  | reshape r =>
    obtain ⟨entry, hr, houtputs⟩ := hprovides
    rw [slotAt_reshape (List.getElem?_eq_some_iff.mp hr).1,
      info?_of_draft (p := ⟨_, 0⟩) (h.content?_reshape hr)]
    show entry.2.outputs[0]? = some info
    rw [houtputs]
    rfl

/-- A layer behind the primary one reads the one output of the layer before. -/
theorem Made.query?_tail (h : Made t op plan sources constants step supply') {j : Nat}
    (hlayer : plan.tail[j]? = some layer) :
    step.lowering.graph.query?
      (t.graph.layers.length + constants.length + (plan.reshapes.length + (j + 1))) =
        some layer := by
  have hplanned : (plan.primary :: plan.tail)[j + 1]? = some layer :=
    List.getElem?_cons_succ.trans hlayer
  obtain ⟨slots, hcontent, hslots⟩ := h.content?_behind hplanned
  have hlt : j < (plan.primary :: plan.tail).length :=
    Nat.lt_succ_of_lt (List.getElem?_eq_some_iff.mp hlayer).1
  obtain ⟨before, hbefore⟩ : ∃ before, (plan.primary :: plan.tail)[j]? = some before :=
    ⟨_, List.getElem?_eq_getElem hlt⟩
  obtain ⟨_, hcontent', -⟩ := h.content?_behind hbefore
  have hbehind : plan.tail ≠ [] := List.ne_nil_of_mem (List.mem_of_getElem? hlayer)
  obtain ⟨info, hinfo⟩ := List.length_eq_one_iff.mp
    (h.planned.covered.length_outputs (h.planned.covered.one hbehind)
      (List.mem_of_getElem? hbefore))
  refine query?_of_draft hcontent ?_
  rw [hslots j rfl, h.planned.labelled.tail j before layer hbefore hplanned, hinfo]
  refine .cons ?_ .nil
  rw [info?_of_draft (p := ⟨_, 0⟩) hcontent']
  show before.outputs[0]? = some info
  rw [hinfo]
  rfl

/-- Every layer of a plan is there as planned, and reads the descriptors that it states. -/
theorem Made.query?_layer (h : Made t op plan sources constants step supply')
    (hvalid : Valid model standIn t supply) (hlabelled : Labelled model t)
    (hpending : ∀ c ∈ constants, pendingConstant model index c.tensor = .ok c)
    (hop : op.model = model) {i : Nat} (hlayer : plan.layers[i]? = some layer) :
    step.lowering.graph.query? (t.graph.layers.length + constants.length + i) = some layer := by
  rw [Plan.layers] at hlayer
  rcases Nat.lt_or_ge i plan.reshapes.length with hlt | hge
  · rw [List.getElem?_append_left (by simpa using hlt), List.getElem?_map,
      Option.map_eq_some_iff] at hlayer
    obtain ⟨entry, hr, rfl⟩ := hlayer
    exact h.query?_reshape hvalid hlabelled hpending hop hr
  · obtain ⟨j, rfl⟩ := Nat.exists_eq_add_of_le hge
    rw [List.getElem?_append_right (by simp), List.length_map, Nat.add_sub_cancel_left] at hlayer
    cases j with
    | zero =>
      cases hlayer
      exact h.query?_primary hvalid hlabelled hpending hop
    | succ j =>
      rw [List.getElem?_cons_succ] at hlayer
      exact h.query?_tail hlayer

/-- A lowering stays labelled when an operator is lowered. -/
theorem Labelled.lower (h : Labelled model t) (hvalid : Valid model standIn t supply)
    (hrun : (t.lower index).run supply = .ok step supply') : Labelled model step.lowering := by
  obtain ⟨op, plan, sources, constants, hop, -, hsources, hmade, -⟩ := hvalid.lower_eq_ok hrun
  have hmodel := Operation.model_eq_of_ofModel hop
  have hpending := pending_of_sourcesOf hsources
  rw [hvalid.sameModel] at hpending
  have hlabels := hmade.planned.labelled
  unfold Labelled
  rw [hmade.producers, producedSlots]
  refine List.forall_mem_append.mpr ⟨List.forall_mem_append.mpr ⟨?written, ?made⟩, ?old⟩
  case written =>
    -- A tensor that the operator writes comes from the last layer, which describes it as planned.
    intro entry hentry
    obtain ⟨⟨k, place⟩, hmem, rfl⟩ := List.mem_map.mp hentry
    have hk : plan.outputs[place]? = some k := List.mem_zipIdx_iff_getElem?.mp hmem
    have hlt : place < (plan.tail.getLastD plan.primary).outputs.length := by
      rw [← hlabels.outputs.length_eq]
      exact (List.getElem?_eq_some_iff.mp hk).1
    have hinfo : op.info k = .ok (plan.tail.getLastD plan.primary).outputs[place] := by
      obtain ⟨hlt', heq⟩ := List.getElem?_eq_some_iff.mp hk
      have hget := hlabels.outputs.get hlt' hlt
      rw [List.get_eq_getElem, List.get_eq_getElem] at hget
      exact heq ▸ hget
    refine ⟨_, hasInfo_of_operation hmodel hinfo, ?_⟩
    obtain ⟨_, hcontent, -⟩ := hmade.content?_behind (getElem?_length_cons plan.primary plan.tail)
    rw [← Nat.add_assoc] at hcontent
    exact (info?_of_draft (p := ⟨_, place⟩) hcontent).trans (List.getElem?_eq_getElem hlt)
  case made =>
    intro entry hentry
    exact hmade.info?_constant hpending hentry
  case old =>
    intro entry hentry
    obtain ⟨info, htensor, hslot⟩ := h entry hentry
    refine ⟨info, htensor, ?_⟩
    rw [hmade.extension.info?_of_lt (hvalid.lt_of_produced hentry), hslot]

theorem History.labelled_calls {history : History}
    (hvalid : Valid model standIn history.site.lowering history.site.supply)
    (h : Labelled model history.site.lowering) (indices : List Nat) :
    Labelled model (history.calls indices).site.lowering := by
  apply History.calls_invariant _ hvalid h
  intro t supply index step supply' hvalid hlabelled hrun
  exact hlabelled.lower hvalid hrun

/-! ### The support check -/

theorem verdict_of_plan (hplan : Plan.ofOperator model index false = .ok plan)
    (support : LayerSupport) :
    checkSupport model index support = .ok (verdictOn support plan.layers) := by
  rw [checkSupport, hplan]
  rfl

/-- The lowering `t'` has the layers of `t` and those that were added for an operator: constants,
    and then the layers of its plan. -/
structure BuiltFor (model : Model) (index : Nat) (t t' : Lowering) (plan : Plan)
    (constants : List PendingConstant) : Prop where
  /-- There is a constant for each tensor that the plan reads and that nothing produced. -/
  tensors : constants.map (·.tensor) = plan.consumed.filter fun k => (t.producer? k).isNone
  pending : ∀ c ∈ constants, pendingConstant model index c.tensor = .ok c
  /-- The older layers are what they were. -/
  kept : ∀ id < t.graph.layers.length, t'.graph.content? id = t.graph.content? id
  length : t'.graph.layers.length =
    t.graph.layers.length + constants.length + plan.layers.length
  made : ∀ (i : Nat) (c : PendingConstant), constants[i]? = some c →
    t'.graph.content? (t.graph.layers.length + i) = some c.draft.content
  /-- The layers are what an executor is asked about, with the descriptors that the graph has at
      the producers of their inputs and at their outputs. -/
  layers : ∀ (i : Nat) (layer : PlannedLayer), plan.layers[i]? = some layer →
    t'.graph.query? (t.graph.layers.length + constants.length + i) = some layer

theorem Made.builtFor (h : Made t op plan sources constants step supply')
    (hvalid : Valid model standIn t supply) (hlabelled : Labelled model t)
    (hpending : ∀ c ∈ constants, pendingConstant model index c.tensor = .ok c)
    (hop : op.model = model) : BuiltFor model index t step.lowering plan constants where
  tensors := h.sourced.tensors
  pending := hpending
  kept := fun _ hid => h.extension.content?_of_lt hid
  length := by
    have hprofile := congrArg List.length
      (profile_stepDrafts plan sources constants t.graph.layers.length)
    simp only [List.length_map, List.length_append] at hprofile
    have hextended := h.extension.length
    rw [List.length_map, hprofile, ← Nat.add_assoc] at hextended
    exact hextended
  made := fun _ _ hc => h.content?_constant hc
  layers := fun _ _ hlayer => h.query?_layer hvalid hlabelled hpending hop hlayer

/-- An operator that cannot be planned is refused by both with the same error, and nothing is added.
    If an operator is lowered, it adds first the constants of those tensors that it reads and that
    nothing produces yet, in the order in which they are read. Then it adds the layers of which an
    executor that runs everything is asked, in the same order. So whether an executor supports the
    operator is decided by what it says of the layers that are built. -/
theorem support_of_built {history : History} {indices : List Nat}
    (h : History.over? model false supply indices = some history) (index : Nat) :
    (∀ e, Plan.ofOperator model index false = .error e →
      (∀ support, checkSupport model index support = .error e) ∧
      (InPlace.lower index).run history.site = .error e history.site) ∧
    ∀ primary site, (InPlace.lower index).run history.site = .ok primary site →
      ∃ plan constants, Plan.ofOperator model index false = .ok plan ∧
        BuiltFor model index history.site.lowering site.lowering plan constants ∧
        (∀ support, (∀ layer, (support layer).supported = true) →
          queried support plan.layers = plan.layers) ∧
        ∀ support, checkSupport model index support = .ok (verdictOn support plan.layers) ∧
          ((verdictOn support plan.layers).supported = true ↔
            ∀ layer ∈ plan.layers, (support layer).supported = true) := by
  obtain ⟨t, s, hstart, rfl⟩ := History.exists_of_over? h
  have hfirst := History.valid_first hstart
  have hvalid := History.valid_calls hfirst indices
  have hlabelled := History.labelled_calls hfirst (labelled_of_start hstart) indices
  generalize (History.first t s).calls indices = history at hvalid hlabelled
  constructor
  · intro e hplan
    refine ⟨fun support => ?_, ?_⟩
    · rw [checkSupport, hplan]
      rfl
    · -- The plan is made before anything is added, so the site is still what it was.
      have hprepare : history.site.lowering.prepare index = .error e := by
        rw [prepare, hvalid.sameModel, hvalid.sameStandIn, hplan]
        rfl
      show InPlace.lower index history.site = _
      rw [InPlace.lower, hprepare]
  · intro primary site hrun
    have hlower := InPlace.lower_cases hvalid.grown.sound index
    rw [hrun] at hlower
    obtain ⟨op, plan, sources, constants, hop, hplan, hsources, hmade, -⟩ :=
      hvalid.lower_eq_ok hlower
    have hpending := pending_of_sourcesOf hsources
    rw [hvalid.sameModel] at hpending
    have hbuilt := hmade.builtFor hvalid hlabelled hpending (Operation.model_eq_of_ofModel hop)
    refine ⟨plan, constants, hplan, hbuilt, ?_, ?_⟩
    · exact fun support hall => queried_of_supported hall plan.layers
    · exact fun support => ⟨verdict_of_plan hplan support, supported_verdictOn support plan.layers⟩

/-- An operator that reads a constant through a reshape is lowered to four layers. -/
theorem support_of_built_raisedConstant :
    ∃ history primary site layers, History.over? raisedConstant false .initial [7] = some history ∧
      (InPlace.lower 0).run history.site = .ok primary site ∧
      layers.map (·.name) = ["Reshape:for:Add:0:0", "Add:0:0", "Add:0:0:RELU"] ∧
      (∀ i layer, layers[i]? = some layer → site.lowering.graph.query? (2 + i) = some layer) ∧
      ∀ support, checkSupport raisedConstant 0 support = .ok (verdictOn support layers) := by
  have hhistory : (History.over? raisedConstant false .initial [7]).map
      (fun history => (history.site.lowering.graph.layers.length, history.entries)) =
        some (1, []) := by
    decide +kernel
  have hplan : (Plan.ofOperator raisedConstant 0 false).map
      (fun plan => (plan.layers.map (·.name), plan.consumed)) =
        .ok (["Reshape:for:Add:0:0", "Add:0:0", "Add:0:0:RELU"], [1, 0]) := by
    decide +kernel
  have hcall : (History.over? raisedConstant false .initial [7]).map (fun history =>
      ((history.call 0).site.lowering.graph.layers.length,
        (history.call 0).entries.map (·.primary))) = some (5, [3]) := by
    decide +kernel
  obtain ⟨history, hover, hstate⟩ := Option.map_eq_some_iff.mp hhistory
  obtain ⟨hlength, hentries⟩ := Prod.mk.inj hstate
  rw [hover, Option.map_some] at hcall
  obtain ⟨hsize, hprimary⟩ := Prod.mk.inj (Option.some.inj hcall)
  cases hlower : (InPlace.lower 0).run history.site with
  | error e site =>
    rw [History.call, hlower, hentries] at hprimary
    cases hprimary
  | ok primary site =>
    rw [History.call, hlower] at hsize
    obtain ⟨-, hbuilt⟩ := support_of_built hover 0
    obtain ⟨plan, constants, hplan', hbuilt, -, hcheck⟩ := hbuilt primary site hlower
    have hcount := hbuilt.length
    have hquery := hbuilt.layers
    rw [hplan'] at hplan
    have hnames : plan.layers.map (·.name) = _ := congrArg Prod.fst (Except.ok.inj hplan)
    -- One constant is made, since the input produces the other tensor.
    have hlayers : plan.layers.length = 3 := by
      have hnumber := congrArg List.length hnames
      simpa using hnumber
    have hsize : site.lowering.graph.layers.length = 5 := hsize
    have hone : constants.length = 1 := by
      omega
    rw [hlength, hone] at hquery
    exact ⟨history, primary, site, plan.layers, hover, hlower, hnames, hquery,
      fun support => (hcheck support).1⟩

end Lowering

end LayerGraph
