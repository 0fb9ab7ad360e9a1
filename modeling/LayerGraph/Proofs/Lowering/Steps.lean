import LayerGraph.Proofs.Lowering.Planners

/-! # The steps of a lowering

  What it takes to add an input, the layers of an operator, or an output, and what is there
  afterwards. Each of them appends drafts to the graph. A valid lowering has a complete graph, and
  the slots that produce its tensors exist; every step keeps it so.
-/

namespace LayerGraph

open LayerGraph.Graph

/-- A plan comes about for an operation of the model. -/
theorem Plan.ofOperator_planned {model : Model} {index : Nat} {standIn : Bool} {plan : Plan}
    (h : Plan.ofOperator model index standIn = .ok plan) :
    ∃ op, Operation.ofModel model index = .ok op ∧ op.Planned plan := by
  unfold Plan.ofOperator at h
  obtain ⟨op, hop, h⟩ := Except.bind_eq_ok_iff.mp h
  exact ⟨op, hop, Operation.plan_planned plan h⟩

namespace Lowering

variable {t t' : Lowering} {tensor : Int32} {supply supply' : GuidSupply} {plan : Plan}
variable {index k : Nat} {sources : List (Nat × OutputRef)} {constants : List PendingConstant}
variable {step : Step}

/-! ### Boundaries -/

/-- The layer of an input. -/
def inputDraft (index : Nat) (name : String) (info : TensorInfo) : Draft :=
  ⟨name, .input (bindingOf index), [], [info]⟩

/-- The layer of an output. -/
def outputDraft (index : Nat) (name : String) (producer : OutputRef) : Draft :=
  ⟨name, .output (bindingOf index), [producer], []⟩

theorem inputDraft_covers (index : Nat) (name : String) (info : TensorInfo) :
    (inputDraft index name info).Covers := ⟨Nat.le_refl 0, Nat.le_refl 1⟩

theorem outputDraft_covers (index : Nat) (name : String) (producer : OutputRef) :
    (outputDraft index name producer).Covers := ⟨Nat.le_refl 1, Nat.le_refl 0⟩

/-- An input is made for a tensor of known sizes, and has its descriptor. -/
theorem addInput_eq_ok (h : (t.addInput tensor).run supply = .ok t' supply') :
    ∃ index source info g', boundaryTensor? t.model tensor = some (index, source) ∧
      source.isDynamic = false ∧ source.info = .ok info ∧
      (t.graph.append (inputDraft index source.name info)).run supply = .ok g' supply' ∧
      t' = { t with
        graph := g', producers := (index, ⟨t.graph.layers.length, 0⟩) :: t.producers } := by
  unfold addInput at h
  dsimp only at h
  split at h
  · next index source hfound =>
    obtain ⟨hknown, h⟩ := Build.check_eq_ok_iff.mp h
    split at h
    · next info hinfo =>
      simp only [pure_bind, atBoundary, Build.bind_eq_ok_iff, Build.adaptExcept_eq_ok_iff,
        Prod.exists, insert_eq_ok_iff, Build.ofExcept_eq_ok_iff, Build.pure_eq_ok_iff] at h
      obtain ⟨_, g₁, _, ⟨rfl, rfl, hadded⟩, g₂, _, ⟨hset, rfl⟩, rfl, rfl⟩ := h
      rw [← fill_leaf _ source.name (.input (bindingOf index))] at hset
      have happend := append_eq_ok_iff.mpr ⟨g₁, hadded, rfl, hset⟩
      exact ⟨index, source, info, g₂, hfound, by simpa using hknown, hinfo, happend, rfl⟩
    · obtain ⟨_, _, hthrow, -⟩ := Build.bind_eq_ok_iff.mp h
      exact absurd hthrow Build.throw_ne_ok
  · exact absurd h Build.throw_ne_ok

/-- An output is made for a tensor that is produced, and reads it. -/
theorem addOutput_eq_ok (h : (t.addOutput tensor).run supply = .ok t' supply') :
    ∃ index source producer g', boundaryTensor? t.model tensor = some (index, source) ∧
      t.producer? index = some producer ∧
      (t.graph.append (outputDraft index source.name producer)).run supply = .ok g' supply' ∧
      t' = { t with graph := g' } := by
  unfold addOutput at h
  dsimp only at h
  split at h
  · next index source hfound =>
    split at h
    · next producer hproducer =>
      simp only [atBoundary, Build.bind_eq_ok_iff, Build.adaptExcept_eq_ok_iff, Prod.exists,
        insert_eq_ok_iff, Build.ofExcept_eq_ok_iff, Build.pure_eq_ok_iff] at h
      obtain ⟨_, g₁, _, ⟨rfl, rfl, hadded⟩, g₂, _, ⟨hconnect, rfl⟩, rfl, rfl⟩ := h
      rw [← connectAll_singleton] at hconnect
      have happend := append_eq_ok_iff (d := outputDraft index source.name producer).mpr
        ⟨g₁, hadded, rfl, hconnect⟩
      exact ⟨index, source, producer, g₂, hfound, hproducer, happend, rfl⟩
    · exact absurd h Build.throw_ne_ok
  · exact absurd h Build.throw_ne_ok

/-- A graph is finished by adding its outputs, if it is complete then. -/
theorem finish_eq_ok_iff {g : Graph} :
    t.finish.run supply = .ok g supply' ↔
      ∃ t', (t.model.outputs.foldlM addOutput t).run supply = .ok t' supply' ∧
        t'.graph.validate = .ok () ∧ t'.graph = g := by
  rw [finish, Build.bind_eq_ok_iff]
  constructor
  · rintro ⟨t', s, houtputs, hrun⟩
    split at hrun
    · next hvalid =>
      obtain ⟨rfl, rfl⟩ := Build.pure_eq_ok_iff.mp hrun
      exact ⟨t', houtputs, hvalid, rfl⟩
    · exact absurd hrun Build.throw_ne_ok
  · rintro ⟨t', houtputs, hvalid, rfl⟩
    refine ⟨t', supply', houtputs, ?_⟩
    rw [hvalid]
    rfl

/-! ### What an operator reads -/

/-- The constant of a tensor has the values and the descriptor of the tensor. -/
theorem pendingConstant_eq_ok_iff {model : Model} {operator tensor : Nat} {c : PendingConstant} :
    pendingConstant model operator tensor = .ok c ↔
      ∃ source data info constant, model.tensors[tensor]? = some source ∧
        source.payload? = some data ∧ source.info = .ok info ∧
        Constant.ofBytes info data = .ok constant ∧
        c = ⟨tensor, "Constant:" ++ source.name, constant⟩ := by
  constructor
  · intro h
    unfold pendingConstant at h
    dsimp only at h
    -- The tensor has to be there, to have data, to have a descriptor, and to agree with it.
    split at h
    · next source hsource =>
      split at h
      · next data hdata =>
        split at h
        · next info hinfo =>
          rw [pure_bind] at h
          split at h
          · next constant hconstant =>
            cases h
            exact ⟨source, data, info, constant, hsource, hdata, hinfo, hconstant, rfl⟩
          · cases h
        · cases h
      · cases h
    · cases h
  · rintro ⟨source, data, info, constant, hsource, hdata, hinfo, hconstant, rfl⟩
    simp only [pendingConstant, hsource, hdata, hinfo, pure_bind, hconstant]
    rfl

theorem pendingConstant_eq_ok {model : Model} {operator tensor : Nat} {c : PendingConstant}
    (h : pendingConstant model operator tensor = .ok c) :
    c.tensor = tensor ∧ c.constant.info.Consistent := by
  obtain ⟨source, data, info, constant, -, -, hinfo, hconstant, rfl⟩ :=
    pendingConstant_eq_ok_iff.mp h
  refine ⟨rfl, ?_⟩
  show constant.info.Consistent
  rw [(Constant.ofBytes_eq_ok_iff.mp hconstant).2.1, TensorInfo.consistent_withConstant]
  exact ModelTensor.info_consistent hinfo

/-- The output slots of those tensors that are produced, and constants for the others. -/
structure Sourced (t : Lowering) (consumed : List Nat) (sources : List (Nat × OutputRef))
    (constants : List PendingConstant) : Prop where
  produced : ∀ entry ∈ sources, t.producer? entry.1 = some entry.2
  found : ∀ k ∈ consumed, (t.producer? k).isSome → k ∈ sources.map Prod.fst
  tensors : constants.map (·.tensor) = consumed.filter fun k => (t.producer? k).isNone
  consistent : ∀ c ∈ constants, c.constant.info.Consistent

/-- Every tensor that is read is taken care of. -/
theorem sourcesOf_eq_ok (h : t.sourcesOf index plan = .ok (sources, constants)) :
    Sourced t plan.consumed sources constants := by
  unfold sourcesOf at h
  -- The invariant is about the tensors that were looked at so far.
  refine Except.foldlM_prefix (P := fun done found => Sourced t done found.1 found.2) ?_ ?_ h
  · intro done k _ found found' hdone hstep
    obtain ⟨sources, constants⟩ := found
    dsimp only at hstep
    split at hstep
    · next slot hslot =>
      cases hstep
      refine ⟨?_, ?_, ?_, hdone.consistent⟩
      · exact List.forall_mem_cons.mpr ⟨hslot, hdone.produced⟩
      · intro k' hk' hsome
        rcases List.mem_append.mp hk' with hold | hnew
        · exact List.mem_cons_of_mem _ (hdone.found k' hold hsome)
        · rw [List.mem_singleton.mp hnew]
          exact List.mem_cons_self
      · rw [List.filter_append, hdone.tensors]
        simp [hslot]
    · next hnone =>
      obtain ⟨c, hc, hstep⟩ := Except.bind_eq_ok_iff.mp hstep
      cases hstep
      obtain ⟨htensor, hconsistent⟩ := pendingConstant_eq_ok hc
      refine ⟨hdone.produced, ?_, ?_, ?_⟩
      · intro k' hk' hsome
        rcases List.mem_append.mp hk' with hold | hnew
        · exact hdone.found k' hold hsome
        · rw [List.mem_singleton.mp hnew, hnone] at hsome
          cases hsome
      · rw [List.filter_append, List.map_append, hdone.tensors]
        simp [hnone, htensor]
      · exact List.forall_mem_append.mpr
          ⟨hdone.consistent, List.forall_mem_singleton.mpr hconsistent⟩
  · exact ⟨by simp, by simp, rfl, by simp⟩

/-- The constants that are made are those of their tensors. -/
theorem pending_of_sourcesOf (h : t.sourcesOf index plan = .ok (sources, constants)) :
    ∀ c ∈ constants, pendingConstant t.model index c.tensor = .ok c := by
  unfold sourcesOf at h
  refine Except.foldlM_invariant
    (P := fun found : List (Nat × OutputRef) × List PendingConstant =>
      ∀ c ∈ found.2, pendingConstant t.model index c.tensor = .ok c)
    ?_ (List.forall_mem_nil _) h
  intro k _ found found' hfound hstep
  obtain ⟨sources, constants⟩ := found
  dsimp only at hstep
  split at hstep
  · cases hstep
    exact hfound
  · obtain ⟨c, hc, hstep⟩ := Except.bind_eq_ok_iff.mp hstep
    cases hstep
    refine List.forall_mem_append.mpr ⟨hfound, List.forall_mem_singleton.mpr ?_⟩
    rwa [(pendingConstant_eq_ok hc).1]

/-- A tensor that is read has an output slot when the constants are made, which is the slot that
    produces it. -/
theorem Sourced.exists_slot {consumed : List Nat} (h : Sourced t consumed sources constants)
    (hnodup : consumed.Nodup) (hk : k ∈ consumed) (n : LayerId) :
    ∃ p, (knownSlots sources constants n).lookup k = some p ∧
      (constantSlots constants n ++ t.producers).lookup k = some p := by
  have hkeys := keys_constantSlots constants n
  rw [h.tensors] at hkeys
  rw [knownSlots, List.lookup_append, List.lookup_append]
  cases hproducer : t.producer? k with
  | some p =>
    -- No constant is made for a tensor that is produced.
    have hnot : k ∉ (constantSlots constants n).map Prod.fst := by
      rw [hkeys]
      simp [hproducer]
    have hnot' : k ∉ (constantSlots constants n).reverse.map Prod.fst := by
      rwa [List.map_reverse, List.mem_reverse]
    have hsource : sources.lookup k = some p := by
      refine lookup_eq_some_of_unique (h.found k hk (by simp [hproducer])) ?_
      rintro entry hentry rfl
      have heq := h.produced entry hentry
      rw [hproducer] at heq
      exact (Option.some.inj heq).symm
    refine ⟨p, ?_, ?_⟩
    · rw [lookup_eq_none_iff_notMem.mpr hnot', hsource, Option.none_or]
    · rw [lookup_eq_none_iff_notMem.mpr hnot, Option.none_or]
      exact hproducer
  | none =>
    -- One constant is made for it, since a plan reads a tensor once. So it does not matter that
    -- one of the lists has the constants in reverse.
    have hmem : k ∈ (constantSlots constants n).map Prod.fst := by
      rw [hkeys, List.mem_filter]
      exact ⟨hk, by simp [hproducer]⟩
    have hnodup : ((constantSlots constants n).map Prod.fst).Nodup := by
      rw [hkeys]
      exact hnodup.filter _
    obtain ⟨p, hp⟩ := exists_lookup_of_mem hmem
    have hreverse : (constantSlots constants n).reverse.lookup k = some p := by
      rw [lookup_eq_some_iff_mem (by rwa [List.map_reverse, List.nodup_reverse]),
        List.mem_reverse]
      exact mem_of_lookup_eq_some hp
    refine ⟨p, ?_, ?_⟩
    · rw [hreverse, Option.some_or]
    · rw [hp, Option.some_or]

/-- What a plan reads is found when every tensor without a producer is a constant. -/
theorem exists_sourcesOf_iff :
    (∃ found, t.sourcesOf index plan = .ok found) ↔ ∀ k ∈ plan.consumed, t.producer? k = none →
      ∃ c, pendingConstant t.model index k = .ok c := by
  constructor
  · intro h k hk hnone
    obtain ⟨⟨sources, constants⟩, hsources⟩ := h
    have hmem : k ∈ constants.map (·.tensor) := by
      rw [(sourcesOf_eq_ok hsources).tensors, List.mem_filter, hnone]
      exact ⟨hk, rfl⟩
    obtain ⟨c, hc, rfl⟩ := List.mem_map.mp hmem
    exact ⟨c, pending_of_sourcesOf hsources c hc⟩
  · intro h
    unfold sourcesOf
    -- The search goes on from whatever has been found, so the induction is over all of that.
    generalize plan.consumed = consumed at h
    generalize (([], []) : List (Nat × OutputRef) × List PendingConstant) = found
    induction consumed generalizing found with
    | nil => exact ⟨found, rfl⟩
    | cons k consumed ih =>
      obtain ⟨hk, hconsumed⟩ := List.forall_mem_cons.mp h
      rw [List.foldlM_cons]
      cases hproducer : t.producer? k with
      | some slot => exact ih hconsumed _
      | none =>
        obtain ⟨c, hc⟩ := hk hproducer
        dsimp only
        rw [hc]
        exact ih hconsumed _

/-! ### What an operator writes -/

/-- What is written has no producer yet, and is written once. -/
theorem checkOutputs_eq_ok_iff :
    t.checkOutputs index plan = .ok () ↔
      (∀ k ∈ plan.outputs, t.producer? k = none) ∧ plan.outputs.Nodup := by
  have hfresh : (plan.outputs.find? fun o => (t.producer? o).isSome) = none ↔
      ∀ k ∈ plan.outputs, t.producer? k = none := by
    simp
  rw [← hfresh, checkOutputs]
  cases plan.outputs.find? fun o => (t.producer? o).isSome with
  | some k => exact ⟨nofun, fun h => nomatch h.1⟩
  | none =>
    by_cases hnodup : plan.outputs.Nodup
    · simp [hnodup, pure, Except.pure]
    · simp [hnodup]

/-! ### Operators -/

/-- The layers of an operator are those of its plan and the constants that it reads. -/
theorem lower_eq_ok_iff :
    (t.lower index).run supply = .ok step supply' ↔
      ∃ plan sources constants built, Plan.ofOperator t.model index t.standIn = .ok plan ∧
        t.sourcesOf index plan = .ok (sources, constants) ∧ t.checkOutputs index plan = .ok () ∧
        (build t.graph plan sources constants).run supply = .ok built supply' ∧
        step = ⟨{ t with graph := built.graph, producers := built.produced ++ t.producers },
          built.primary⟩ := by
  simp only [lower, Build.bind_eq_ok_iff, Build.ofExcept_eq_ok_iff, Build.adaptExcept_eq_ok_iff,
    Build.pure_eq_ok_iff, Prod.exists]
  constructor
  · rintro ⟨plan, _, ⟨hplan, rfl⟩, sources, constants, _, ⟨hsources, rfl⟩, _, _,
      ⟨houtputs, rfl⟩, built, _, hbuild, rfl, rfl⟩
    exact ⟨plan, sources, constants, built, hplan, hsources, houtputs, hbuild, rfl⟩
  · rintro ⟨plan, sources, constants, built, hplan, hsources, houtputs, hbuild, rfl⟩
    exact ⟨plan, _, ⟨hplan, rfl⟩, sources, constants, _, ⟨hsources, rfl⟩, (), _,
      ⟨houtputs, rfl⟩, built, _, hbuild, rfl, rfl⟩

/-! ### Valid lowerings -/

/-- A lowering of the model whose graph is complete and whose tensors are produced by slots that
    exist. -/
structure Valid (model : Model) (standIn : Bool) (t : Lowering) (supply : GuidSupply) : Prop where
  sameModel : t.model = model
  sameStandIn : t.standIn = standIn
  grown : Grown t.graph supply
  complete : t.graph.Complete
  available : ∀ entry ∈ t.producers, HasSlot t.graph.contents entry.2

/-- What lowering an operator made: the drafts of its plan, all of which fit. -/
structure Made (t : Lowering) (op : Operation) (plan : Plan) (sources : List (Nat × OutputRef))
    (constants : List PendingConstant) (step : Step) (supply' : GuidSupply) : Prop where
  planned : op.Planned plan
  sourced : Sourced t plan.consumed sources constants
  fresh : ∀ k ∈ plan.outputs, t.producer? k = none
  nodup : plan.outputs.Nodup
  extension : Extends t.graph
    ((stepDrafts plan sources constants t.graph.layers.length).map Draft.content)
    step.lowering.graph supply'
  producers : step.lowering.producers =
    producedSlots plan constants t.graph.layers.length ++ t.producers
  primary : step.primary = primaryAt plan constants t.graph.layers.length

variable {model : Model} {standIn : Bool}

theorem valid_start (model : Model) (standIn : Bool) (supply : GuidSupply) :
    Valid model standIn ⟨model, standIn, .empty, []⟩ supply where
  sameModel := rfl
  sameStandIn := rfl
  grown := grown_empty supply
  complete := by
    intro id c hc
    cases hc
  available := List.forall_mem_nil _

theorem Valid.lt_of_produced (h : Valid model standIn t supply) {entry : Nat × OutputRef}
    (hentry : entry ∈ t.producers) : entry.2.layer < t.graph.layers.length := by
  obtain ⟨c, hc, -⟩ := h.available entry hentry
  rw [getElem?_contents] at hc
  exact lt_of_content? hc

/-- The slots that a plan reads exist. -/
theorem Valid.available_sources {consumed : List Nat} (h : Valid model standIn t supply)
    (hsourced : Sourced t consumed sources constants) :
    ∀ entry ∈ sources, HasSlot t.graph.contents entry.2 := by
  intro entry hentry
  exact h.available entry (mem_of_lookup_eq_some (hsourced.produced entry hentry))

/-- A lowering stays valid when drafts are appended and new producers are among them. -/
theorem Valid.extend (h : Valid model standIn t supply) {drafts : List Draft}
    (hmodel : t'.model = t.model) (hstandIn : t'.standIn = t.standIn)
    (hextends : Extends t.graph (drafts.map Draft.content) t'.graph supply')
    (hproducers : ∀ entry ∈ t'.producers,
      entry ∈ t.producers ∨ HasSlot t'.graph.contents entry.2) :
    Valid model standIn t' supply' where
  sameModel := hmodel.trans h.sameModel
  sameStandIn := hstandIn.trans h.sameStandIn
  grown := hextends.grown
  complete := hextends.complete h.complete
  available := by
    intro entry hentry
    rcases hproducers entry hentry with hold | hnew
    · rw [hextends.contents]
      exact (h.available entry hold).append _
    · exact hnew

/-- An input is all that is new. -/
theorem Valid.addInput_eq_ok (h : Valid model standIn t supply)
    (hrun : (t.addInput tensor).run supply = .ok t' supply') :
    ∃ index source info, boundaryTensor? model tensor = some (index, source) ∧
      source.info = .ok info ∧
      Extends t.graph [(inputDraft index source.name info).content] t'.graph supply' ∧
      t'.producers = (index, ⟨t.graph.layers.length, 0⟩) :: t.producers ∧
      Valid model standIn t' supply' := by
  obtain ⟨index, source, info, g', hfound, -, hinfo, happend, rfl⟩ := Lowering.addInput_eq_ok hrun
  rw [h.sameModel] at hfound
  obtain ⟨-, -, hextends⟩ := h.grown.append_eq_ok (inputDraft_covers ..) happend
  refine ⟨index, source, info, hfound, hinfo, hextends, rfl, ?_⟩
  rw [← List.map_singleton] at hextends
  refine h.extend rfl rfl hextends fun entry hentry => ?_
  rcases List.mem_cons.mp hentry with rfl | hold
  · refine .inr ?_
    show HasSlot g'.contents _
    rw [hextends.contents]
    exact hasSlot_append_content (length_contents _).symm Nat.one_pos
  · exact .inl hold

/-- An output is all that is new. -/
theorem Valid.addOutput_eq_ok (h : Valid model standIn t supply)
    (hrun : (t.addOutput tensor).run supply = .ok t' supply') :
    ∃ index source producer, boundaryTensor? model tensor = some (index, source) ∧
      t.producer? index = some producer ∧
      Extends t.graph [(outputDraft index source.name producer).content] t'.graph supply' ∧
      t'.producers = t.producers ∧ Valid model standIn t' supply' := by
  obtain ⟨index, source, producer, g', hfound, hproducer, happend, rfl⟩ :=
    Lowering.addOutput_eq_ok hrun
  rw [h.sameModel] at hfound
  obtain ⟨-, -, hextends⟩ := h.grown.append_eq_ok (outputDraft_covers ..) happend
  refine ⟨index, source, producer, hfound, hproducer, hextends, rfl, ?_⟩
  rw [← List.map_singleton] at hextends
  exact h.extend rfl rfl hextends fun entry hentry => .inl hentry

/-- The constants and the layers of a plan are all that is new. -/
theorem Valid.lower_eq_ok (h : Valid model standIn t supply)
    (hrun : (t.lower index).run supply = .ok step supply') :
    ∃ op plan sources constants, Operation.ofModel model index = .ok op ∧
      Plan.ofOperator model index standIn = .ok plan ∧
      t.sourcesOf index plan = .ok (sources, constants) ∧
      Made t op plan sources constants step supply' ∧
      Valid model standIn step.lowering supply' := by
  obtain ⟨plan, sources, constants, built, hplan, hsources, houtputs, hbuild, rfl⟩ :=
    lower_eq_ok_iff.mp hrun
  rw [h.sameModel, h.sameStandIn] at hplan
  obtain ⟨op, hop, hplanned⟩ := Plan.ofOperator_planned hplan
  obtain ⟨hfresh, hnodup⟩ := checkOutputs_eq_ok_iff.mp houtputs
  obtain ⟨g', happend, rfl⟩ := build_eq_ok_iff.mp hbuild
  obtain ⟨-, hextends⟩ := h.grown.appendAll_eq_ok (fun d hd => hplanned.covered.covers hd) happend
  refine ⟨op, plan, sources, constants, hop, hplan, hsources,
    ⟨hplanned, sourcesOf_eq_ok hsources, hfresh, hnodup, hextends, rfl, rfl⟩, ?_⟩
  refine h.extend rfl rfl hextends fun entry hentry => ?_
  rcases List.mem_append.mp hentry with hnew | hold
  · refine .inr ?_
    show HasSlot g'.contents _
    rw [hextends.contents]
    exact hplanned.covered.hasSlot_produced (length_contents _) hnew
  · exact .inl hold

end Lowering

end LayerGraph
