import LayerGraph.Proofs.Lowering.Failures
import LayerGraph.Proofs.Lowering.Producers

/-! # Which operators are accepted

  Whether an operator that can be planned is lowered depends on the tensors that its plan reads and
  writes, and on the tensors that are produced already (`exists_lower_iff`). Which layers compute
  them makes no difference. So if the plans of two models read and write the same tensors, then of
  the same calls the same ones succeed (`accepted_of_twins`).
-/

namespace LayerGraph

/-- The other plan reads and writes the same tensors, and can be built if this one can. -/
structure Plan.Similar (plan plan' : Plan) : Prop where
  consumed : plan'.consumed = plan.consumed
  outputs : plan'.outputs = plan.outputs
  counted : plan.Counted → plan'.Counted

/-- The other model has the same tensors, and plans that are similar. -/
structure Model.Twins (model model' : Model) (standIn : Bool) : Prop where
  tensors : model'.tensors = model.tensors
  inputs : model'.inputs = model.inputs
  plans : ∀ index plan, Plan.ofOperator model index standIn = .ok plan →
    ∃ plan', Plan.ofOperator model' index standIn = .ok plan' ∧ plan.Similar plan'

namespace Lowering

open LayerGraph.Graph

variable {model model' : Model} {standIn : Bool} {t t' : Lowering} {index k : Nat} {plan : Plan}
variable {supply supply' fresh : GuidSupply} {sources : List (Nat × OutputRef)} {op : Operation}
variable {constants : List PendingConstant} {step : Step}

/-! ### One operator -/

/-- An operator is lowered when it can be planned and built, every tensor that it reads has a
    producer or is a constant, and no tensor that it writes has a producer. -/
theorem Valid.exists_lower_iff (h : Valid model standIn t supply) :
    (∃ step supply', (t.lower index).run supply = .ok step supply') ↔
      ∃ plan, Plan.ofOperator model index standIn = .ok plan ∧ plan.Counted ∧
        (∀ k ∈ plan.consumed, t.producer? k = none →
          ∃ c, pendingConstant model index k = .ok c) ∧
        (∀ k ∈ plan.outputs, t.producer? k = none) ∧ plan.outputs.Nodup := by
  constructor
  · intro hlower
    obtain ⟨step, supply', hrun⟩ := hlower
    obtain ⟨plan, sources, constants, built, hplan, hsources, houtputs, hbuild, -⟩ :=
      lower_eq_ok_iff.mp hrun
    have hfound := exists_sourcesOf_iff.mp ⟨_, hsources⟩
    rw [h.sameModel] at hfound
    rw [h.sameModel, h.sameStandIn] at hplan
    obtain ⟨op, -, hplanned⟩ := Plan.ofOperator_planned hplan
    have hcounted : plan.Counted := (h.exists_build_iff hplanned hsources).mp ⟨_, _, hbuild⟩
    exact ⟨plan, hplan, hcounted, hfound, checkOutputs_eq_ok_iff.mp houtputs⟩
  · intro hplanned
    obtain ⟨plan, hplan, hcounted, hfound, houtputs⟩ := hplanned
    obtain ⟨op, -, hplanned⟩ := Plan.ofOperator_planned hplan
    rw [← h.sameModel] at hfound
    obtain ⟨⟨sources, constants⟩, hsources⟩ := exists_sourcesOf_iff.mpr hfound
    obtain ⟨built, supply', hbuild⟩ := (h.exists_build_iff hplanned hsources).mpr hcounted
    rw [← h.sameModel, ← h.sameStandIn] at hplan
    exact ⟨_, supply', lower_eq_ok_iff.mpr ⟨plan, sources, constants, built, hplan, hsources,
      checkOutputs_eq_ok_iff.mpr houtputs, hbuild, rfl⟩⟩

/-- A tensor has a producer after a step when it had one before, or the operator reads or writes
    it. -/
theorem Made.exists_producer?_iff (h : Made t op plan sources constants step supply')
    (hvalid : Valid model standIn t supply) :
    (∃ p, step.lowering.producer? k = some p) ↔
      (∃ p, t.producer? k = some p) ∨ k ∈ plan.consumed ∨ k ∈ plan.outputs := by
  constructor
  · intro hproduced
    obtain ⟨p, hp⟩ := hproduced
    rcases h.producer?_eq_some_iff.mp hp with hold | ⟨-, hk⟩ | ⟨-, place, c, hc, rfl, -⟩
    · exact .inl ⟨p, hold⟩
    · exact .inr (.inr (List.mem_of_getElem? hk))
    · have hmem : c.tensor ∈ constants.map (·.tensor) :=
        List.mem_map_of_mem (List.mem_of_getElem? hc)
      rw [h.sourced.tensors] at hmem
      exact .inr (.inl (List.mem_filter.mp hmem).1)
  · intro hcases
    by_cases hk : k ∈ plan.outputs
    · obtain ⟨place, hplace⟩ := h.producer?_of_mem hk
      exact ⟨_, hplace⟩
    · rcases hcases with ⟨p, hp⟩ | hread | hwritten
      · exact ⟨p, h.producer?_mono hp⟩
      · obtain ⟨p, -, hiff⟩ := h.exists_known hvalid hread
        exact ⟨p, hiff.mpr hk⟩
      · exact absurd hwritten hk

/-! ### Two lowerings -/

/-- The same tensors have a producer. -/
def Parallel (t t' : Lowering) : Prop :=
  ∀ k, (∃ p, t'.producer? k = some p) ↔ ∃ p, t.producer? k = some p

theorem Parallel.none_iff (h : Parallel t t') : t'.producer? k = none ↔ t.producer? k = none := by
  have hk := not_congr (h k)
  rwa [not_exists, not_exists, ← Option.eq_none_iff_forall_ne_some,
    ← Option.eq_none_iff_forall_ne_some] at hk

theorem Parallel.symm (h : Parallel t t') : Parallel t' t := fun k => (h k).symm

/-- An operator that is lowered in one of them is lowered in the other one. -/
theorem Parallel.lower (h : Parallel t t') (htwins : model.Twins model' standIn)
    (hvalid : Valid model standIn t supply) (hvalid' : Valid model' standIn t' fresh)
    (hrun : (t.lower index).run supply = .ok step supply') :
    ∃ step' fresh', (t'.lower index).run fresh = .ok step' fresh' ∧
      Parallel step.lowering step'.lowering := by
  obtain ⟨plan, hplan, hcounted, hfound, hfresh, hnodup⟩ :=
    hvalid.exists_lower_iff.mp ⟨step, supply', hrun⟩
  obtain ⟨plan', hplan', hsimilar⟩ := htwins.plans index plan hplan
  -- Of a plan only what it reads and writes decides whether it is accepted.
  have haccepted : ∃ step' fresh', (t'.lower index).run fresh = .ok step' fresh' := by
    rw [hvalid'.exists_lower_iff]
    refine ⟨plan', hplan', hsimilar.counted hcounted, ?_, ?_, ?_⟩
    · intro k hk hnone
      rw [hsimilar.consumed] at hk
      obtain ⟨c, hc⟩ := hfound k hk (h.none_iff.mp hnone)
      refine ⟨c, ?_⟩
      rwa [pendingConstant, htwins.tensors, ← pendingConstant]
    · intro k hk
      rw [hsimilar.outputs] at hk
      exact h.none_iff.mpr (hfresh k hk)
    · rwa [hsimilar.outputs]
  obtain ⟨step', fresh', hrun'⟩ := haccepted
  refine ⟨step', fresh', hrun', ?_⟩
  obtain ⟨_, found, _, _, -, hfoundPlan, -, hmade, -⟩ := hvalid.lower_eq_ok hrun
  obtain ⟨_, found', _, _, -, hfoundPlan', -, hmade', -⟩ := hvalid'.lower_eq_ok hrun'
  rw [hplan] at hfoundPlan
  rw [hplan'] at hfoundPlan'
  cases hfoundPlan
  cases hfoundPlan'
  -- A tensor has a producer afterwards if it had one or the plan reads or writes it.
  intro k
  rw [hmade.exists_producer?_iff hvalid, hmade'.exists_producer?_iff hvalid', hsimilar.consumed,
    hsimilar.outputs, h k]

/-! ### Starting -/

/-- The lowerings differ in their models only, which have the same tensors. -/
structure Remodelled (t t' : Lowering) : Prop where
  tensors : t'.model.tensors = t.model.tensors
  graph : t'.graph = t.graph
  producers : t'.producers = t.producers

theorem Remodelled.parallel (h : Remodelled t t') : Parallel t t' := by
  intro k
  rw [producer?, producer?, h.producers]

/-- A change of one graph ends as it ends. -/
theorem lockstep_self {α : Type} (x : Build LoweringError α) (supply : GuidSupply) :
    Build.Lockstep Eq (fun a s a' s' => a = a' ∧ s = s') (x.run supply) (x.run supply) := by
  cases x.run supply with
  | ok a s => exact .ok ⟨rfl, rfl⟩
  | error e s => exact .error rfl

/-- Inputs are made in the same way for models with the same tensors. -/
theorem Remodelled.addInput (h : Remodelled t t') (tensor : Int32) (supply : GuidSupply) :
    Build.Lockstep Eq (fun u s u' s' => s = s' ∧ Remodelled u u')
      ((t.addInput tensor).run supply) ((t'.addInput tensor).run supply) := by
  have hboundary : boundaryTensor? t'.model tensor = boundaryTensor? t.model tensor := by
    rw [boundaryTensor?, h.tensors, ← boundaryTensor?]
  -- Both find the same tensor, so both take the same branches.
  unfold Lowering.addInput
  rw [hboundary, h.graph]
  dsimp only
  cases boundaryTensor? t.model tensor with
  | none => exact .error rfl
  | some found =>
    obtain ⟨index, source⟩ := found
    dsimp only
    by_cases hdynamic : source.isDynamic = true
    · rw [if_pos hdynamic, if_pos hdynamic]
      exact .error rfl
    rw [if_neg hdynamic, if_neg hdynamic]
    cases source.info with
    | error cause => exact .error rfl
    | ok info =>
      simp only [pure_bind]
      apply (lockstep_self _ supply).bind
      rintro ⟨layer, g⟩ s _ _ ⟨rfl, rfl⟩
      apply (lockstep_self _ s).bind
      rintro g s _ _ ⟨rfl, rfl⟩
      exact .ok ⟨rfl, h.tensors, rfl, by rw [h.producers]⟩

theorem lockstep_start_of_twins (htwins : model.Twins model' standIn) (supply : GuidSupply) :
    Build.Lockstep Eq (fun t s t' s' => s = s' ∧ Remodelled t t')
      ((start model standIn).run supply) ((start model' standIn).run supply) := by
  unfold start
  rw [htwins.inputs]
  apply Build.Lockstep.foldlM
  · rintro tensor - t s t' s' ⟨rfl, h⟩
    exact h.addInput tensor s
  · exact ⟨rfl, htwins.tensors, rfl, rfl⟩

/-! ### Histories -/

variable {history history' : History}

/-- A call that succeeds on one lowering does not fail on the other one. -/
theorem History.not_refused (htwins : model.Twins model' standIn)
    (hvalid : Valid model standIn history.site.lowering history.site.supply)
    (hvalid' : Valid model' standIn history'.site.lowering history'.site.supply)
    (h : Parallel history.site.lowering history'.site.lowering)
    (hrun : (history.site.lowering.lower index).run history.site.supply = .ok step supply)
    {e : LoweringError} {site : Site} :
    (InPlace.lower index).run history'.site ≠ .error e site := by
  intro hrefused
  obtain ⟨step', fresh', hrun', -⟩ := h.lower htwins hvalid hvalid' hrun
  have hlower := InPlace.lower_cases hvalid'.grown.sound index
  rw [hrefused, hrun'] at hlower
  cases hlower.1

theorem History.accepted_call (htwins : model.Twins model' standIn)
    (htwins' : model'.Twins model standIn)
    (hvalid : Valid model standIn history.site.lowering history.site.supply)
    (hvalid' : Valid model' standIn history'.site.lowering history'.site.supply)
    (h : Parallel history.site.lowering history'.site.lowering)
    (hentries : history'.entries.map (·.index) = history.entries.map (·.index)) (index : Nat) :
    Parallel (history.call index).site.lowering (history'.call index).site.lowering ∧
      (history'.call index).entries.map (·.index) =
        (history.call index).entries.map (·.index) := by
  rcases call_cases hvalid index with
    ⟨primary, site, -, hlower, heq, -⟩ | ⟨e, supply, heq, hrefused, -⟩
  · rcases call_cases hvalid' index with
      ⟨primary', site', -, hlower', heq', -⟩ | ⟨e, supply', -, hrefused', -⟩
    · obtain ⟨step', fresh', hrun', hparallel⟩ := h.lower htwins hvalid hvalid' hlower
      rw [hlower'] at hrun'
      cases hrun'
      rw [heq, heq']
      refine ⟨hparallel, ?_⟩
      rw [List.map_append, List.map_append, hentries]
      rfl
    · exact absurd hrefused' (not_refused htwins hvalid hvalid' h hlower)
  · rcases call_cases hvalid' index with
      ⟨primary', site', -, hlower', -, -⟩ | ⟨e', supply', heq', -, -⟩
    · exact absurd hrefused (not_refused htwins' hvalid' hvalid h.symm hlower')
    · rw [heq, heq']
      exact ⟨h, hentries⟩

/-- Of the same calls, the same ones succeed. By induction on the calls. -/
theorem History.accepted_calls (htwins : model.Twins model' standIn)
    (htwins' : model'.Twins model standIn)
    (hvalid : Valid model standIn history.site.lowering history.site.supply)
    (hvalid' : Valid model' standIn history'.site.lowering history'.site.supply)
    (h : Parallel history.site.lowering history'.site.lowering)
    (hentries : history'.entries.map (·.index) = history.entries.map (·.index))
    (indices : List Nat) :
    (history'.calls indices).entries.map (·.index) =
      (history.calls indices).entries.map (·.index) := by
  induction indices generalizing history history' with
  | nil => exact hentries
  | cons index indices ih =>
    obtain ⟨hparallel, hcall⟩ :=
      accepted_call htwins htwins' hvalid hvalid' h hentries index
    exact ih (valid_call hvalid index) (valid_call hvalid' index) hparallel hcall

/-- Of the same calls on new lowerings of two models whose plans read and write the same tensors,
    the same ones succeed. -/
theorem accepted_of_twins (htwins : model.Twins model' standIn)
    (htwins' : model'.Twins model standIn) (supply : GuidSupply) (indices : List Nat) :
    (History.over? model' standIn supply indices).map (·.entries.map (·.index)) =
      (History.over? model standIn supply indices).map (·.entries.map (·.index)) := by
  have hstart := lockstep_start_of_twins htwins supply
  unfold History.over?
  -- Either both are started or none is.
  cases hrun : (start model standIn).run supply with
  | error e s =>
    cases hrun' : (start model' standIn).run supply with
    | error e' s' => rfl
    | ok t' s' =>
      rw [hrun, hrun'] at hstart
      cases hstart
  | ok t s =>
    cases hrun' : (start model' standIn).run supply with
    | error e' s' =>
      rw [hrun, hrun'] at hstart
      cases hstart
    | ok t' s' =>
      rw [hrun, hrun'] at hstart
      cases hstart with
      | ok h =>
        have hcalls := History.accepted_calls htwins htwins' (History.valid_first hrun)
          (History.valid_first hrun') h.2.parallel rfl indices
        exact congrArg some hcalls

end Lowering

end LayerGraph
