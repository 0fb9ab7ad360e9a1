import LayerGraph.Proofs.Lowering.Steps

/-! # Runs of a lowering

  A run lowers operators in any order, and goes on when one of them is refused. Its lowering is
  valid at all times (`Run.valid_calls`). Main statement: what becomes of every operator
  (`plans_build`). An operator that is planned, reads what is there and writes what is not is built,
  so the graph refuses none of its layers, with one exception. Two kinds of layers count their slots
  with 32 bits, the one that packs tensors and the one that stands in for an unknown operator. For
  2 ^ 32 tensors or more they have fewer slots than they need.
-/

namespace LayerGraph

namespace Lowering

open LayerGraph.Graph

/-! ### Runs -/

/-- A lowering between two calls. -/
structure Run where
  /-- The lowering. -/
  lowering : Lowering
  /-- Where the identities of layers come from. -/
  supply : GuidSupply
  /-- The operators that were lowered, each with its primary layer. -/
  lowered : List (Nat × LayerId)

namespace Run

/-- A run before its first call. -/
def first (t : Lowering) (supply : GuidSupply) : Run := ⟨t, supply, []⟩

/-- Lowers an operator. When it is refused, or stops, the lowering stays as it is. -/
def call (run : Run) (index : Nat) : Run :=
  match (run.lowering.lower index).run run.supply with
  | .ok step supply => ⟨step.lowering, supply, run.lowered ++ [(index, step.primary)]⟩
  | .error _ supply => { run with supply := supply }

/-- Lowers operators one after another. -/
def calls (run : Run) (indices : List Nat) : Run := indices.foldl call run

/-- The run over a model that lowers the given operators, when its inputs can be made. -/
def over? (model : Model) (standIn : Bool) (supply : GuidSupply) (indices : List Nat) :
    Option Run :=
  match (start model standIn).run supply with
  | .ok t supply => some ((first t supply).calls indices)
  | .error _ _ => none

end Run

variable {model : Model} {standIn standIn' : Bool} {t t' : Lowering} {supply supply' : GuidSupply}
variable {index : Nat} {plan : Plan} {sources : List (Nat × OutputRef)} {op : Operation}
variable {constants : List PendingConstant} {e : LoweringError} {run : Run} {indices : List Nat}

/-- A call adds an operator or is refused. -/
theorem Run.call_cases (run : Run) (index : Nat) :
    (∃ step supply, (run.lowering.lower index).run run.supply = .ok step supply ∧
      run.call index = ⟨step.lowering, supply, run.lowered ++ [(index, step.primary)]⟩) ∨
    (∃ e supply, (run.lowering.lower index).run run.supply = .error e supply ∧
      run.call index = { run with supply := supply }) := by
  cases hrun : (run.lowering.lower index).run run.supply with
  | ok step supply =>
    refine .inl ⟨step, supply, rfl, ?_⟩
    rw [call, hrun]
  | error e supply =>
    refine .inr ⟨e, supply, rfl, ?_⟩
    rw [call, hrun]

/-! ### Numbers are never taken back -/

theorem addPlanned_advances (g : Graph) (planned : PlannedLayer) :
    (addPlanned g planned).Advances := by
  unfold addPlanned
  refine (insert_advances g _ _).bind fun added => ?_
  refine .bind ?_ fun g => Build.advances_pure _
  exact Build.advances_foldlM (fun g slot => Build.advances_ofExcept _) _ _

theorem build_advances (g : Graph) (plan : Plan) (sources : List (Nat × OutputRef))
    (constants : List PendingConstant) : (build g plan sources constants).Advances := by
  unfold build
  refine .bind (Build.advances_foldlM (fun a c => ?_) _ _) fun a => ?_
  · unfold addConstant
    refine (insert_advances _ _ _).bind fun added => ?_
    exact (Build.advances_ofExcept _).bind fun g => Build.advances_pure _
  refine .bind (Build.advances_foldlM (fun a r => ?_) _ _) fun a => ?_
  · unfold addReshape
    refine (addPlanned_advances _ _).bind fun added => ?_
    exact (Build.advances_ofExcept _).bind fun g => Build.advances_pure _
  refine (addPlanned_advances _ _).bind fun added => ?_
  refine .bind (Build.advances_foldlM (fun g slot => Build.advances_ofExcept _) _ _) fun g => ?_
  refine .bind (Build.advances_foldlM (fun state planned => ?_) _ _) fun state => ?_
  · unfold addFollower
    refine (addPlanned_advances _ _).bind fun added => ?_
    exact (Build.advances_ofExcept _).bind fun g => Build.advances_pure _
  exact Build.advances_pure _

theorem lower_advances (t : Lowering) (index : Nat) : (t.lower index).Advances := by
  unfold lower
  refine (Build.advances_ofExcept _).bind fun plan => ?_
  refine (Build.advances_ofExcept _).bind fun found => ?_
  refine (Build.advances_ofExcept _).bind fun _ => ?_
  exact ((build_advances _ _ _ _).adaptExcept _).bind fun built => Build.advances_pure _

/-! ### Valid at all times -/

theorem Valid.later (h : Valid model standIn t supply)
    (hle : supply.next.number ≤ supply'.next.number) : Valid model standIn t supply' :=
  { h with grown := ⟨⟨h.grown.sound.coherent, fun id guid hguid =>
      Nat.lt_of_lt_of_le (h.grown.sound.spent id guid hguid) hle⟩, h.grown.forward⟩ }

theorem valid_of_start (h : (start model standIn).run supply = .ok t supply') :
    Valid model standIn t supply' := by
  refine Build.foldlM_invariant (P := Valid model standIn) ?_ (valid_start model standIn supply) h
  intro tensor _ t s t' s' hvalid hrun
  obtain ⟨_, _, _, -, -, -, -, hvalid'⟩ := hvalid.addInput_eq_ok hrun
  exact hvalid'

/-- What every input keeps holds of a new lowering. -/
theorem start_invariant {P : Lowering → Prop}
    (hinput : ∀ t supply tensor t' supply', Valid model standIn t supply → P t →
      (t.addInput tensor).run supply = .ok t' supply' → P t')
    (hempty : P ⟨model, standIn, .empty, []⟩)
    (h : (start model standIn).run supply = .ok t supply') : P t := by
  have hboth : Valid model standIn t supply' ∧ P t := by
    refine Build.foldlM_invariant (P := fun t s => Valid model standIn t s ∧ P t) ?_
      ⟨valid_start model standIn supply, hempty⟩ h
    intro tensor _ t s t' s' hkept hrun
    obtain ⟨_, _, _, -, -, -, -, hvalid⟩ := hkept.1.addInput_eq_ok hrun
    exact ⟨hvalid, hinput t s tensor t' s' hkept.1 hkept.2 hrun⟩
  exact hboth.2

/-- A call keeps the lowering valid, be it refused or not. -/
theorem Run.valid_call (h : Valid model standIn run.lowering run.supply) (index : Nat) :
    Valid model standIn (run.call index).lowering (run.call index).supply := by
  rcases run.call_cases index with ⟨step, supply, hrun, heq⟩ | ⟨e, supply, hrun, heq⟩
  · obtain ⟨_, _, _, _, -, -, -, -, hvalid⟩ := h.lower_eq_ok hrun
    rw [heq]
    exact hvalid
  · rw [heq]
    exact h.later ((lower_advances _ index).error _ _ _ hrun)

theorem Run.valid_calls (h : Valid model standIn run.lowering run.supply) (indices : List Nat) :
    Valid model standIn (run.calls indices).lowering (run.calls indices).supply := by
  induction indices generalizing run with
  | nil => exact h
  | cons index indices ih => exact ih (valid_call h index)

theorem Run.exists_of_over? (h : Run.over? model standIn supply indices = some run) :
    ∃ t s, (start model standIn).run supply = .ok t s ∧ run = (first t s).calls indices := by
  unfold over? at h
  split at h
  · next t s hstart => exact ⟨t, s, hstart, (Option.some.inj h).symm⟩
  · cases h

/-- The lowering of a run is valid. -/
theorem Run.valid_over (h : Run.over? model standIn supply indices = some run) :
    Valid model standIn run.lowering run.supply := by
  obtain ⟨t, s, hstart, rfl⟩ := exists_of_over? h
  exact valid_calls (valid_of_start hstart) indices

/-! ### What is planned is built -/

/-- The parts of a call one after another: the plan, what it reads, what it writes, its layers. -/
theorem lower_eq_error_iff :
    (t.lower index).run supply = .error e supply' ↔
      (Plan.ofOperator t.model index t.standIn = .error e ∧ supply = supply') ∨
      ∃ plan, Plan.ofOperator t.model index t.standIn = .ok plan ∧
        ((t.sourcesOf index plan = .error e ∧ supply = supply') ∨
        ∃ sources constants, t.sourcesOf index plan = .ok (sources, constants) ∧
          ((t.checkOutputs index plan = .error e ∧ supply = supply') ∨
          (t.checkOutputs index plan = .ok () ∧ ∃ cause,
            (build t.graph plan sources constants).run supply = .error cause supply' ∧
            .graph index cause = e))) := by
  unfold lower
  simp only [Build.bind_eq_error_iff, Build.ofExcept_eq_error_iff, Build.ofExcept_eq_ok_iff,
    Build.adaptExcept_eq_error_iff, Prod.exists]
  constructor
  · rintro (hplan | ⟨plan, _, ⟨hplan, rfl⟩, hsources | ⟨sources, constants, _, ⟨hsources, rfl⟩,
      houtputs | ⟨_, _, ⟨houtputs, rfl⟩, hbuild | ⟨_, _, -, hpure⟩⟩⟩⟩)
    · exact .inl hplan
    · exact .inr ⟨plan, hplan, .inl hsources⟩
    · exact .inr ⟨plan, hplan, .inr ⟨sources, constants, hsources, .inl houtputs⟩⟩
    · exact .inr ⟨plan, hplan, .inr ⟨sources, constants, hsources, .inr ⟨houtputs, hbuild⟩⟩⟩
    · cases hpure
  · rintro (hplan | ⟨plan, hplan, hsources | ⟨sources, constants, hsources,
      houtputs | ⟨houtputs, hbuild⟩⟩⟩)
    · exact .inl hplan
    · exact .inr ⟨plan, _, ⟨hplan, rfl⟩, .inl hsources⟩
    · exact .inr ⟨plan, _, ⟨hplan, rfl⟩, .inr ⟨sources, constants, _, ⟨hsources, rfl⟩,
        .inl houtputs⟩⟩
    · exact .inr ⟨plan, _, ⟨hplan, rfl⟩, .inr ⟨sources, constants, _, ⟨hsources, rfl⟩,
        .inr ⟨(), _, ⟨houtputs, rfl⟩, .inl hbuild⟩⟩⟩

/-- The slots that a plan reads are known when its layers are made. -/
theorem exists_known_of_sourcesOf (h : t.sourcesOf index plan = .ok (sources, constants)) {k : Nat}
    (hk : k ∈ plan.consumed) :
    ∃ p, (knownSlots sources constants t.graph.layers.length).lookup k = some p := by
  obtain ⟨p, hp, -⟩ :=
    (sourcesOf_eq_ok h).exists_slot plan.nodup_consumed hk t.graph.layers.length
  exact ⟨p, hp⟩

/-- A plan is built exactly when its primary layer can count its tensors. -/
theorem Valid.exists_build_iff (h : Valid model standIn t supply) (hplan : op.Planned plan)
    (hsources : t.sourcesOf index plan = .ok (sources, constants)) :
    (∃ built supply', (build t.graph plan sources constants).run supply = .ok built supply') ↔
      plan.Counted := by
  have hcovered := hplan.covered
  constructor
  · rintro ⟨built, supply', hbuild⟩
    obtain ⟨g', happend, -⟩ := build_eq_ok_iff.mp hbuild
    obtain ⟨hfits, -⟩ := h.grown.appendAll_eq_ok (fun d hd => hcovered.covers hd) happend
    -- The primary layer was appended, so it has the slots of its kind.
    have hprimary := hfits (plan.primary.draft (plan.inputs.map _))
      (List.mem_append_right _ (List.mem_append_right _ List.mem_cons_self))
    exact ⟨hprimary.inputs.trans (List.length_map _), hprimary.outputs.trans hcovered.described⟩
  · intro hcounted
    obtain ⟨g', s', happend⟩ := h.grown.exists_appendAll (fun d hd => hcovered.fits hcounted hd)
      (fun d hd => hcovered.binding?_eq_none hd)
      (hcovered.supplied (length_contents t.graph) (h.available_sources (sourcesOf_eq_ok hsources))
        fun k hk => exists_known_of_sourcesOf hsources hk)
    exact ⟨_, s', build_eq_ok_iff.mpr ⟨g', happend, rfl⟩⟩

/-- So the plan of an operator is built exactly when the tensors of the operator can be counted. -/
theorem Valid.builds_iff (h : Valid model standIn t supply) (hplan : op.plan standIn' = .ok plan)
    (hsources : t.sourcesOf index plan = .ok (sources, constants)) :
    (∃ built supply', (build t.graph plan sources constants).run supply = .ok built supply') ↔
      op.Countable := by
  rw [← Operation.counted_iff_countable hplan]
  exact h.exists_build_iff (Operation.plan_planned plan hplan) hsources

/-- The operator is planned, what it reads has a producer or is a constant, and nothing produces
    what it writes. -/
def Ready (t : Lowering) (index : Nat) (op : Operation) : Prop :=
  ∃ plan sources constants, op.plan t.standIn = .ok plan ∧
    t.sourcesOf index plan = .ok (sources, constants) ∧ t.checkOutputs index plan = .ok ()

section call

variable (h : Valid model standIn t supply) (hop : Operation.ofModel model index = .ok op)
include h hop

theorem Valid.ofOperator_eq : Plan.ofOperator t.model index t.standIn = op.plan t.standIn := by
  unfold Plan.ofOperator
  rw [h.sameModel, hop]
  rfl

/-- An operator is lowered when it is ready and its tensors can be counted. -/
theorem Valid.lowers_iff :
    (∃ step supply', (t.lower index).run supply = .ok step supply') ↔
      t.Ready index op ∧ op.Countable := by
  constructor
  · rintro ⟨step, supply', hrun⟩
    obtain ⟨plan, sources, constants, built, hplan, hsources, houtputs, hbuild, -⟩ :=
      lower_eq_ok_iff.mp hrun
    rw [h.ofOperator_eq hop] at hplan
    exact ⟨⟨plan, sources, constants, hplan, hsources, houtputs⟩,
      (h.builds_iff hplan hsources).mp ⟨_, _, hbuild⟩⟩
  · rintro ⟨⟨plan, sources, constants, hplan, hsources, houtputs⟩, hcount⟩
    obtain ⟨built, supply', hbuild⟩ := (h.builds_iff hplan hsources).mpr hcount
    rw [← h.ofOperator_eq hop] at hplan
    exact ⟨_, supply', lower_eq_ok_iff.mpr
      ⟨plan, sources, constants, built, hplan, hsources, houtputs, hbuild, rfl⟩⟩

/-- The graph refuses a layer of an operator that is ready and has too many tensors to count. -/
theorem Valid.graph_error_iff :
    (∃ cause supply', (t.lower index).run supply = .error (.graph index cause) supply') ↔
      t.Ready index op ∧ ¬ op.Countable := by
  constructor
  · rintro ⟨cause, supply', hrun⟩
    rcases lower_eq_error_iff.mp hrun with ⟨hplan, -⟩ | ⟨plan, hplan, ⟨hsources, -⟩ |
      ⟨sources, constants, hsources, ⟨houtputs, -⟩ | ⟨houtputs, _, hbuild, -⟩⟩⟩
    · rcases Plan.ofOperator_eq_error hplan with hblames | ⟨_, _, -, -, -, heq⟩
      · exact hblames.elim
      · cases heq
    · obtain ⟨_, _, heq⟩ := sourcesOf_refuses _ hsources
      cases heq
    · obtain ⟨_, _, heq⟩ := checkOutputs_refuses _ houtputs
      cases heq
    · rw [h.ofOperator_eq hop] at hplan
      refine ⟨⟨plan, sources, constants, hplan, hsources, houtputs⟩, fun hcount => ?_⟩
      obtain ⟨built, _, hok⟩ := (h.builds_iff hplan hsources).mpr hcount
      rw [hok] at hbuild
      cases hbuild
  · rintro ⟨⟨plan, sources, constants, hplan, hsources, houtputs⟩, hcount⟩
    cases hbuild : (build t.graph plan sources constants).run supply with
    | ok built supply' => exact absurd ((h.builds_iff hplan hsources).mp ⟨_, _, hbuild⟩) hcount
    | error cause supply' =>
      rw [← h.ofOperator_eq hop] at hplan
      exact ⟨cause, supply', lower_eq_error_iff.mpr (.inr ⟨plan, hplan, .inr
        ⟨sources, constants, hsources, .inr ⟨houtputs, cause, hbuild, rfl⟩⟩⟩)⟩

/-- Lowering an operator stops for a number that does not fit when its planning does. -/
theorem Valid.overflow_iff {operation : Overflow} :
    (∃ supply', (t.lower index).run supply = .error (.overflow operation) supply') ↔
      op.plan standIn = .error (.overflow operation) := by
  rw [← h.sameStandIn, ← h.ofOperator_eq hop]
  constructor
  · rintro ⟨supply', hrun⟩
    rcases lower_eq_error_iff.mp hrun with ⟨hplan, -⟩ | ⟨plan, -, ⟨hsources, -⟩ |
      ⟨sources, constants, -, ⟨houtputs, -⟩ | ⟨-, _, -, heq⟩⟩⟩
    · exact hplan
    · obtain ⟨_, _, heq⟩ := sourcesOf_refuses _ hsources
      cases heq
    · obtain ⟨_, _, heq⟩ := checkOutputs_refuses _ houtputs
      cases heq
    · cases heq
  · exact fun hplan => ⟨supply, lower_eq_error_iff.mpr (.inl ⟨hplan, rfl⟩)⟩

end call

/-- An operator is refused for its own fault. One that was found may be refused for numbers that do
    not fit or by the graph as well. -/
theorem lower_eq_error_cases (h : (t.lower index).run supply = .error e supply') :
    e.Blames index ∨ ∃ op, Operation.ofModel t.model index = .ok op ∧
      ((∃ operation, e = .overflow operation) ∨ ∃ cause, e = .graph index cause) := by
  rcases lower_eq_error_iff.mp h with ⟨hplan, -⟩ | ⟨plan, hplan, ⟨hsources, -⟩ |
    ⟨sources, constants, -, ⟨houtputs, -⟩ | ⟨-, cause, -, rfl⟩⟩⟩
  · rcases Plan.ofOperator_eq_error hplan with hblames | ⟨op, operation, hop, -, -, rfl⟩
    · exact .inl hblames
    · exact .inr ⟨op, hop, .inl ⟨operation, rfl⟩⟩
  · obtain ⟨tensor, fault, rfl⟩ := sourcesOf_refuses e hsources
    exact .inl rfl
  · obtain ⟨tensor, fault, rfl⟩ := checkOutputs_refuses e houtputs
    exact .inl rfl
  · obtain ⟨op, hop, -⟩ := Plan.ofOperator_planned hplan
    exact .inr ⟨op, hop, .inr ⟨cause, rfl⟩⟩

/-! ### Finishing -/

/-- An output is refused for its own fault. -/
theorem addOutput_eq_error {tensor : Int32}
    (h : (t.addOutput tensor).run supply = .error e supply') :
    ∃ fault, e = .invalidBoundary .output tensor.toInt fault := by
  unfold addOutput at h
  dsimp only at h
  split at h
  · split at h
    · rcases Build.bind_eq_error_iff.mp h with hinsert | ⟨p, s, -, h⟩
      · obtain ⟨cause, -, rfl⟩ := Build.adaptExcept_eq_error_iff.mp hinsert
        exact ⟨_, rfl⟩
      rcases Build.bind_eq_error_iff.mp h with hconnect | ⟨g, s, -, h⟩
      · obtain ⟨cause, -, rfl⟩ := Build.adaptExcept_eq_error_iff.mp hconnect
        exact ⟨_, rfl⟩
      · cases h
    · cases h
      exact ⟨_, rfl⟩
  · cases h
    exact ⟨_, rfl⟩

theorem Valid.addOutputs {tensors : List Int32} (h : Valid model standIn t supply)
    (hrun : (tensors.foldlM addOutput t).run supply = .ok t' supply') :
    Valid model standIn t' supply' := by
  refine Build.foldlM_invariant (P := Valid model standIn) ?_ h hrun
  intro tensor _ t s t' s' hvalid hstep
  obtain ⟨_, _, _, -, -, -, -, hvalid'⟩ := hvalid.addOutput_eq_ok hstep
  exact hvalid'

/-- What every output carries on, from the outputs before it to one more, holds of all outputs. -/
theorem Valid.addOutputs_prefix {P : List Int32 → Lowering → Prop} {tensors : List Int32}
    (houtput : ∀ done t supply tensor t' supply', Valid model standIn t supply → P done t →
      (t.addOutput tensor).run supply = .ok t' supply' → P (done ++ [tensor]) t')
    (h : Valid model standIn t supply) (hnone : P [] t)
    (hrun : (tensors.foldlM addOutput t).run supply = .ok t' supply') : P tensors t' := by
  have hboth : Valid model standIn t' supply' ∧ P tensors t' := by
    refine Build.foldlM_prefix (P := fun done t s => Valid model standIn t s ∧ P done t) ?_
      ⟨h, hnone⟩ hrun
    intro done tensor _ t s t' s' hkept hstep
    obtain ⟨_, _, _, -, -, -, -, hvalid⟩ := hkept.1.addOutput_eq_ok hstep
    exact ⟨hvalid, houtput done t s tensor t' s' hkept.1 hkept.2 hstep⟩
  exact hboth.2

/-- Finishing refuses outputs only, since the graph is complete with them. -/
theorem Valid.finish_eq_error (h : Valid model standIn t supply)
    (hrun : t.finish.run supply = .error e supply') :
    ∃ tensor fault, e = .invalidBoundary .output tensor fault := by
  unfold finish at hrun
  rcases Build.bind_eq_error_iff.mp hrun with houtputs | ⟨t', s, houtputs, hrun⟩
  · refine Build.foldlM_eq_error
      (p := fun e => ∃ tensor fault, e = .invalidBoundary .output tensor fault)
      (fun tensor _ t s e s' hstep => ?_) houtputs
    obtain ⟨fault, rfl⟩ := addOutput_eq_error hstep
    exact ⟨_, fault, rfl⟩
  · -- The outputs leave the graph complete, so the last check passes.
    have hvalid : Valid model standIn t' s := h.addOutputs houtputs
    rw [validate_eq_ok_iff.mpr hvalid.complete] at hrun
    cases hrun

/-- The graph is finished by adding its outputs. -/
theorem Valid.finish_eq_ok {g : Graph} (h : Valid model standIn t supply)
    (hrun : t.finish.run supply = .ok g supply') :
    ∃ t', t'.graph = g ∧ Valid model standIn t' supply' := by
  obtain ⟨t', houtputs, -, heq⟩ := finish_eq_ok_iff.mp hrun
  exact ⟨t', heq, h.addOutputs houtputs⟩

/-! ### Plans are built -/

/-- Whatever was lowered, and whichever operators were refused: the graph is coherent and complete,
    and the finished graph is complete. An operator that was found is lowered exactly when it is
    ready and its tensors can be counted. When it is ready and they cannot, the graph refuses a
    layer, and this happens in no other case. Lowering stops exactly when planning meets a number
    that does not fit, which only three kinds of operators can have. All other errors are faults of
    the operator. The slots of every plan are covered, they are as many as its tensors exactly when
    these can be counted, and what it reads has an output slot when its layers are made. -/
theorem plans_build (h : Run.over? model standIn supply indices = some run) :
    run.lowering.graph.Coherent ∧ run.lowering.graph.validate = .ok () ∧
    (∀ cause s, run.lowering.finish.run run.supply ≠ .error (.incomplete cause) s) ∧
    (∀ index op, Operation.ofModel model index = .ok op →
      ((∃ step s, (run.lowering.lower index).run run.supply = .ok step s) ↔
        run.lowering.Ready index op ∧ op.Countable) ∧
      ((∃ cause s, (run.lowering.lower index).run run.supply = .error (.graph index cause) s) ↔
        run.lowering.Ready index op ∧ ¬ op.Countable) ∧
      ∀ operation,
        ((∃ s, (run.lowering.lower index).run run.supply = .error (.overflow operation) s) ↔
          op.plan standIn = .error (.overflow operation)) ∧
        (op.plan standIn = .error (.overflow operation) → op.MayOverflow operation)) ∧
    (∀ index e s, (run.lowering.lower index).run run.supply = .error e s →
      e.Blames index ∨ ∃ op, Operation.ofModel model index = .ok op ∧
        ((∃ operation, e = .overflow operation) ∨ ∃ cause, e = .graph index cause)) ∧
    ∀ index op plan, Operation.ofModel model index = .ok op → op.plan standIn = .ok plan →
      op.Covered plan ∧ (plan.Counted ↔ op.Countable) ∧
      ∀ sources constants, run.lowering.sourcesOf index plan = .ok (sources, constants) →
        ∀ k ∈ plan.consumed, ∃ p,
          (knownSlots sources constants run.lowering.graph.layers.length).lookup k = some p := by
  have hvalid := Run.valid_over h
  refine ⟨hvalid.grown.sound.coherent, validate_eq_ok_iff.mpr hvalid.complete, ?finished, ?called,
    ?refused, ?covered⟩
  case finished =>
    intro cause s hrun
    obtain ⟨tensor, fault, heq⟩ := hvalid.finish_eq_error hrun
    cases heq
  case called =>
    intro index op hop
    refine ⟨hvalid.lowers_iff hop, hvalid.graph_error_iff hop, fun operation => ?_⟩
    exact ⟨hvalid.overflow_iff hop, Operation.plan_refuses _⟩
  case refused =>
    intro index e s hrun
    rw [← hvalid.sameModel]
    exact lower_eq_error_cases hrun
  case covered =>
    intro index op plan hop hplan
    exact ⟨(Operation.plan_planned plan hplan).covered, Operation.counted_iff_countable hplan,
      fun sources constants hsources k hk => exists_known_of_sourcesOf hsources hk⟩

/-- A vector that is taken apart in two parts, whose sizes need more than 64 bits together. -/
def overfullParts : Model where
  tensors := [
    { name := "x", shape := [4], storage := .float32 },
    { name := "sizes", shape := [2], storage := .int64
      data := some [255, 255, 255, 255, 255, 255, 255, 127, 1, 0, 0, 0, 0, 0, 0, 0] },
    { name := "axis", shape := [1], storage := .int32, data := some [0, 0, 0, 0] },
    { name := "a", shape := [2], storage := .float32 },
    { name := "b", shape := [2], storage := .float32 }]
  operators := [
    { code := .splitV, inputs := [0, 1, 2], outputs := [3, 4], options := { splitCount := 2 } }]
  inputs := [0]
  outputs := [3, 4]

/-- The operator that takes it apart, with its tensors. -/
def overfullSplit : Operation where
  model := overfullParts
  index := 0
  operator :=
    { code := .splitV, inputs := [0, 1, 2], outputs := [3, 4], options := { splitCount := 2 } }
  inputs := [0, 1, 2]
  outputs := [3, 4]

/-- An unknown operator that reads one tensor so many times. -/
def crowded (n : Nat) : Model where
  tensors := [{ name := "x", shape := [1], storage := .float32 }]
  operators := [{ code := .other "CROWD", inputs := List.replicate n 0, outputs := [] }]
  inputs := [0]
  outputs := []

/-- The operator of such a model, with its tensors. -/
def crowd (n : Nat) : Operation where
  model := crowded n
  index := 0
  operator := { code := .other "CROWD", inputs := List.replicate n 0, outputs := [] }
  inputs := List.replicate n 0
  outputs := []

theorem ofModel_crowded (n : Nat) : Operation.ofModel (crowded n) 0 = .ok (crowd n) := by
  refine Operation.ofModel_eq_ok_iff.mpr ⟨_, List.replicate n 0, [], rfl, ?_, rfl, ?_, rfl⟩
  · rw [List.filter_replicate_of_pos (by decide), Except.mapM_eq_ok_iff]
    induction n with
    | zero => exact .nil
    | succ n ih => exact .cons rfl ih
  · intro k hk
    rw [List.append_nil] at hk
    obtain rfl := List.eq_of_mem_replicate hk
    rfl

/-- It is ready, since the tensor is an input of the model. -/
theorem ready_crowded (n : Nat) :
    ∃ run, Run.over? (crowded n) true .initial [] = some run ∧ run.lowering.Ready 0 (crowd n) := by
  obtain ⟨run, hrun, hstandIn, hinput⟩ : ∃ run, Run.over? (crowded n) true .initial [] = some run ∧
      run.lowering.standIn = true ∧ run.lowering.producer? 0 = some ⟨0, 0⟩ := ⟨_, rfl, rfl, rfl⟩
  refine ⟨run, hrun, ?_⟩
  obtain ⟨infos, hinfos⟩ : ∃ infos, (crowd n).inputs.mapM (crowd n).info = .ok infos := by
    refine Except.exists_mapM_eq_ok fun k hk => ?_
    obtain rfl := List.eq_of_mem_replicate hk
    exact ⟨_, rfl⟩
  obtain ⟨plan, hplan⟩ : ∃ plan, (crowd n).plan true = .ok plan :=
    ⟨_, Except.bind_eq_ok_iff.mpr ⟨infos, hinfos, rfl⟩⟩
  obtain ⟨read, written, -, -, hlayer⟩ := Operation.layer_eq_ok hplan
  have hread : ∀ k ∈ plan.consumed, k = 0 := by
    intro k hk
    rw [hlayer] at hk
    rcases Plan.mem_consumed_iff.mp hk with ⟨r, hr, -⟩ | hdirect
    · cases hr
    · obtain ⟨t, ht, heq⟩ := List.mem_map.mp hdirect
      cases heq
      exact List.eq_of_mem_replicate ht
  have hwritten : plan.outputs = [] := by rw [hlayer]; rfl
  obtain ⟨⟨sources, constants⟩, hsources⟩ : ∃ found, run.lowering.sourcesOf 0 plan = .ok found := by
    refine exists_sourcesOf_iff.mpr fun k hk hnone => ?_
    rw [hread k hk, hinput] at hnone
    cases hnone
  rw [← hstandIn] at hplan
  refine ⟨plan, sources, constants, hplan, hsources, checkOutputs_eq_ok_iff.mpr ?_⟩
  rw [hwritten]
  exact ⟨List.forall_mem_nil _, List.nodup_nil⟩

theorem plans_build_crowded :
    (∃ run s, Run.over? overfullParts false .initial [] = some run ∧
      (run.lowering.lower 0).run run.supply = .error (.overflow .add) s) ∧
    ∃ run cause s, Run.over? (crowded (2 ^ 32)) true .initial [] = some run ∧
      (run.lowering.lower 0).run run.supply = .error (.graph 0 cause) s := by
  constructor
  · have hrun : ∃ run, Run.over? overfullParts false .initial [] = some run := ⟨_, rfl⟩
    obtain ⟨run, hrun⟩ := hrun
    obtain ⟨-, -, -, hcalled, -⟩ := plans_build hrun
    have hfound : Operation.ofModel overfullParts 0 = .ok overfullSplit := rfl
    obtain ⟨-, -, hstops⟩ := hcalled 0 _ hfound
    have hplan : (overfullSplit.plan false).map (fun _ => ()) = .error (.overflow .add) := by
      decide +kernel
    obtain ⟨s, hlower⟩ := (hstops .add).1.mpr (Except.map_eq_error_iff.mp hplan)
    exact ⟨run, s, hrun, hlower⟩
  · obtain ⟨run, hrun, hready⟩ := ready_crowded (2 ^ 32)
    obtain ⟨-, -, -, hcalled, -⟩ := plans_build hrun
    obtain ⟨-, hrefused, -⟩ := hcalled 0 _ (ofModel_crowded (2 ^ 32))
    have hmany : ¬ (crowd (2 ^ 32)).Countable := by
      intro hcount
      have hlt : (List.replicate (2 ^ 32) 0).length < 2 ^ 32 := (hcount.unknown _ rfl).1
      rw [List.length_replicate] at hlt
      exact Nat.lt_irrefl _ hlt
    obtain ⟨cause, s, hlower⟩ := hrefused.mpr ⟨hready, hmany⟩
    exact ⟨run, cause, s, hrun, hlower⟩

end Lowering

end LayerGraph
