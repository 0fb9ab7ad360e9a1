import LayerGraph.Proofs.Lowering.Run

/-! # Producers of tensors

  A tensor of a model should be produced by one output slot. What an operator writes is checked
  against the tensors that are produced so far. A constant that the operator reads is made after
  this check, so an operator that writes a constant which it reads gives it a second producer.

  Main statement: this is the only way to get one. The slots of an operator read what produces
  their tensors exactly when the operator is separate, that is, writes nothing that it reads, and
  every tensor has one producer exactly when all operators are separate (`producers_of_run`).
-/

namespace LayerGraph

/-- The plan writes no tensor that it reads. -/
def Plan.Separate (plan : Plan) : Prop := ∀ k ∈ plan.outputs, k ∉ plan.consumed

namespace Lowering

open LayerGraph.Graph

variable {model : Model} {standIn : Bool} {t t' : Lowering} {supply supply' : GuidSupply}
variable {plan : Plan} {sources : List (Nat × OutputRef)} {constants : List PendingConstant}
variable {op : Operation} {step : Step} {first : LayerId} {index k : Nat} {slot : InputRef}
variable {p : OutputRef} {run : Run} {indices : List Nat}

/-! ### What the slots of an operator read -/

/-- The input slot reads the output slot that produces the tensor. -/
def ReadsTensor (t : Lowering) (slot : InputRef) (k : Nat) : Prop :=
  ∃ p, t.graph.producer? slot = some p ∧ t.producer? k = some p

/-- The layers of a plan read what produces their tensors. The reshapes are made from the position
    `first` on, and the primary layer is behind them. -/
structure Fed (t : Lowering) (plan : Plan) (first : LayerId) : Prop where
  /-- A reshape reads its tensor. -/
  reshapes : ∀ r entry, plan.reshapes[r]? = some entry →
    (∃ target, t.graph.kind? (first + r) = some (.reshape target)) ∧
      t.ReadsTensor ⟨first + r, 0⟩ entry.1
  /-- A slot of the primary layer reads its tensor, -/
  direct : ∀ index k, plan.inputs[index]? = some (.tensor k) →
    t.ReadsTensor ⟨first + plan.reshapes.length, index⟩ k
  /-- or one of the reshapes. -/
  reshaped : ∀ index r, plan.inputs[index]? = some (.reshape r) → r < plan.reshapes.length ∧
    t.graph.producer? ⟨first + plan.reshapes.length, index⟩ = some ⟨first + r, 0⟩

/-! ### The layers that were made -/

theorem Made.content?_draft (h : Made t op plan sources constants step supply') {d : Draft}
    {place : Nat}
    (hd : (stepDrafts plan sources constants t.graph.layers.length)[place]? = some d) :
    step.lowering.graph.content? (t.graph.layers.length + place) = some d.content := by
  rw [h.extension.content?_new, List.getElem?_map, hd, Option.map_some]

/-- What the constants of an operator are made of. -/
theorem Made.content?_constant (h : Made t op plan sources constants step supply') {i : Nat}
    {c : PendingConstant} (hc : constants[i]? = some c) :
    step.lowering.graph.content? (t.graph.layers.length + i) = some c.draft.content := by
  refine h.content?_draft ?_
  rw [stepDrafts, List.getElem?_append_left, List.getElem?_map, hc, Option.map_some]
  rw [List.length_map]
  exact (List.getElem?_eq_some_iff.mp hc).1

theorem Made.content?_reshape (h : Made t op plan sources constants step supply') {r : Nat}
    {entry : Nat × PlannedLayer} (hr : plan.reshapes[r]? = some entry) :
    step.lowering.graph.content? (t.graph.layers.length + constants.length + r) =
      some (entry.2.draft [((knownSlots sources constants t.graph.layers.length).lookup
        entry.1).getD ⟨0, 0⟩]).content := by
  rw [Nat.add_assoc]
  refine h.content?_draft ?_
  have hreshape :=
    getElem?_reshapeDrafts (knownSlots sources constants t.graph.layers.length) hr
  rw [getElem?_stepDrafts, planDrafts, List.getElem?_append_left, hreshape]
  exact (List.getElem?_eq_some_iff.mp hreshape).1

/-- A reshape reads what is known of its tensor. -/
theorem Made.producer?_reshape (h : Made t op plan sources constants step supply') {r : Nat}
    {entry : Nat × PlannedLayer} (hr : plan.reshapes[r]? = some entry) :
    step.lowering.graph.producer? ⟨t.graph.layers.length + constants.length + r, 0⟩ =
      some (((knownSlots sources constants t.graph.layers.length).lookup entry.1).getD ⟨0, 0⟩) := by
  have hcontent := h.content?_reshape hr
  rw [producer?_of_draft hcontent]
  rfl

theorem Made.content?_primary (h : Made t op plan sources constants step supply') :
    step.lowering.graph.content?
        (t.graph.layers.length + constants.length + plan.reshapes.length) =
      some (plan.primary.draft (plan.inputs.map (slotAt plan
        (knownSlots sources constants t.graph.layers.length)
        (t.graph.layers.length + constants.length)))).content := by
  have hprimary := getElem?_planDrafts plan (knownSlots sources constants t.graph.layers.length)
    (t.graph.layers.length + constants.length) 0
  rw [← getElem?_stepDrafts] at hprimary
  rw [Nat.add_assoc]
  exact h.content?_draft hprimary

/-- A slot of the primary layer reads what is known of its tensor, or else a reshape. -/
theorem Made.producer?_primary (h : Made t op plan sources constants step supply') (index : Nat) :
    step.lowering.graph.producer?
        ⟨t.graph.layers.length + constants.length + plan.reshapes.length, index⟩ =
      plan.inputs[index]?.map (slotAt plan
        (knownSlots sources constants t.graph.layers.length)
        (t.graph.layers.length + constants.length)) := by
  have hcontent := h.content?_primary
  rw [producer?_of_draft hcontent, PlannedLayer.draft, List.getElem?_map]

/-! ### Producers after a step -/

/-- What is not written is produced by its constant or as before. -/
theorem Made.producer?_of_notMem (h : Made t op plan sources constants step supply')
    (hk : k ∉ plan.outputs) :
    step.lowering.producer? k =
      (constantSlots constants t.graph.layers.length ++ t.producers).lookup k := by
  rw [producer?, h.producers, producedSlots, List.append_assoc, List.lookup_append,
    lookup_eq_none_iff_notMem.mpr (by rwa [keys_writtenSlots]), Option.none_or]

/-- A tensor is produced as before, or by the last layer, or by its constant. -/
theorem Made.producer?_eq_some_iff (h : Made t op plan sources constants step supply') :
    step.lowering.producer? k = some p ↔ t.producer? k = some p ∨
      (p.layer = primaryAt plan constants t.graph.layers.length + plan.tail.length ∧
        plan.outputs[p.index]? = some k) ∨
      (k ∉ plan.outputs ∧ ∃ (place : Nat) (c : PendingConstant), constants[place]? = some c ∧
        c.tensor = k ∧ p = ⟨t.graph.layers.length + place, 0⟩) := by
  have hwritten : ((writtenSlots plan
      (primaryAt plan constants t.graph.layers.length + plan.tail.length)).map
        Prod.fst).Nodup := by
    rw [keys_writtenSlots]
    exact h.nodup
  have hmade : ((constantSlots constants t.graph.layers.length).map Prod.fst).Nodup := by
    rw [keys_constantSlots, h.sourced.tensors]
    exact plan.nodup_consumed.filter _
  rw [← mem_constantSlots_iff, ← mem_writtenSlots_iff, ← lookup_eq_some_iff_mem hwritten,
    ← lookup_eq_some_iff_mem hmade]
  by_cases hk : k ∈ plan.outputs
  · -- Nothing produced the tensor before, so the last layer does.
    have hkeys : k ∈ (writtenSlots plan
        (primaryAt plan constants t.graph.layers.length + plan.tail.length)).map Prod.fst := by
      rwa [keys_writtenSlots]
    obtain ⟨q, hq⟩ := exists_lookup_of_mem hkeys
    rw [producer?, h.producers, producedSlots, List.append_assoc, List.lookup_append, hq,
      h.fresh k hk]
    simp [hk]
  · have hnot : (writtenSlots plan
        (primaryAt plan constants t.graph.layers.length + plan.tail.length)).lookup k = none := by
      rwa [lookup_eq_none_iff_notMem, keys_writtenSlots]
    rw [h.producer?_of_notMem hk, hnot, List.lookup_append]
    cases hproducer : t.producer? k with
    | none =>
      have hold : t.producers.lookup k = none := hproducer
      simp [hold, hk]
    | some q =>
      have hold : t.producers.lookup k = some q := hproducer
      have hnone : (constantSlots constants t.graph.layers.length).lookup k = none := by
        rw [lookup_eq_none_iff_notMem, keys_constantSlots, h.sourced.tensors, List.mem_filter,
          hproducer]
        simp
      simp [hold, hnone]

/-- What is written is produced by the last layer. -/
theorem Made.producer?_of_mem (h : Made t op plan sources constants step supply')
    (hk : k ∈ plan.outputs) : ∃ index, step.lowering.producer? k =
      some ⟨primaryAt plan constants t.graph.layers.length + plan.tail.length, index⟩ := by
  obtain ⟨index, hindex⟩ := List.mem_iff_getElem?.mp hk
  exact ⟨index, h.producer?_eq_some_iff.mpr (.inr (.inl ⟨rfl, hindex⟩))⟩

/-- The producers there were stay the producers. -/
theorem Made.producer?_mono (h : Made t op plan sources constants step supply')
    (hk : t.producer? k = some p) : step.lowering.producer? k = some p :=
  h.producer?_eq_some_iff.mpr (.inl hk)

/-- What a plan reads of a tensor produces it afterwards, unless the plan writes the tensor. -/
theorem Made.exists_known (h : Made t op plan sources constants step supply')
    (hvalid : Valid model standIn t supply) (hk : k ∈ plan.consumed) :
    ∃ p, (knownSlots sources constants t.graph.layers.length).lookup k = some p ∧
      (step.lowering.producer? k = some p ↔ k ∉ plan.outputs) := by
  obtain ⟨p, hknown, hproducer⟩ :=
    h.sourced.exists_slot plan.nodup_consumed hk t.graph.layers.length
  refine ⟨p, hknown, fun heq hmem => ?_, fun hnot => ?_⟩
  · -- The known slots are in front of the primary layer, and what is written is not.
    obtain ⟨index, hlast⟩ := h.producer?_of_mem hmem
    rw [heq] at hlast
    cases hlast
    obtain ⟨c, hc, -⟩ := Operation.hasSlot_of_knownSlots (length_contents t.graph)
      (hvalid.available_sources h.sourced) (mem_of_lookup_eq_some hknown)
    have hlt := (List.getElem?_eq_some_iff.mp hc).1
    rw [List.length_append, List.length_map, List.length_map, length_contents] at hlt
    dsimp only [primaryAt] at hlt
    omega
  · rw [h.producer?_of_notMem hnot, hproducer]

/-- A slot that reads what is known of a tensor reads what produces the tensor, unless the plan
    writes it. -/
theorem Made.readsTensor_iff (h : Made t op plan sources constants step supply')
    (hvalid : Valid model standIn t supply) (hk : k ∈ plan.consumed)
    (hslot : step.lowering.graph.producer? slot =
      some (((knownSlots sources constants t.graph.layers.length).lookup k).getD ⟨0, 0⟩)) :
    step.lowering.ReadsTensor slot k ↔ k ∉ plan.outputs := by
  obtain ⟨p, hknown, hiff⟩ := h.exists_known hvalid hk
  rw [hknown, Option.getD_some] at hslot
  rw [ReadsTensor, hslot, ← hiff]
  exact ⟨fun ⟨q, hq, hk⟩ => Option.some.inj hq ▸ hk, fun hk => ⟨p, rfl, hk⟩⟩

/-- The slots of an operator read what produces their tensors exactly when it is separate. -/
theorem Made.fed_iff (h : Made t op plan sources constants step supply')
    (hvalid : Valid model standIn t supply) :
    step.lowering.Fed plan (t.graph.layers.length + constants.length) ↔ plan.Separate := by
  have hreshape (r : Nat) (entry : Nat × PlannedLayer) (hr : plan.reshapes[r]? = some entry) :
      step.lowering.ReadsTensor ⟨t.graph.layers.length + constants.length + r, 0⟩ entry.1 ↔
        entry.1 ∉ plan.outputs :=
    h.readsTensor_iff hvalid (Plan.mem_consumed_of_reshape hr) (h.producer?_reshape hr)
  have hdirect (index k : Nat) (hindex : plan.inputs[index]? = some (.tensor k)) :
      step.lowering.ReadsTensor
        ⟨t.graph.layers.length + constants.length + plan.reshapes.length, index⟩ k ↔
          k ∉ plan.outputs := by
    refine h.readsTensor_iff hvalid (Plan.mem_consumed_of_input hindex) ?_
    rw [h.producer?_primary, hindex]
    rfl
  constructor
  · intro hfed k hwritten hread
    -- Every tensor that the plan reads is read by a reshape or by the primary layer.
    rcases Plan.mem_consumed_iff.mp hread with ⟨entry, hentry, rfl⟩ | hslot
    · obtain ⟨r, hr⟩ := List.mem_iff_getElem?.mp hentry
      exact (hreshape r entry hr).mp (hfed.reshapes r entry hr).2 hwritten
    · obtain ⟨index, hindex⟩ := List.mem_iff_getElem?.mp hslot
      exact (hdirect index k hindex).mp (hfed.direct index k hindex) hwritten
  · intro hseparate
    have hnot (k : Nat) (hk : k ∈ plan.consumed) : k ∉ plan.outputs :=
      fun hwritten => hseparate k hwritten hk
    refine ⟨fun r entry hr => ⟨?_, ?_⟩, fun index k hindex => ?_, fun index r hindex => ?_⟩
    · obtain ⟨info, target, -, hkind, -⟩ :=
        h.planned.sound.reshapes entry (List.mem_of_getElem? hr)
      exact ⟨target, (kind?_of_draft (h.content?_reshape hr)).trans (congrArg some hkind)⟩
    · exact (hreshape r entry hr).mpr (hnot _ (Plan.mem_consumed_of_reshape hr))
    · exact (hdirect index k hindex).mpr (hnot _ (Plan.mem_consumed_of_input hindex))
    · have hlt : r < plan.reshapes.length :=
        h.planned.covered.slots r (List.mem_of_getElem? hindex)
      refine ⟨hlt, ?_⟩
      rw [h.producer?_primary, hindex, Option.map_some, slotAt_reshape hlt]

/-- Every tensor keeps one producer exactly when the operator is separate. -/
theorem Made.nodup_producers_iff (h : Made t op plan sources constants step supply') :
    (step.lowering.producers.map Prod.fst).Nodup ↔
      (t.producers.map Prod.fst).Nodup ∧ plan.Separate := by
  rw [h.producers, producedSlots, List.map_append, List.map_append, keys_writtenSlots,
    keys_constantSlots, h.sourced.tensors, List.nodup_append, List.nodup_append]
  constructor
  · rintro ⟨⟨-, -, hdisjoint⟩, hold, -⟩
    refine ⟨hold, fun k hwritten hread => ?_⟩
    exact hdisjoint k hwritten k (List.mem_filter.mpr ⟨hread, by simp [h.fresh k hwritten]⟩) rfl
  · rintro ⟨hold, hseparate⟩
    refine ⟨⟨h.nodup, plan.nodup_consumed.filter _, ?_⟩, hold, ?_⟩
    · rintro k hwritten _ hmade rfl
      exact hseparate k hwritten (List.mem_filter.mp hmade).1
    · -- What is new had no producer before.
      rintro k hnew _ hproduced rfl
      have hnone : t.producer? k = none := by
        rcases List.mem_append.mp hnew with hwritten | hmade
        · exact h.fresh k hwritten
        · simpa using (List.mem_filter.mp hmade).2
      exact lookup_eq_none_iff_notMem.mp hnone hproduced

/-! ### Later lowerings -/

/-- The lowering has the layers of another one in front and the same producers of its tensors. -/
structure Later (t t' : Lowering) : Prop where
  length : t.graph.layers.length ≤ t'.graph.layers.length
  content? : ∀ id < t.graph.layers.length, t'.graph.content? id = t.graph.content? id
  producer? : ∀ k p, t.producer? k = some p → t'.producer? k = some p

theorem Made.later (h : Made t op plan sources constants step supply') : Later t step.lowering where
  length := h.extension.length ▸ Nat.le_add_right _ _
  content? := fun _ hid => h.extension.content?_of_lt hid
  producer? := fun _ _ hk => h.producer?_mono hk

/-- What the layers of a plan read does not depend on anything else. -/
theorem Fed.of_agree (h : t.Fed plan first)
    (hcontent : ∀ id ≤ first + plan.reshapes.length, t'.graph.content? id = t.graph.content? id)
    (hproducer : ∀ k ∈ plan.consumed, t'.producer? k = t.producer? k) : t'.Fed plan first := by
  have hslot {slot : InputRef} (hle : slot.layer ≤ first + plan.reshapes.length) :
      t'.graph.producer? slot = t.graph.producer? slot := by
    rw [producer?_eq_content?, producer?_eq_content?, hcontent _ hle]
  have hreads {slot : InputRef} {k : Nat} (hle : slot.layer ≤ first + plan.reshapes.length)
      (hk : k ∈ plan.consumed) (hread : t.ReadsTensor slot k) : t'.ReadsTensor slot k := by
    rwa [ReadsTensor, hslot hle, hproducer k hk]
  refine ⟨fun r entry hr => ?_, fun index k hindex => ?_, fun index r hindex => ?_⟩
  · have hle : first + r ≤ first + plan.reshapes.length :=
      Nat.add_le_add_left (List.getElem?_eq_some_iff.mp hr).1.le first
    obtain ⟨⟨target, hkind⟩, hread⟩ := h.reshapes r entry hr
    refine ⟨⟨target, ?_⟩, hreads hle ?_ hread⟩
    · rw [kind?_eq_content?, hcontent _ hle, ← kind?_eq_content?, hkind]
    · exact Plan.mem_consumed_of_reshape hr
  · exact hreads (Nat.le_refl _) (Plan.mem_consumed_of_input hindex) (h.direct index k hindex)
  · obtain ⟨hlt, hread⟩ := h.reshaped index r hindex
    exact ⟨hlt, (hslot (Nat.le_refl _)).trans hread⟩

/-- An operator that was lowered: where its layers are and what they read. -/
structure Recorded (model : Model) (standIn : Bool) (t : Lowering) (entry : Nat × LayerId)
    (plan : Plan) (first : LayerId) : Prop where
  planned : Plan.ofOperator model entry.1 standIn = .ok plan
  primary : entry.2 = first + plan.reshapes.length
  placed : entry.2 < t.graph.layers.length
  known : ∀ k ∈ plan.consumed, ∃ p, t.producer? k = some p
  fed_iff : t.Fed plan first ↔ plan.Separate

/-- What was recorded stays true. -/
theorem Recorded.later {entry : Nat × LayerId} (h : Recorded model standIn t entry plan first)
    (hlater : Later t t') : Recorded model standIn t' entry plan first where
  planned := h.planned
  primary := h.primary
  placed := h.placed.trans_le hlater.length
  known := by
    intro k hk
    obtain ⟨p, hp⟩ := h.known k hk
    exact ⟨p, hlater.producer? k p hp⟩
  fed_iff := by
    rw [← h.fed_iff]
    -- Neither the layers nor the producers that this depends on change any more.
    have hcontent (id : LayerId) (hle : id ≤ first + plan.reshapes.length) :
        t'.graph.content? id = t.graph.content? id :=
      hlater.content? id (hle.trans_lt (h.primary ▸ h.placed))
    have hproducer (k : Nat) (hk : k ∈ plan.consumed) : t'.producer? k = t.producer? k := by
      obtain ⟨p, hp⟩ := h.known k hk
      rw [hp, hlater.producer? k p hp]
    exact ⟨fun hfed => hfed.of_agree (fun id hle => (hcontent id hle).symm)
      fun k hk => (hproducer k hk).symm, fun hfed => hfed.of_agree hcontent hproducer⟩

/-- An operator is recorded when it is lowered. -/
theorem Made.recorded (h : Made t op plan sources constants step supply')
    (hvalid : Valid model standIn t supply)
    (hplan : Plan.ofOperator model index standIn = .ok plan) :
    Recorded model standIn step.lowering (index, step.primary) plan
      (t.graph.layers.length + constants.length) where
  planned := hplan
  primary := h.primary
  placed := by
    rw [h.primary]
    exact lt_of_content? h.content?_primary
  known := by
    intro k hk
    by_cases hwritten : k ∈ plan.outputs
    · obtain ⟨index, hproducer⟩ := h.producer?_of_mem hwritten
      exact ⟨_, hproducer⟩
    · obtain ⟨p, -, hiff⟩ := h.exists_known hvalid hk
      exact ⟨p, hiff.mpr hwritten⟩
  fed_iff := h.fed_iff hvalid

/-! ### Inputs -/

/-- While the inputs are added, what produces a tensor is the input with the binding of the tensor,
    and no tensor has two of them. -/
structure Opened (model : Model) (standIn : Bool) (t : Lowering) (supply : GuidSupply) : Prop where
  valid : Valid model standIn t supply
  nodup : (t.producers.map Prod.fst).Nodup
  kinds : ∀ entry ∈ t.producers,
    t.graph.kind? entry.2.layer = some (.input (bindingOf entry.1))

/-- A second input of one tensor would have the binding of the first. -/
theorem Opened.addInput {tensor : Int32} (h : Opened model standIn t supply)
    (hrun : (t.addInput tensor).run supply = .ok t' supply') : Opened model standIn t' supply' := by
  obtain ⟨index, source, info, -, -, hextends, hproducers, hvalid⟩ := h.valid.addInput_eq_ok hrun
  have hnew : t'.graph.kind? t.graph.layers.length = some (.input (bindingOf index)) :=
    kind?_of_draft (hextends.content?_new 0)
  have hlt (entry : Nat × OutputRef) (hentry : entry ∈ t.producers) :
      entry.2.layer < t.graph.layers.length := by
    obtain ⟨c, hc, -⟩ := h.valid.available entry hentry
    rw [getElem?_contents] at hc
    exact lt_of_content? hc
  have hold (entry : Nat × OutputRef) (hentry : entry ∈ t.producers) :
      t'.graph.kind? entry.2.layer = some (.input (bindingOf entry.1)) := by
    rw [hextends.kind?_of_lt (hlt entry hentry), h.kinds entry hentry]
  refine ⟨hvalid, ?_, ?_⟩
  · rw [hproducers, List.map_cons, List.nodup_cons]
    refine ⟨fun hmem => ?_, h.nodup⟩
    obtain ⟨entry, hentry, heq⟩ := List.mem_map.mp hmem
    have hkind : t'.graph.kind? entry.2.layer =
        some (Direction.input.kind (bindingOf index)) := by
      rw [hold entry hentry, heq]
      rfl
    -- A coherent graph has no two inputs with one binding.
    have hsame := hvalid.grown.sound.coherent.kind_injective hkind hnew
    exact absurd (hlt entry hentry) (hsame ▸ Nat.lt_irrefl _)
  · rw [hproducers]
    exact List.forall_mem_cons.mpr ⟨hnew, hold⟩

/-- The inputs of a model have one producer each, since no two inputs have the same binding. -/
theorem opened_of_start (h : (start model standIn).run supply = .ok t supply') :
    Opened model standIn t supply' := by
  refine Build.foldlM_invariant (P := Opened model standIn) ?_ ?_ h
  · intro tensor _ t s t' s' hopened hrun
    exact hopened.addInput hrun
  · exact ⟨valid_start model standIn supply, List.nodup_nil, List.forall_mem_nil _⟩

/-! ### Runs -/

/-- The operators of a run are recorded, and tensors have one producer exactly when the operators
    are separate. -/
structure Traced (model : Model) (standIn : Bool) (run : Run) : Prop where
  valid : Valid model standIn run.lowering run.supply
  recorded : ∀ entry ∈ run.lowered,
    ∃ plan first, Recorded model standIn run.lowering entry plan first
  nodup_iff : (run.lowering.producers.map Prod.fst).Nodup ↔ ∀ entry ∈ run.lowered, ∀ plan,
    Plan.ofOperator model entry.1 standIn = .ok plan → plan.Separate

theorem Traced.call (h : Traced model standIn run) (index : Nat) :
    Traced model standIn (run.call index) := by
  have hvalid := Run.valid_call h.valid index
  rcases run.call_cases index with ⟨step, supply, hrun, heq⟩ | ⟨e, supply, -, heq⟩
  · obtain ⟨op, plan, sources, constants, -, hplan, -, hmade, -⟩ := h.valid.lower_eq_ok hrun
    rw [heq] at hvalid ⊢
    refine ⟨hvalid, ?_, ?_⟩
    · intro entry hentry
      rcases List.mem_append.mp hentry with hold | hnew
      · obtain ⟨plan', first, hrecorded⟩ := h.recorded entry hold
        exact ⟨plan', first, hrecorded.later hmade.later⟩
      · rw [List.mem_singleton.mp hnew]
        exact ⟨plan, _, hmade.recorded h.valid hplan⟩
    · have hlast : (∀ plan', Plan.ofOperator model index standIn = .ok plan' → plan'.Separate) ↔
          plan.Separate := by
        rw [hplan]
        exact ⟨fun hall => hall plan rfl, fun hseparate plan' heq => Except.ok.inj heq ▸ hseparate⟩
      rw [hmade.nodup_producers_iff, h.nodup_iff, List.forall_mem_append,
        List.forall_mem_singleton, hlast]
  · rw [heq] at hvalid ⊢
    exact ⟨hvalid, h.recorded, h.nodup_iff⟩

theorem Traced.calls (h : Traced model standIn run) (indices : List Nat) :
    Traced model standIn (run.calls indices) := by
  induction indices generalizing run with
  | nil => exact h
  | cons index indices ih => exact ih (h.call index)

theorem traced_over (h : Run.over? model standIn supply indices = some run) :
    Traced model standIn run := by
  obtain ⟨t, s, hstart, rfl⟩ := Run.exists_of_over? h
  have hopened := opened_of_start hstart
  refine Traced.calls ⟨hopened.valid, List.forall_mem_nil _, ?_⟩ indices
  exact iff_of_true hopened.nodup (List.forall_mem_nil _)

/-- An operator that writes a tensor with a producer, or one tensor twice, is refused for one of
    its tensors before a layer is made. -/
theorem lower_of_refused_outputs (supply : GuidSupply)
    (hplan : Plan.ofOperator t.model index t.standIn = .ok plan)
    (hbad : ¬ ((∀ k ∈ plan.outputs, t.producer? k = none) ∧ plan.outputs.Nodup)) :
    ∃ tensor fault, (t.lower index).run supply =
      .error (.invalidTensor index tensor fault) supply := by
  have hplanned : (Build.ofExcept (Plan.ofOperator t.model index t.standIn)).run supply =
      .ok plan supply := Build.ofExcept_eq_ok_iff.mpr ⟨hplan, rfl⟩
  unfold lower
  rw [Build.run_bind_of_ok hplanned]
  cases hsources : t.sourcesOf index plan with
  | error e =>
    obtain ⟨tensor, fault, rfl⟩ := sourcesOf_refuses e hsources
    exact ⟨tensor, fault, rfl⟩
  | ok found =>
    cases houtputs : t.checkOutputs index plan with
    | error e =>
      obtain ⟨tensor, fault, rfl⟩ := checkOutputs_refuses e houtputs
      exact ⟨tensor, fault, rfl⟩
    | ok _ => exact absurd (checkOutputs_eq_ok_iff.mp houtputs) hbad

/-- Every operator of a run is fed by the producers of its tensors exactly when it is separate, and
    every tensor has one producer exactly when all of them are. An operator that writes a tensor
    which has a producer already, or one tensor twice, is refused for one of its tensors, and
    nothing changes. -/
theorem producers_of_run (h : Run.over? model standIn supply indices = some run) :
    (∀ entry ∈ run.lowered, ∃ plan first, Plan.ofOperator model entry.1 standIn = .ok plan ∧
      entry.2 = first + plan.reshapes.length ∧ (run.lowering.Fed plan first ↔ plan.Separate)) ∧
    ((run.lowering.producers.map Prod.fst).Nodup ↔ ∀ entry ∈ run.lowered, ∀ plan,
      Plan.ofOperator model entry.1 standIn = .ok plan → plan.Separate) ∧
    ∀ index plan, Plan.ofOperator model index standIn = .ok plan →
      (∃ k ∈ plan.outputs, (run.lowering.producer? k).isSome) ∨ ¬ plan.outputs.Nodup →
        ∃ tensor fault, (run.lowering.lower index).run run.supply =
          .error (.invalidTensor index tensor fault) run.supply ∧ run.call index = run := by
  have htraced := traced_over h
  refine ⟨fun entry hentry => ?_, htraced.nodup_iff, fun index plan hplan hbad => ?_⟩
  · obtain ⟨plan, first, hrecorded⟩ := htraced.recorded entry hentry
    exact ⟨plan, first, hrecorded.planned, hrecorded.primary, hrecorded.fed_iff⟩
  · rw [← htraced.valid.sameModel, ← htraced.valid.sameStandIn] at hplan
    have hrefused : ¬ ((∀ k ∈ plan.outputs, run.lowering.producer? k = none) ∧
        plan.outputs.Nodup) := by
      rintro ⟨hfresh, hnodup⟩
      rcases hbad with ⟨k, hk, hsome⟩ | htwice
      · simp [hfresh k hk] at hsome
      · exact htwice hnodup
    obtain ⟨tensor, fault, hrun⟩ := lower_of_refused_outputs run.supply hplan hrefused
    refine ⟨tensor, fault, hrun, ?_⟩
    rw [Run.call, hrun]

/-- A model with an operator that writes the constant that it reads. -/
def overwrittenConstant : Model where
  tensors := [{ name := "k", shape := [1], storage := .float32, data := some [0, 0, 128, 63] }]
  operators := [{ code := .relu, inputs := [0], outputs := [0] }]

/-- The constant gets a second producer, and then nothing can write it any more. -/
theorem producers_of_run_overwrittenConstant :
    ∃ run, Run.over? overwrittenConstant false .initial [0] = some run ∧
      run.lowering.producers = [(0, ⟨1, 0⟩), (0, ⟨0, 0⟩)] ∧
      (¬ ∀ entry ∈ run.lowered, ∀ plan,
        Plan.ofOperator overwrittenConstant entry.1 false = .ok plan → plan.Separate) ∧
      ∃ tensor fault, (run.lowering.lower 0).run run.supply =
        .error (.invalidTensor 0 tensor fault) run.supply ∧ run.call 0 = run := by
  have hproducers : (Run.over? overwrittenConstant false .initial [0]).map
      (·.lowering.producers) = some [(0, ⟨1, 0⟩), (0, ⟨0, 0⟩)] := by
    decide +kernel
  have houtputs : (Plan.ofOperator overwrittenConstant 0 false).map (·.outputs) = .ok [0] := by
    decide +kernel
  obtain ⟨run, hrun, hproducers⟩ := Option.map_eq_some_iff.mp hproducers
  obtain ⟨-, hnodup, hrefused⟩ := producers_of_run hrun
  refine ⟨run, hrun, hproducers, fun hseparate => ?_, ?_⟩
  · have htwice := hnodup.mpr hseparate
    rw [hproducers] at htwice
    exact absurd htwice (by decide)
  · cases hplan : Plan.ofOperator overwrittenConstant 0 false with
    | ok plan =>
      rw [hplan] at houtputs
      have houtputs : plan.outputs = [0] := Except.ok.inj houtputs
      refine hrefused 0 plan hplan (.inl ⟨0, houtputs ▸ List.mem_singleton_self 0, ?_⟩)
      rw [producer?, hproducers]
      rfl
    | error e =>
      rw [hplan] at houtputs
      cases houtputs

end Lowering

end LayerGraph
