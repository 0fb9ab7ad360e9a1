import LayerGraph.Proofs.Lowering.Assembly
import LayerGraph.Proofs.Lowering.Plans

/-! # Plans fit together

  In a plan every slot is taken care of. The reshapes in front and the layers behind read one slot
  and write one. The primary layer is connected in all its input slots and described in all its
  output slots, and no connection is too much as long as 32 bits count the tensors of the operator
  (`Planned.covered`).

  So making a plan never leaves a slot open (`Covered.covers`), and it works when every tensor that
  the plan reads has an output slot (`Covered.supplied`).
-/

namespace LayerGraph

open LayerGraph.Graph

/-! ### What a plan reads -/

theorem nodup_eraseDups {α : Type} [BEq α] [LawfulBEq α] (l : List α) : l.eraseDups.Nodup := by
  induction hn : l.length using Nat.strong_induction_on generalizing l with
  | _ n ih =>
    cases l with
    | nil => exact List.nodup_nil
    | cons a l =>
      rw [List.eraseDups_cons, List.nodup_cons]
      refine ⟨by simp [List.mem_eraseDups], ih _ ?_ _ rfl⟩
      rw [← hn, List.length_cons]
      exact Nat.lt_succ_of_le (List.length_filter_le _ _)

namespace Plan

variable {plan : Plan} {k : Nat}

theorem nodup_consumed (plan : Plan) : plan.consumed.Nodup := nodup_eraseDups _

/-- A plan reads the tensors of its reshapes and those that its primary layer reads directly. -/
theorem mem_consumed_iff :
    k ∈ plan.consumed ↔ (∃ r ∈ plan.reshapes, r.1 = k) ∨ SlotSource.tensor k ∈ plan.inputs := by
  have hdirect : k ∈ plan.inputs.filterMap directTensor? ↔ SlotSource.tensor k ∈ plan.inputs := by
    rw [List.mem_filterMap]
    constructor
    · rintro ⟨source, hsource, heq⟩
      cases source with
      | tensor t =>
        cases heq
        exact hsource
      | reshape r => cases heq
    · exact fun h => ⟨_, h, rfl⟩
  rw [consumed, List.mem_eraseDups, List.mem_append, List.mem_map, hdirect]

theorem mem_consumed_of_reshape {r : Nat} {entry : Nat × PlannedLayer}
    (h : plan.reshapes[r]? = some entry) : entry.1 ∈ plan.consumed :=
  mem_consumed_iff.mpr (.inl ⟨entry, List.mem_of_getElem? h, rfl⟩)

theorem mem_consumed_of_input {index : Nat} (h : plan.inputs[index]? = some (.tensor k)) :
    k ∈ plan.consumed :=
  mem_consumed_iff.mpr (.inr (List.mem_of_getElem? h))

end Plan

/-! ### Covered slots -/

/-- A layer that reads one slot and writes one. -/
structure PlannedLayer.Single (l : PlannedLayer) : Prop where
  binding? : l.kind.binding? = none
  inputs : l.kind.inputCount = 1
  outputs : l.kind.outputCount = 1
  described : l.outputs.length = 1

theorem PlannedLayer.Single.fits {layer : PlannedLayer} (h : layer.Single) (p : OutputRef) :
    (layer.draft [p]).Fits :=
  ⟨h.inputs, h.outputs.trans h.described.symm⟩

/-- The primary layer has a slot for every tensor that is connected to it and for every output. -/
def Plan.Counted (plan : Plan) : Prop :=
  plan.primary.kind.inputCount = plan.inputs.length ∧
    plan.primary.kind.outputCount = plan.outputs.length

namespace Operation

variable {op : Operation} {plan : Plan}

/-- A plan of the operator without an open slot. -/
structure Covered (op : Operation) (plan : Plan) : Prop where
  reshapes : ∀ r ∈ plan.reshapes, r.2.Single
  tail : ∀ layer ∈ plan.tail, layer.Single
  binding? : plan.primary.kind.binding? = none
  outputs : plan.outputs = op.outputs
  described : plan.primary.outputs.length = plan.outputs.length
  /-- The layers behind the primary one carry on its one output. -/
  one : plan.tail ≠ [] → plan.outputs.length = 1
  /-- A slot that is fed through a reshape is fed through one of the plan. -/
  slots : ∀ r, SlotSource.reshape r ∈ plan.inputs → r < plan.reshapes.length
  inputs_le : plan.primary.kind.inputCount ≤ plan.inputs.length
  outputs_le : plan.primary.kind.outputCount ≤ plan.outputs.length
  counts : op.Countable → plan.primary.kind.inputCount = plan.inputs.length ∧
    plan.primary.kind.outputCount = plan.outputs.length

theorem layer_covered {kind : LayerKind} {name : String} {connected : List Nat}
    (hkind : op.Represents kind connected) (h : op.layer kind name connected = .ok plan) :
    op.Covered plan := by
  obtain ⟨inputs, outputs, -, houtputs, rfl⟩ := layer_eq_ok h
  have hlength : (connected.map SlotSource.tensor).length = connected.length := List.length_map _
  refine ⟨by simp, by simp, hkind.binding?, rfl, length_of_mapM houtputs, nofun, ?_, ?_,
    hkind.outputs_le, ?_⟩
  · intro r hr
    obtain ⟨t, -, heq⟩ := List.mem_map.mp hr
    cases heq
  · exact hkind.inputs_le.trans hlength.ge
  · exact fun hcount => ⟨(hkind.counts hcount).1.trans hlength.symm, (hkind.counts hcount).2⟩

theorem Covered.reshapeInput {slot tensor : Nat} {info : TensorInfo} {target : List UInt32}
    (h : op.Covered plan) : op.Covered (plan.reshapeInput slot tensor info target) where
  reshapes := by
    intro r hr
    rcases List.mem_append.mp hr with hold | hnew
    · exact h.reshapes r hold
    · rw [List.mem_singleton] at hnew
      subst hnew
      exact ⟨rfl, rfl, rfl, rfl⟩
  tail := h.tail
  binding? := h.binding?
  outputs := h.outputs
  described := h.described
  one := h.one
  slots := by
    intro r hr
    show r < (plan.reshapes ++ [_]).length
    rw [List.length_append, List.length_singleton]
    -- The slot that was set reads the new reshape, which is the last one.
    rcases List.mem_or_eq_of_mem_set hr with hold | hnew
    · exact Nat.lt_succ_of_lt (h.slots r hold)
    · cases hnew
      exact Nat.lt_succ_self _
  inputs_le := h.inputs_le.trans (List.length_set ..).ge
  outputs_le := h.outputs_le
  counts := fun hcount => ⟨(h.counts hcount).1.trans (List.length_set ..).symm, (h.counts hcount).2⟩

/-- The primary layer of a plan with one output and the layers behind it describe one each. -/
theorem Covered.length_outputs {layer : PlannedLayer} (h : op.Covered plan)
    (hone : plan.outputs.length = 1) (hlayer : layer ∈ plan.primary :: plan.tail) :
    layer.outputs.length = 1 := by
  rcases List.mem_cons.mp hlayer with rfl | htail
  · exact h.described.trans hone
  · exact (h.tail layer htail).described

/-- The last layer of a plan with one output describes one. -/
theorem Covered.last (h : op.Covered plan) (hone : plan.outputs.length = 1) :
    (plan.tail.getLastD plan.primary).outputs.length = 1 :=
  h.length_outputs hone List.getLastD_mem_cons

theorem Covered.fuse {plan' : Plan} (h : op.Covered plan) (hone : op.outputs.length = 1)
    (hfuse : op.fuse plan = .ok plan') : op.Covered plan' := by
  rcases fuse_eq_ok hfuse with rfl | ⟨params, name, rfl⟩
  · exact h
  · have hout : plan.outputs.length = 1 := by rw [h.outputs, hone]
    refine { h with tail := ?_, one := fun _ => hout }
    intro layer hmem
    rcases List.mem_append.mp hmem with hold | hnew
    · exact h.tail layer hold
    · rw [List.mem_singleton] at hnew
      subst hnew
      refine ⟨rfl, rfl, rfl, ?_⟩
      rw [List.length_take, h.last hout, Nat.min_self]

/-- No slot is left open in what is planned for an operator. -/
theorem Planned.covered (h : op.Planned plan) : op.Covered plan := by
  induction h with
  | layer hkind h => exact layer_covered hkind h
  | reshaped _ _ ih => exact ih.reshapeInput
  | fused _ hone hfuse ih => exact ih.fuse hone hfuse

/-! ### Making a plan -/

section making

open Lowering

variable {sources : List (Nat × OutputRef)} {constants : List PendingConstant} {n : LayerId}
variable {d : Draft}

theorem Covered.single (h : op.Covered plan) {layer : PlannedLayer}
    (hlayer : layer ∈ plan.reshapes.map (·.2) ∨ layer ∈ plan.tail) : layer.Single := by
  rcases hlayer with hreshape | htail
  · obtain ⟨r, hr, rfl⟩ := List.mem_map.mp hreshape
    exact h.reshapes r hr
  · exact h.tail layer htail

theorem Covered.covers (h : op.Covered plan) (hd : d ∈ stepDrafts plan sources constants n) :
    d.Covers := by
  rcases stepDrafts_cases hd with ⟨c, -, rfl⟩ | ⟨layer, hlayer, p, rfl⟩ | ⟨slots, hslots, rfl⟩
  · exact ⟨Nat.le_refl 0, Nat.le_refl 1⟩
  · exact ((h.single hlayer).fits p).covers
  · exact ⟨h.inputs_le.trans hslots.ge, h.outputs_le.trans h.described.ge⟩

theorem Covered.fits (h : op.Covered plan) (hcounted : plan.Counted)
    (hd : d ∈ stepDrafts plan sources constants n) : d.Fits := by
  rcases stepDrafts_cases hd with ⟨c, -, rfl⟩ | ⟨layer, hlayer, p, rfl⟩ | ⟨slots, hslots, rfl⟩
  · exact ⟨rfl, rfl⟩
  · exact (h.single hlayer).fits p
  · exact ⟨hcounted.1.trans hslots.symm, hcounted.2.trans h.described.symm⟩

theorem Covered.binding?_eq_none (h : op.Covered plan)
    (hd : d ∈ stepDrafts plan sources constants n) : d.kind.binding? = none := by
  rcases stepDrafts_cases hd with ⟨c, -, rfl⟩ | ⟨layer, hlayer, p, rfl⟩ | ⟨slots, -, rfl⟩
  · rfl
  · exact (h.single hlayer).binding?
  · exact h.binding?

/-- Constants have output slots. -/
theorem hasSlot_of_constantSlots {contents : List LayerContent} (hlength : contents.length = n)
    {entry : Nat × OutputRef} (hentry : entry ∈ constantSlots constants n) :
    HasSlot (contents ++ (constants.map PendingConstant.draft).map Draft.content) entry.2 := by
  obtain ⟨k, p⟩ := entry
  obtain ⟨place, c, hc, -, rfl⟩ := mem_constantSlots_iff.mp hentry
  have hdraft : (constants.map PendingConstant.draft)[place]? = some c.draft := by
    rw [List.getElem?_map, hc, Option.map_some]
  refine hasSlot_of_draft hdraft ?_ Nat.one_pos
  rw [hlength]

/-- The slots that a plan can read are there when its constants are made. -/
theorem hasSlot_of_knownSlots {contents : List LayerContent} (hlength : contents.length = n)
    (hsources : ∀ entry ∈ sources, HasSlot contents entry.2) {entry : Nat × OutputRef}
    (hentry : entry ∈ knownSlots sources constants n) :
    HasSlot (contents ++ (constants.map PendingConstant.draft).map Draft.content) entry.2 := by
  rcases List.mem_append.mp hentry with hmade | hold
  · exact hasSlot_of_constantSlots hlength (List.mem_reverse.mp hmade)
  · exact (hsources entry hold).append _

/-- The layers of a chain are supplied, since each of them has an output slot. -/
theorem supplied_chainDrafts {contents : List LayerContent} {tail : List PlannedLayer}
    {last : LayerId} (htail : ∀ layer ∈ tail, layer.Single) (hlast : last + 1 = contents.length)
    (hslot : tail ≠ [] → HasSlot contents ⟨last, 0⟩) :
    Supplied contents (chainDrafts tail last) := by
  induction tail generalizing contents last with
  | nil => exact trivial
  | cons layer tail ih =>
    obtain ⟨hlayer, htail⟩ := List.forall_mem_cons.mp htail
    rw [chainDrafts_cons]
    refine ⟨?_, ih htail ?_ ?_⟩
    · exact List.forall_mem_singleton.mpr (hslot (List.cons_ne_nil _ _))
    · rw [List.length_append, List.length_singleton, hlast]
    · intro _
      exact hasSlot_append_content hlast (hlayer.described.symm ▸ Nat.one_pos)

/-- Every layer of a plan reads what is there when it is made, if the tensors that the plan reads
    have output slots. -/
theorem Covered.supplied (h : op.Covered plan) {contents : List LayerContent}
    (hlength : contents.length = n) (hsources : ∀ entry ∈ sources, HasSlot contents entry.2)
    (hknown : ∀ k ∈ plan.consumed, ∃ p, (knownSlots sources constants n).lookup k = some p) :
    Supplied contents (stepDrafts plan sources constants n) := by
  have hread (k : Nat) (hk : k ∈ plan.consumed) :
      HasSlot (contents ++ (constants.map PendingConstant.draft).map Draft.content)
        (((knownSlots sources constants n).lookup k).getD ⟨0, 0⟩) := by
    obtain ⟨p, hp⟩ := hknown k hk
    rw [hp]
    exact hasSlot_of_knownSlots hlength hsources (mem_of_lookup_eq_some hp)
  rw [stepDrafts, supplied_append_iff, planDrafts, supplied_append_iff]
  -- Constants read nothing, reshapes read tensors, the primary layer reads both, and each layer of
  -- the chain the one before it.
  refine ⟨?made, ?reshaped, ?main, ?chain⟩
  case made =>
    refine supplied_of_hasSlot fun d hd => ?_
    obtain ⟨c, -, rfl⟩ := List.mem_map.mp hd
    exact List.forall_mem_nil _
  case reshaped =>
    refine supplied_of_hasSlot fun d hd => ?_
    obtain ⟨r, hr, rfl⟩ := List.mem_map.mp hd
    exact List.forall_mem_singleton.mpr (hread r.1 (Plan.mem_consumed_iff.mpr (.inl ⟨r, hr, rfl⟩)))
  case main =>
    intro p hp
    obtain ⟨source, hsource, rfl⟩ := List.mem_map.mp hp
    cases source with
    | tensor k => exact (hread k (Plan.mem_consumed_iff.mpr (.inr hsource))).append _
    | reshape r =>
      have hlt : r < plan.reshapes.length := h.slots r hsource
      rw [slotAt_reshape hlt]
      refine hasSlot_of_draft (getElem?_reshapeDrafts _ (List.getElem?_eq_getElem hlt)) ?_ ?_
      · simp [hlength]
      · exact (h.reshapes _ (List.getElem_mem hlt)).described.symm ▸ Nat.one_pos
  case chain =>
    refine supplied_chainDrafts h.tail ?_ fun htail => hasSlot_append_content ?_ ?_
    · simp [hlength, reshapeDrafts, Nat.add_assoc]
    · simp [hlength, reshapeDrafts, Nat.add_assoc]
    · exact (h.described.trans (h.one htail)).symm ▸ Nat.one_pos

/-- The last layer of a plan has an output slot for each tensor that is written. -/
theorem Covered.exists_last (h : op.Covered plan) (sources : List (Nat × OutputRef))
    (constants : List PendingConstant) (n : LayerId) :
    ∃ d, (stepDrafts plan sources constants n)[
        constants.length + (plan.reshapes.length + plan.tail.length)]? = some d ∧
      d.infos.length = plan.outputs.length := by
  rw [getElem?_stepDrafts, getElem?_planDrafts]
  cases htail : plan.tail with
  | nil => exact ⟨_, rfl, h.described⟩
  | cons layer tail =>
    have hlt : tail.length < (layer :: tail).length := Nat.lt_succ_self _
    have hmem : (layer :: tail)[tail.length] ∈ plan.tail := by
      rw [htail]
      exact List.getElem_mem hlt
    -- A layer behind the primary one has one output, and so has the plan.
    have hone : plan.outputs.length = 1 := h.one (List.ne_nil_of_mem hmem)
    rw [List.length_cons, List.getElem?_cons_succ, getElem?_chainDrafts,
      List.getElem?_eq_getElem hlt]
    exact ⟨_, rfl, (h.tail _ hmem).described.trans hone.symm⟩

/-- The slots that produce tensors are there when the plan is made. -/
theorem Covered.hasSlot_produced (h : op.Covered plan) {contents : List LayerContent}
    (hlength : contents.length = n) {entry : Nat × OutputRef}
    (hentry : entry ∈ producedSlots plan constants n) :
    HasSlot (contents ++ (stepDrafts plan sources constants n).map Draft.content) entry.2 := by
  rcases List.mem_append.mp hentry with hwritten | hmade
  · obtain ⟨k, p⟩ := entry
    obtain ⟨hlayer, hk⟩ := mem_writtenSlots_iff.mp hwritten
    obtain ⟨d, hd, hinfos⟩ := h.exists_last sources constants n
    refine hasSlot_of_draft hd ?_ ?_
    · rw [hlength, hlayer, primaryAt, Nat.add_assoc, Nat.add_assoc]
    · rw [hinfos]
      exact (List.getElem?_eq_some_iff.mp hk).1
  · rw [stepDrafts, List.map_append, ← List.append_assoc]
    exact (hasSlot_of_constantSlots hlength hmade).append _

end making

end Operation

end LayerGraph
