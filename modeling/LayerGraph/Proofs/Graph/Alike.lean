import LayerGraph.Proofs.Graph.Contents

/-! # Graphs that say the same

  A graph is complete when nothing is missing in its layers (`validate_eq_ok_iff`). Two graphs
  are alike when they have the same contents and the same boundaries. Alike graphs may still
  differ in the identities of their layers and in the order in which an output slot lists its
  readers. Neither has a part in the topological order (`Alike.topologicalOrder`).
-/

namespace LayerGraph

namespace Graph

variable {g g' : Graph} {id : LayerId} {c : LayerContent}

/-! ### Completeness -/

/-- Every input slot reads a tensor and every output slot has a descriptor. -/
def Complete (g : Graph) : Prop := ∀ id c, g.content? id = some c → none ∉ c.inputs ∧ none ∉ c.infos

/-- A layer is passed when nothing is missing in it. -/
theorem layer_passed_iff {l : Layer} :
    (do
      if let some index := l.inputs.findIdx? Option.isNone then
        throw (.unconnectedInput l.guid l.name index)
      if let some index := l.outputs.findIdx? (·.info.isNone) then
        throw (.missingTensorInfo l.guid l.name index) : Except GraphError Unit) = .ok () ↔
      none ∉ l.content.inputs ∧ none ∉ l.content.infos := by
  have hinputs : l.inputs.findIdx? Option.isNone = none ↔ none ∉ l.content.inputs := by
    rw [List.findIdx?_eq_none_iff]
    constructor
    · exact fun h hnone => by simpa using h none hnone
    · intro h source hsource
      cases source with
      | none => exact absurd hsource h
      | some p => rfl
  have hinfos : l.outputs.findIdx? (·.info.isNone) = none ↔ none ∉ l.content.infos := by
    rw [List.findIdx?_eq_none_iff]
    simp only [Layer.content, List.mem_map, not_exists, not_and]
    constructor
    · intro h slot hslot hnone
      simpa [hnone] using h slot hslot
    · intro h slot hslot
      cases hinfo : slot.info with
      | none => exact absurd hinfo (h slot hslot)
      | some info => rfl
  -- Inputs are checked before outputs, but either check alone fails the layer.
  rw [← hinputs, ← hinfos]
  cases l.inputs.findIdx? Option.isNone with
  | some index => exact ⟨nofun, nofun⟩
  | none =>
    cases l.outputs.findIdx? (·.info.isNone) with
    | some index => exact ⟨nofun, nofun⟩
    | none => exact ⟨fun _ => ⟨rfl, rfl⟩, fun _ => rfl⟩

theorem validate_eq_ok_iff : g.validate = .ok () ↔ g.Complete := by
  rw [validate, Except.forM_eq_ok_iff, Complete,
    forall_content?_iff fun c => none ∉ c.inputs ∧ none ∉ c.infos]
  constructor
  · exact fun h l hl => layer_passed_iff.mp (h l hl)
  · exact fun h l hl => layer_passed_iff.mpr (h l hl)

/-- The slots of a complete layer, without the options. -/
theorem Complete.slots (h : g.Complete) (hc : g.content? id = some c) :
    ∃ (sources : List OutputRef) (infos : List TensorInfo),
      c.inputs = sources.map some ∧ c.infos = infos.map some := by
  have hall {α : Type} {slots : List (Option α)} (hnone : none ∉ slots) :
      ∃ values : List α, slots = values.map some := by
    induction slots with
    | nil => exact ⟨[], rfl⟩
    | cons slot slots ih =>
      rw [List.mem_cons, not_or] at hnone
      obtain ⟨values, rfl⟩ := ih hnone.2
      cases slot with
      | none => exact absurd rfl hnone.1
      | some a => exact ⟨a :: values, rfl⟩
  obtain ⟨hinputs, hinfos⟩ := h id c hc
  obtain ⟨sources, hsources⟩ := hall hinputs
  obtain ⟨infos, hinfos⟩ := hall hinfos
  exact ⟨sources, infos, hsources, hinfos⟩

/-- The slots of a complete graph are described. -/
theorem Complete.exists_info (h : g.Complete) {p : OutputRef} (hp : g.HasOutput p) :
    ∃ info, g.info? p = some info := by
  obtain ⟨c, hc, hlt⟩ := hasOutput_iff.mp hp
  obtain ⟨sources, infos, -, hinfos⟩ := h.slots hc
  rw [hinfos, List.length_map] at hlt
  refine ⟨infos[p.index], ?_⟩
  rw [info?_eq_content?, hc, Option.bind_some, hinfos, List.getElem?_map,
    List.getElem?_eq_getElem hlt]
  rfl

/-! ### Alike graphs -/

/-- The graphs have the same contents and the same boundaries. -/
structure Alike (g g' : Graph) : Prop where
  content? : ∀ id, g'.content? id = g.content? id
  bindings : ∀ direction, g'.bindings direction = g.bindings direction

theorem Alike.symm (h : Alike g g') : Alike g' g :=
  ⟨fun id => (h.content? id).symm, fun direction => (h.bindings direction).symm⟩

theorem Alike.length (h : Alike g g') : g'.layers.length = g.layers.length :=
  length_eq_of_content? fun id => by rw [h.content?, content?_eq_none_iff]

theorem Alike.feeds_iff (h : Alike g g') {a b : LayerId} : g'.Feeds a b ↔ g.Feeds a b := by
  simp only [feeds_iff_mem_sources, sources_eq_content?, h.content?]

theorem Alike.complete (h : Alike g g') (hg : g.Complete) : g'.Complete := by
  intro id c hc
  rw [h.content?] at hc
  exact hg id c hc

theorem Alike.listed (h : Alike g g') {order : List LayerId} (hl : g.Listed order) :
    g'.Listed order where
  lt := by simpa only [h.length] using hl.lt
  nodup := hl.nodup
  placed := by
    intro before id after heq
    have hplaced := hl.placed before id after heq
    refine ⟨fun a ha => hplaced.producers a (h.feeds_iff.mp ha), fun other hlt hnot hall => ?_⟩
    refine hplaced.lowest other ?_ hnot fun a ha => hall a (h.feeds_iff.mpr ha)
    rwa [h.length] at hlt

/-- The order depends on contents only. -/
theorem Alike.topologicalOrder (h : Alike g g') (hg : g.Coherent) (hg' : g'.Coherent) :
    g'.topologicalOrder = g.topologicalOrder := by
  refine hg'.linked.topologicalOrder_eq (h.listed hg.linked.listed_topologicalOrder) ?_
  rw [h.length, hg.linked.length_topologicalOrder]

end Graph

end LayerGraph
