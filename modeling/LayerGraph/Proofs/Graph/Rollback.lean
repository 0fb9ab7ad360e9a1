import LayerGraph.Proofs.Graph.Session

/-! # Going back to a checkpoint

  A checkpoint remembers three lengths. Layers are only ever added at the end, so the first
  layers of a later graph are those that were there at the checkpoint, and cutting the list of
  layers gives them back with the connections between them.

  The boundary lists are cut in the same way, but their order is the caller's. A layer that was
  added after the checkpoint and moved to the front is kept, and an older one is lost. Main
  statement: rolling back gives the layers, the connections and the identities of the checkpoint,
  and a coherent graph exactly when no newer layer is in the part of a boundary list that is kept
  (`play_rollback`).
-/

namespace LayerGraph

/-! ### Scripts -/

/-- Calls of a caller that may also take a checkpoint, try other calls and go back. -/
inductive Script where
  /-- Nothing more is asked for. -/
  | done
  /-- A call, and what follows it. -/
  | ask (call : Call) (rest : Script)
  /-- Calls between a checkpoint and the way back to it, and what follows them. -/
  | attempt (trial rest : Script)

/-- No boundary is put in another order. -/
def Script.Unarranged : Script → Prop
  | .done => True
  | .ask call rest => (∀ direction order, call ≠ .reorder direction order) ∧ rest.Unarranged
  | .attempt trial rest => trial.Unarranged ∧ rest.Unarranged

namespace Session

/-- The session after a script. -/
def play (s : Session) : Script → Session
  | .done => s
  | .ask call rest => (s.ask call).1.play rest
  | .attempt trial rest =>
    let tried := s.play trial
    play ⟨tried.graph.rollback s.graph.checkpoint, tried.supply⟩ rest

end Session

/-- What no change of a graph changes about a layer. -/
def Layer.heading (l : Layer) : LayerGuid × String × LayerKind := (l.guid, l.name, l.kind)

namespace Graph

/-- The heading of the layer at a position. -/
def heading? (g : Graph) (id : LayerId) : Option (LayerGuid × String × LayerKind) :=
  g.layers[id]?.map Layer.heading

/-- Number of the boundary layers of one side at the checkpoint. -/
def Checkpoint.boundary (c : Checkpoint) : Direction → Nat
  | .input => c.inputs
  | .output => c.outputs

variable {g g' t : Graph} {id : LayerId} {guid : LayerGuid} {kind : LayerKind} {name : String}
variable {source : OutputRef} {target : InputRef} {c : Checkpoint}

theorem guid?_eq_map_heading? (g : Graph) (id : LayerId) :
    g.guid? id = (g.heading? id).map Prod.fst := by
  simp only [guid?, heading?, Option.map_map]
  rfl

theorem kind?_eq_map_heading? (g : Graph) (id : LayerId) :
    g.kind? id = (g.heading? id).map (·.2.2) := by
  simp only [kind?, heading?, Option.map_map]
  rfl

theorem heading?_added (h : Added g guid kind name g') (id : LayerId) :
    g'.heading? id = if id = g.layers.length then some (guid, name, kind) else g.heading? id := by
  simp only [heading?, h.getElem?]
  split <;> rfl

@[simp] theorem heading?_link (id : LayerId) :
    (g.link source target).heading? id = g.heading? id := by
  simp only [heading?, getElem?_link, Option.map_map]
  rfl

@[simp] theorem heading?_describe (slot : OutputRef) (info : TensorInfo) (id : LayerId) :
    (g.describe slot info).heading? id = g.heading? id := by
  simp only [heading?, getElem?_describe, Option.map_map]
  rfl

@[simp] theorem heading?_setBoundary (direction : Direction) (ids : List LayerId) (id : LayerId) :
    (g.setBoundary direction ids).heading? id = g.heading? id := by
  simp only [heading?, layers_setBoundary]

/-! ### What is left -/

theorem getElem?_rollback (g : Graph) (c : Checkpoint) (id : LayerId) :
    (g.rollback c).layers[id]? =
      if id < c.layers then g.layers[id]?.map (detach · c.layers) else none := by
  simp only [rollback, List.getElem?_map, List.getElem?_take]
  split <;> rfl

theorem heading?_rollback (id : LayerId) :
    (g.rollback c).heading? id = if id < c.layers then g.heading? id else none := by
  simp only [heading?, getElem?_rollback]
  split
  · rw [Option.map_map]
    rfl
  · rfl

theorem guid?_rollback (id : LayerId) :
    (g.rollback c).guid? id = if id < c.layers then g.guid? id else none := by
  simp only [guid?_eq_map_heading?, heading?_rollback]
  split <;> rfl

theorem length_rollback (h : c.layers ≤ g.layers.length) :
    (g.rollback c).layers.length = c.layers := by
  simp only [rollback, List.length_map, List.length_take]
  exact Nat.min_eq_left h

/-- A connection is left when both of its ends are. -/
theorem producer?_rollback_eq_some_iff :
    (g.rollback c).producer? target = some source ↔
      g.producer? target = some source ∧ source.layer < c.layers ∧ target.layer < c.layers := by
  simp only [producer?_eq_some_iff, getElem?_rollback]
  constructor
  · rintro ⟨l, hl, hsource⟩
    split at hl
    · next htarget =>
      obtain ⟨l', hl', rfl⟩ := Option.map_eq_some_iff.mp hl
      rw [detach, List.getElem?_map, Option.map_eq_some_iff] at hsource
      obtain ⟨slot, hslot, hkept⟩ := hsource
      obtain ⟨rfl, hlt⟩ := Option.filter_eq_some_iff.mp hkept
      exact ⟨⟨l', hl', hslot⟩, by simpa using hlt, htarget⟩
    · cases hl
  · rintro ⟨⟨l, hl, hslot⟩, hsource, htarget⟩
    refine ⟨detach l c.layers, by rw [if_pos htarget, hl, Option.map_some], ?_⟩
    simp [detach, hslot, hsource]

theorem consumers_rollback (slot : OutputRef) :
    (g.rollback c).consumers slot =
      if slot.layer < c.layers then (g.consumers slot).filter (·.layer < c.layers) else [] := by
  simp only [consumers, getElem?_rollback]
  split
  · cases g.layers[slot.layer]? with
    | none => rfl
    | some l =>
      simp only [detach, Option.map_some, Option.bind_some, List.getElem?_map]
      cases l.outputs[slot.index]? <;> rfl
  · rfl

theorem boundary_rollback (direction : Direction) :
    (g.rollback c).boundary direction = (g.boundary direction).take (c.boundary direction) := by
  cases direction <;> rfl

theorem find?_foldl_erase (layers : List Layer) (table : GuidTable) (guid : LayerGuid) :
    (layers.foldl (fun table l => table.erase l.guid) table).find? guid =
      if ∃ l ∈ layers, l.guid = guid then none else table.find? guid := by
  induction layers generalizing table with
  | nil => simp
  | cons l layers ih =>
    rw [List.foldl_cons, ih, GuidTable.find?_erase]
    by_cases hl : l.guid = guid
    · simp [hl]
    · simp [hl, Ne.symm hl]

/-- The identities of removed layers are removed, and no other ones. -/
theorem Linked.find?_rollback_eq_some_iff (hg : g.Linked) :
    (g.rollback c).guids.find? guid = some id ↔ g.guid? id = some guid ∧ id < c.layers := by
  have hremoved : (∃ l ∈ g.layers.drop c.layers, l.guid = guid) ↔
      ∃ other, c.layers ≤ other ∧ g.guid? other = some guid := by
    constructor
    · rintro ⟨l, hl, rfl⟩
      obtain ⟨i, hi⟩ := List.mem_iff_getElem?.mp hl
      rw [List.getElem?_drop] at hi
      exact ⟨c.layers + i, Nat.le_add_right _ _, by rw [guid?, hi, Option.map_some]⟩
    · rintro ⟨other, hle, hother⟩
      obtain ⟨l, hl, rfl⟩ := Option.map_eq_some_iff.mp hother
      refine ⟨l, List.mem_of_getElem? (i := other - c.layers) ?_, rfl⟩
      rw [List.getElem?_drop, Nat.add_sub_of_le hle, hl]
  have hfold : (g.rollback c).guids.find? guid =
      if ∃ l ∈ g.layers.drop c.layers, l.guid = guid then none else g.guids.find? guid :=
    find?_foldl_erase _ _ _
  rw [hfold]
  split
  · next h =>
    -- Identities are unique, so a layer with a removed one is removed.
    obtain ⟨other, hle, hother⟩ := hremoved.mp h
    have hfind := (hg.guids guid other).mpr hother
    constructor
    · rintro ⟨⟩
    · rintro ⟨hid, hlt⟩
      rw [← hg.guids, hfind] at hid
      cases hid
      exact absurd hlt (Nat.not_lt.mpr hle)
  · next h =>
    rw [hg.guids]
    constructor
    · intro hid
      refine ⟨hid, Nat.lt_of_not_le fun hle => h (hremoved.mpr ⟨id, hle, hid⟩)⟩
    · exact And.left

/-- Cutting a graph keeps what does not concern the boundary lists. -/
theorem Linked.rollback (hg : g.Linked) (c : Checkpoint) : (g.rollback c).Linked where
  slots := by
    intro id l hl
    rw [getElem?_rollback] at hl
    split at hl
    · obtain ⟨l', hl', rfl⟩ := Option.map_eq_some_iff.mp hl
      simpa [detach] using hg.slots id l' hl'
    · cases hl
  mirrored := by
    intro source target
    rw [producer?_rollback_eq_some_iff, consumers_rollback, hg.mirrored]
    split
    · next hsource => simp [hsource]
    · next hsource => simp [hsource]
  once := by
    intro source
    rw [consumers_rollback]
    split
    · exact (hg.once source).filter _
    · exact List.nodup_nil
  acyclic := by
    intro id hcycle
    refine hg.acyclic id (Relation.TransGen.mono ?_ _ _ hcycle)
    rintro a b ⟨o, i, h⟩
    exact ⟨o, i, (producer?_rollback_eq_some_iff.mp h).1⟩
  guids := by
    intro guid id
    rw [hg.find?_rollback_eq_some_iff, guid?_rollback]
    split
    · next hlt => simp [hlt]
    · next hlt => simp [hlt]

/-! ### What comes after a checkpoint -/

/-- What holds of a graph that came from another by calls, and by going back no further. -/
structure After (g t : Graph) : Prop where
  length_le : g.layers.length ≤ t.layers.length
  heading? : ∀ id < g.layers.length, t.heading? id = g.heading? id
  /-- Of the older layers, those at the boundary were there before. -/
  boundary : ∀ direction,
    ((t.boundary direction).filter (· < g.layers.length)).Subperm (g.boundary direction)
  boundary_le : ∀ direction, (g.boundary direction).length ≤ (t.boundary direction).length

theorem After.refl (g : Graph) : g.After g where
  length_le := Nat.le_refl _
  heading? _ _ := rfl
  boundary _ := List.filter_sublist.subperm
  boundary_le _ := Nat.le_refl _

theorem After.trans {u : Graph} (h : g.After t) (h' : t.After u) : g.After u where
  length_le := Nat.le_trans h.length_le h'.length_le
  heading? id hid := (h'.heading? id (Nat.lt_of_lt_of_le hid h.length_le)).trans (h.heading? id hid)
  boundary direction := by
    have hfilter : (u.boundary direction).filter (· < g.layers.length) =
        ((u.boundary direction).filter (· < t.layers.length)).filter (· < g.layers.length) := by
      rw [List.filter_filter]
      refine List.filter_congr fun id _ => ?_
      have hle := h.length_le
      simp only [← Bool.decide_and, decide_eq_decide]
      omega
    rw [hfilter]
    exact ((h'.boundary direction).filter _).trans (h.boundary direction)
  boundary_le direction := Nat.le_trans (h.boundary_le direction) (h'.boundary_le direction)

theorem after_added (h : Added g guid kind name g') : g.After g' where
  length_le := by
    rw [h.length]
    exact Nat.le_succ _
  heading? id hid := by rw [heading?_added h, if_neg (Nat.ne_of_lt hid)]
  boundary direction := by
    -- The new layer is not an older one.
    have hgain :
        (boundaryGain direction kind g.layers.length).filter (· < g.layers.length) = [] := by
      refine List.filter_eq_nil_iff.mpr fun id hid => ?_
      obtain ⟨rfl, -⟩ := mem_boundaryGain_iff.mp hid
      simp
    rw [h.boundary, List.filter_append, hgain, List.append_nil]
    exact List.filter_sublist.subperm
  boundary_le direction := by
    rw [h.boundary, List.length_append]
    exact Nat.le_add_right _ _

theorem after_setBoundary {direction : Direction} {ids : List LayerId}
    (hperm : ids.Perm (g.boundary direction)) : g.After (g.setBoundary direction ids) where
  length_le := by simp
  heading? id _ := heading?_setBoundary direction ids id
  boundary other := by
    rw [boundary_setBoundary]
    split
    · next h => exact h ▸ List.filter_sublist.subperm.trans hperm.subperm
    · exact List.filter_sublist.subperm
  boundary_le other := by
    rw [boundary_setBoundary]
    split
    · next h => exact h ▸ Nat.le_of_eq hperm.length_eq.symm
    · exact Nat.le_refl _

@[simp] theorem boundary_checkpoint (g : Graph) (direction : Direction) :
    g.checkpoint.boundary direction = (g.boundary direction).length := by
  cases direction <;> rfl

/-- Going back to a checkpoint goes no further than it. -/
theorem After.rollback (h : g.After t) : g.After (t.rollback g.checkpoint) where
  length_le := by
    rw [length_rollback h.length_le]
    exact Nat.le_refl _
  heading? id hid := by
    have hlt : id < g.checkpoint.layers := hid
    rw [heading?_rollback, if_pos hlt, h.heading? id hid]
  boundary direction := by
    rw [boundary_rollback]
    exact ((List.take_sublist _ _).filter _).subperm.trans (h.boundary direction)
  boundary_le direction := by
    rw [boundary_rollback, boundary_checkpoint, List.length_take]
    exact Nat.le_min.mpr ⟨Nat.le_refl _, h.boundary_le direction⟩

/-! ### The boundary lists -/

theorem After.heading?_rollback_checkpoint (h : g.After t) (id : LayerId) :
    (t.rollback g.checkpoint).heading? id = g.heading? id := by
  rw [heading?_rollback]
  split
  · next hlt => exact h.heading? id hlt
  · next hle =>
    have hnone : g.layers[id]? = none := List.getElem?_eq_none (Nat.le_of_not_lt hle)
    rw [Graph.heading?, hnone, Option.map_none]

/-- The layers at a boundary are those of the checkpoint when all that is kept is older. -/
theorem After.boundary_rollback_perm (h : g.After t) {direction : Direction}
    (hold : ∀ id ∈ (t.rollback g.checkpoint).boundary direction, id < g.layers.length) :
    ((t.rollback g.checkpoint).boundary direction).Perm (g.boundary direction) := by
  have hkept := h.rollback.boundary direction
  rw [List.filter_eq_self.mpr (by simpa using hold)] at hkept
  exact hkept.perm_of_length_le (h.rollback.boundary_le direction)

/-- Coherence depends on the headings and on which layers the boundary lists have. -/
theorem Linked.coherent_of_perm (hg : g.Linked) (ht : t.Coherent)
    (hheading : ∀ id, g.heading? id = t.heading? id)
    (hperm : ∀ direction, (g.boundary direction).Perm (t.boundary direction)) : g.Coherent where
  __ := hg
  boundary_nodup direction := (hperm direction).nodup_iff.mpr (ht.boundary_nodup direction)
  mem_boundary direction id := by
    rw [(hperm direction).mem_iff, ht.mem_boundary, kind?_eq_map_heading?, kind?_eq_map_heading?,
      hheading]
  bindings_nodup direction := by
    have hbinding : g.binding? = t.binding? := by
      funext id
      rw [binding?_eq_bind_kind?, binding?_eq_bind_kind?, kind?_eq_map_heading?,
        kind?_eq_map_heading?, hheading]
    rw [bindings, hbinding]
    exact ((hperm direction).filterMap _).nodup_iff.mpr (ht.bindings_nodup direction)

/-- The graph that is left is coherent when the graph was, and only older layers are left at its
    boundary. -/
theorem After.coherent_rollback_iff (h : g.After t) (hg : g.Linked) (ht : t.Linked) :
    (t.rollback g.checkpoint).Coherent ↔
      g.Coherent ∧ ∀ direction,
        ∀ id ∈ (t.rollback g.checkpoint).boundary direction, id < g.layers.length := by
  constructor
  · intro hrolled
    have hold (direction : Direction) (id : LayerId)
        (hid : id ∈ (t.rollback g.checkpoint).boundary direction) : id < g.layers.length := by
      have hlt := hrolled.boundary_lt hid
      rwa [length_rollback h.length_le] at hlt
    refine ⟨hg.coherent_of_perm hrolled (fun id => (h.heading?_rollback_checkpoint id).symm) ?_,
      hold⟩
    exact fun direction => (h.boundary_rollback_perm (hold direction)).symm
  · rintro ⟨hcoherent, hold⟩
    exact (ht.rollback _).coherent_of_perm hcoherent h.heading?_rollback_checkpoint
      fun direction => h.boundary_rollback_perm (hold direction)

end Graph

/-! ### Any script -/

namespace Session

variable {s t : Session} {call : Call}

/-- What holds of layers, connections and identities between two calls. -/
structure Linked (s : Session) : Prop where
  graph : s.graph.Linked
  spent : ∀ id guid, s.graph.guid? id = some guid → guid.number < s.supply.next.number

theorem Linked.step (hs : s.Linked) (h : s.Step call t) : t.Linked := by
  obtain ⟨hgraph, hspent⟩ := hs
  cases h with
  | refused => exact ⟨hgraph, hspent⟩
  | added h =>
    refine ⟨hgraph.added h fun id hid => Nat.lt_irrefl _ (hspent id _ hid), fun id guid hguid => ?_⟩
    rw [h.guid?] at hguid
    split at hguid
    · cases hguid
      exact Nat.lt_succ_self _
    · exact Nat.lt_succ_of_lt (hspent id guid hguid)
  | linked hsource htarget hfree hreach =>
    exact ⟨hgraph.link hsource htarget hfree hreach, by simpa using hspent⟩
  | described slot info => exact ⟨hgraph.describe slot info, by simpa using hspent⟩
  | arranged order hperm => exact ⟨hgraph.setBoundary _ _, by simpa using hspent⟩
  | elsewhere => exact ⟨hgraph, fun id guid h => Nat.lt_succ_of_lt (hspent id guid h)⟩

theorem Linked.rollback (hs : s.Linked) (c : Graph.Checkpoint) :
    Linked ⟨s.graph.rollback c, s.supply⟩ where
  graph := hs.graph.rollback c
  spent id guid hguid := by
    rw [Graph.guid?_rollback] at hguid
    split at hguid
    · exact hs.spent id guid hguid
    · cases hguid

theorem Linked.play (hs : s.Linked) (script : Script) : (s.play script).Linked := by
  induction script generalizing s with
  | done => exact hs
  | ask call rest ih => exact ih (hs.step (s.step_ask call))
  | attempt trial rest ihTrial ihRest => exact ihRest ((ihTrial hs).rollback s.graph.checkpoint)

theorem Step.after (h : s.Step call t) : s.graph.After t.graph := by
  cases h with
  | refused => exact .refl _
  | added h => exact Graph.after_added h
  | linked hsource htarget hfree hreach =>
    exact ⟨by simp, fun _ _ => by simp, fun _ => by simpa using List.filter_sublist.subperm,
      fun _ => by simp⟩
  | described slot info =>
    exact ⟨by simp, fun _ _ => by simp, fun _ => by simpa using List.filter_sublist.subperm,
      fun _ => by simp⟩
  | arranged order hperm => exact Graph.after_setBoundary hperm
  | elsewhere => exact .refl _

/-- A script goes back no further than to where it started. -/
theorem after_play (s : Session) (script : Script) : s.graph.After (s.play script).graph := by
  induction script generalizing s with
  | done => exact .refl _
  | ask call rest ih => exact (s.step_ask call).after.trans (ih (s.ask call).1)
  | attempt trial rest ihTrial ihRest => exact (ihTrial s).rollback.trans (ihRest ⟨_, _⟩)

/-- An input that is added after a checkpoint and put first takes the place of the older one. -/
example :
    let s := ((start .initial).ask (.addLayer (.input 0) "a")).1
    let t := s.play (.ask (.addLayer (.input 1) "b") (.ask (.reorder .input [1, 0]) .done))
    (t.graph.rollback s.graph.checkpoint).inputs = [1] := by
  decide +kernel

/-! ### Scripts that leave the boundaries in their order -/

theorem Step.boundary_grows (h : s.Step call t)
    (hcall : ∀ direction order, call ≠ .reorder direction order) (direction : Direction) :
    s.graph.boundary direction <+: t.graph.boundary direction := by
  cases h with
  | refused | elsewhere => exact List.prefix_rfl
  | added h =>
    rw [h.boundary]
    exact List.prefix_append _ _
  | linked hsource htarget hfree hreach =>
    exact (Graph.boundary_link direction).symm ▸ List.prefix_rfl
  | described slot info =>
    exact (Graph.boundary_describe direction).symm ▸ List.prefix_rfl
  | arranged order hperm => exact absurd rfl (hcall _ order)

theorem boundary_rollback_of_prefix {direction : Direction}
    (h : s.graph.boundary direction <+: t.graph.boundary direction) :
    (t.graph.rollback s.graph.checkpoint).boundary direction = s.graph.boundary direction := by
  rw [Graph.boundary_rollback, Graph.boundary_checkpoint]
  exact (List.prefix_iff_eq_take.mp h).symm

theorem boundary_play_grows {script : Script} (h : script.Unarranged) (s : Session)
    (direction : Direction) :
    s.graph.boundary direction <+: (s.play script).graph.boundary direction := by
  induction script generalizing s with
  | done => exact List.prefix_rfl
  | ask call rest ih =>
    exact ((s.step_ask call).boundary_grows h.1 direction).trans (ih h.2 (s.ask call).1)
  | attempt trial rest ihTrial ihRest =>
    -- The trial leaves the boundaries as they were, so the rest starts from them.
    have hback := boundary_rollback_of_prefix (ihTrial h.1 s)
    have hrest :=
      ihRest h.2 ⟨(s.play trial).graph.rollback s.graph.checkpoint, (s.play trial).supply⟩
    rwa [hback] at hrest

/-- Rolling back is right when the boundaries kept their order: the graph is coherent again, and
    the layers at its boundaries are those of the checkpoint. -/
theorem Sound.rollback_of_unarranged (hs : s.Sound) {script : Script} (h : script.Unarranged) :
    ((s.play script).graph.rollback s.graph.checkpoint).Coherent ∧
      ∀ direction, ((s.play script).graph.rollback s.graph.checkpoint).boundary direction =
        s.graph.boundary direction := by
  have hboundary (direction : Direction) :=
    boundary_rollback_of_prefix (boundary_play_grows h s direction)
  have hlinked : s.Linked := ⟨hs.coherent.linked, hs.spent⟩
  refine ⟨?_, hboundary⟩
  rw [(s.after_play script).coherent_rollback_iff hlinked.graph (hlinked.play script).graph]
  refine ⟨hs.coherent, fun direction id hid => ?_⟩
  rw [hboundary direction] at hid
  exact hs.coherent.boundary_lt hid

end Session

end LayerGraph
