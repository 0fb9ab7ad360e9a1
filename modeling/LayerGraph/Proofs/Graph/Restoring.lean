import LayerGraph.Proofs.Graph.Rollback

/-! # Changes that a rollback undoes

  While layers are made behind a graph, the graph changes in one way only: its output slots gain
  readers among the new layers. So the way back to a checkpoint gives exactly the graph of the
  checkpoint, whichever of the new layers have been made (`Restorable.rollback_checkpoint`). This
  does not hold of any change after a checkpoint: a descriptor of an older layer stays as it was
  set last, and so does a connection between two older layers.
-/

namespace LayerGraph

namespace Graph

variable {g t t' : Graph} {guid : LayerGuid} {kind : LayerKind} {name : String}
variable {source slot : OutputRef} {target : InputRef} {info : TensorInfo}

/-- The graph `t` is `g` with new layers behind it, which read each other and the layers of `g`. -/
structure Restorable (g t : Graph) : Prop where
  /-- No layer is lost. -/
  length_le : g.layers.length ≤ t.layers.length
  /-- Without the new layers the older ones are what they were. -/
  front : ∀ id < g.layers.length,
    t.layers[id]?.map (detach · g.layers.length) = g.layers[id]?
  /-- Without the new identities the table is what it was. -/
  entries : t.guids.entries.filter
    (fun e => !((t.layers.drop g.layers.length).map (·.guid)).contains e.1) = g.guids.entries
  /-- Boundaries have grown at their end. -/
  boundary : ∀ direction,
    (t.boundary direction).take (g.boundary direction).length = g.boundary direction

/-! ### Going back -/

theorem entries_foldl_erase (layers : List Layer) (table : GuidTable) :
    (layers.foldl (fun table l => table.erase l.guid) table).entries =
      table.entries.filter fun e => !(layers.map (·.guid)).contains e.1 := by
  induction layers generalizing table with
  | nil => simp
  | cons l layers ih =>
    rw [List.foldl_cons, ih, GuidTable.erase, List.filter_filter]
    refine List.filter_congr fun e _ => ?_
    by_cases he : e.1 = l.guid
    · simp [he]
    · simp [he, Bool.and_comm]

/-- The way back gives exactly the graph of the checkpoint. -/
theorem Restorable.rollback_checkpoint (h : Restorable g t) : t.rollback g.checkpoint = g := by
  have hlayers : (t.rollback g.checkpoint).layers = g.layers := by
    refine List.ext_getElem? fun id => ?_
    rw [getElem?_rollback]
    show (if id < g.layers.length then t.layers[id]?.map (detach · g.layers.length) else none) = _
    by_cases hid : id < g.layers.length
    · rw [if_pos hid, h.front id hid]
    · rw [if_neg hid, List.getElem?_eq_none (Nat.le_of_not_lt hid)]
  have hguids : (t.rollback g.checkpoint).guids = g.guids := by
    have hentries := entries_foldl_erase (t.layers.drop g.layers.length) t.guids
    rw [h.entries] at hentries
    exact congrArg GuidTable.mk hentries
  have hinputs : (t.rollback g.checkpoint).inputs = g.inputs := h.boundary .input
  have houtputs : (t.rollback g.checkpoint).outputs = g.outputs := h.boundary .output
  obtain ⟨layers, guids, inputs, outputs⟩ := g
  show (⟨_, _, _, _⟩ : Graph) = _
  rw [Graph.mk.injEq]
  exact ⟨hlayers, hguids, hinputs, houtputs⟩

/-! ### What can be undone -/

/-- Nothing has to be undone at first: a coherent graph has no connections to layers that are not
    there. -/
theorem Coherent.restorable (hg : g.Coherent) : Restorable g g where
  length_le := Nat.le_refl _
  front := by
    intro id hid
    obtain ⟨l, hl⟩ : ∃ l, g.layers[id]? = some l := ⟨_, List.getElem?_eq_getElem hid⟩
    -- A slot reads a layer that is there, so it is not detached.
    have hinputs : l.inputs.map (·.filter (·.layer < g.layers.length)) = l.inputs := by
      refine (List.map_congr_left fun read hread => ?_).trans (List.map_id _)
      cases read with
      | none => rfl
      | some p =>
        obtain ⟨index, hindex⟩ := List.mem_iff_getElem?.mp hread
        have hproducer : g.producer? ⟨id, index⟩ = some p :=
          producer?_eq_some_iff.mpr ⟨l, hl, hindex⟩
        have hlt : p.layer < g.layers.length := (hg.linked.ends_exist hproducer).1.lt
        simp [Option.filter, hlt]
    -- The consumers of a slot are the slots that read it, so they are there as well.
    have houtputs : (l.outputs.map fun slot : OutputSlot =>
        { slot with consumers := slot.consumers.filter (·.layer < g.layers.length) }) =
          l.outputs := by
      refine List.map_congr_left (g := fun out => out) (fun out hout => ?_) |>.trans (List.map_id _)
      obtain ⟨index, hindex⟩ := List.mem_iff_getElem?.mp hout
      have hkept : out.consumers.filter (·.layer < g.layers.length) = out.consumers := by
        rw [List.filter_eq_self]
        intro reader hreader
        have hmem : reader ∈ g.consumers ⟨id, index⟩ :=
          mem_consumers_iff.mpr ⟨l, out, hl, hindex, hreader⟩
        have hproducer := (hg.mirrored ⟨id, index⟩ reader).mpr hmem
        exact decide_eq_true (hg.linked.ends_exist hproducer).2.lt
      rw [hkept]
    rw [hl, Option.map_some, detach, hinputs, houtputs]
  entries := by simp
  boundary := fun _ => List.take_length

/-- A layer with an identity that is not in the table can be removed again. -/
theorem Restorable.added (h : Restorable g t) (hadded : Added t guid kind name t')
    (hfresh : ∀ e ∈ g.guids.entries, e.1 ≠ guid) : Restorable g t' where
  length_le := by
    rw [hadded.length]
    exact Nat.le_succ_of_le h.length_le
  front := by
    intro id hid
    have hne : id ≠ t.layers.length := Nat.ne_of_lt (Nat.lt_of_lt_of_le hid h.length_le)
    rw [hadded.getElem?, if_neg hne]
    exact h.front id hid
  entries := by
    have hdrop : t'.layers.drop g.layers.length =
        t.layers.drop g.layers.length ++ [Layer.new guid kind name] := by
      rw [hadded.layers, List.drop_append_of_le_length h.length_le]
    have hkept : g.guids.entries.filter (fun e => e.1 != guid) = g.guids.entries := by
      rw [List.filter_eq_self]
      exact fun e he => bne_iff_ne.mpr (hfresh e he)
    rw [hdrop, hadded.guids, GuidTable.insert, GuidTable.erase]
    -- The new entry goes, and the older ones are sorted out by the older identities as before.
    rw [← hkept, ← h.entries, List.filter_filter, List.filter_cons, List.filter_filter]
    have hnew : guid ∈ (t.layers.drop g.layers.length ++ [Layer.new guid kind name]).map
        (·.guid) := by
      simp [Layer.new]
    rw [if_neg (by rw [List.contains_iff_mem.mpr hnew]; decide)]
    refine List.filter_congr fun e _ => ?_
    by_cases he : e.1 = guid
    · simp [he, Layer.new]
    · simp [he, Layer.new, Bool.and_comm]
  boundary := by
    intro direction
    rw [hadded.boundary, List.take_append_of_le_length]
    · exact h.boundary direction
    · have hlen := congrArg List.length (h.boundary direction)
      rw [List.length_take] at hlen
      omega

/-- A descriptor of a new layer goes with the layer. -/
theorem Restorable.describe (h : Restorable g t) (hslot : g.layers.length ≤ slot.layer) :
    Restorable g (t.describe slot info) where
  length_le := by simpa using h.length_le
  front := by
    intro id hid
    have hne : id ≠ slot.layer := Nat.ne_of_lt (Nat.lt_of_lt_of_le hid hslot)
    rw [getElem?_describe, ← h.front id hid]
    simp [hne]
  entries := by
    have hsame : (t.describe slot info).layers.map (·.guid) = t.layers.map (·.guid) := by
      refine List.ext_getElem? fun id => ?_
      rw [List.getElem?_map, List.getElem?_map]
      exact guid?_describe id
    rw [List.map_drop, hsame, ← List.map_drop]
    exact h.entries
  boundary := by simpa using h.boundary

/-- So does a connection to one of its input slots, whatever it reads. -/
theorem Restorable.link (h : Restorable g t) (htarget : g.layers.length ≤ target.layer) :
    Restorable g (t.link source target) where
  length_le := by simpa using h.length_le
  front := by
    intro id hid
    have hne : id ≠ target.layer := Nat.ne_of_lt (Nat.lt_of_lt_of_le hid htarget)
    have hcut : ¬ target.layer < g.layers.length := Nat.not_lt.mpr htarget
    rw [getElem?_link, ← h.front id hid, Option.map_map]
    congr 1
    funext l
    -- The only change is a reader behind the cut.
    have houtputs : (l.outputs.modify source.index fun out =>
        { out with consumers := out.consumers ++ [target] }).map (fun out : OutputSlot =>
          { out with consumers := out.consumers.filter (·.layer < g.layers.length) }) =
        l.outputs.map fun out : OutputSlot =>
          { out with consumers := out.consumers.filter (·.layer < g.layers.length) } := by
      refine List.ext_getElem? fun index => ?_
      simp only [List.getElem?_map, List.getElem?_modify]
      cases l.outputs[index]? with
      | none => rfl
      | some out => by_cases hindex : source.index = index <;> simp [hindex, hcut]
    simp only [Function.comp, if_neg hne]
    by_cases hsource : id = source.layer
    · simp [detach, hsource, houtputs]
    · simp [detach, hsource]
  entries := by
    have hsame : (t.link source target).layers.map (·.guid) = t.layers.map (·.guid) := by
      refine List.ext_getElem? fun id => ?_
      rw [List.getElem?_map, List.getElem?_map]
      exact guid?_link id
    rw [List.map_drop, hsame, ← List.map_drop]
    exact h.entries
  boundary := by simpa using h.boundary

end Graph

end LayerGraph
