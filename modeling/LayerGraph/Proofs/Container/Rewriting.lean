import LayerGraph.Proofs.Container.Accepted
import LayerGraph.Proofs.Container.RoundTrip

/-! # Writing an accepted container again

  What was read can be written, and what is written then is read as the same graph, with one
  exception. Depthwise weights in the old layout get another shape while they are read. Scales
  along an axis stay where they were, at an axis which may have another size now, and such weights
  are not read again (`rewrite_accepted`).
-/

namespace LayerGraph

namespace Graph

open Container

variable {g g' : Graph} {bytes : List UInt8} {supply supply' : GuidSupply}

/-- The scales of depthwise weights agree with their shapes. -/
def DepthwiseConsistent (g : Graph) : Prop :=
  ∀ id c, g.content? id = some c → c.kind.DepthwiseConsistent

instance (g : Graph) : Decidable g.DepthwiseConsistent :=
  decidable_of_iff (∀ l ∈ g.layers, l.content.kind.DepthwiseConsistent)
    (forall_content?_iff (fun c => c.kind.DepthwiseConsistent)).symm

/-- Layers that stand in topological order keep their places. -/
theorem Renumbered.alike (hg : g.Coherent) (hforward : g.Forward) (h : g.Renumbered g') :
    Alike g g' where
  content? := by
    intro id
    have horder := hg.linked.topologicalOrder_of_forward hforward
    by_cases hid : id < g.layers.length
    · have hplace : g.topologicalOrder[id]? = some id := by
        rw [horder]
        exact List.getElem?_range hid
      rw [h.content? id id hplace]
      obtain ⟨c, hc⟩ := exists_content? hid
      rw [hc, Option.map_some, Option.some.injEq]
      -- Every layer that is read keeps its number.
      have hkeep (source : Option OutputRef) (hsource : source ∈ c.inputs) :
          (source.map fun p => { p with layer := g.topologicalOrder.idxOf p.layer }) = source := by
        cases source with
        | none => rfl
        | some p =>
          have hlt : p.layer < g.layers.length :=
            hg.linked.lt_of_feeds (feeds_of_content? hc hsource)
          have hidx : g.topologicalOrder.idxOf p.layer = p.layer := by
            rw [horder]
            have h := List.nodup_range.idxOf_getElem p.layer (by simpa using hlt)
            simpa using h
          rw [Option.map_some, hidx]
      have hinputs := List.map_congr_left hkeep
      rw [List.map_id'] at hinputs
      unfold LayerContent.renumber
      rw [hinputs]
    · have hle : g.layers.length ≤ id := Nat.le_of_not_lt hid
      rw [content?_eq_none_iff.mpr hle, content?_eq_none_iff, h.length]
      exact hle
  bindings := h.bindings

/-- Among what was read, only depthwise weights decide whether the graph can be read back. -/
theorem Accepted.storable_iff {oldLayout : Bool} (h : Accepted oldLayout g supply) :
    g.Storable ↔ g.DepthwiseConsistent := by
  constructor
  · intro hstore id c hc
    have hkind := (hstore id c hc).kind
    unfold LayerKind.DepthwiseConsistent
    split
    · next p weights biases heq =>
      apply hkind.constants
      rw [heq]
      exact List.mem_cons_self
    · exact trivial
  · intro hconsistent id c hc
    exact (h.rewritable id c hc).storable (.inl (hconsistent id c hc))

/-- An accepted graph is written again. What is written is read as the same graph, which is
    written as the same bytes, unless the scales of depthwise weights do not agree with their
    shapes, and then it is refused. They do agree when the container has the new layout. -/
theorem rewrite_accepted (h : (deserialize bytes).run supply = .ok g supply') :
    ∃ bytes', g.serialize = .ok bytes' ∧
      (g.DepthwiseConsistent → ∀ t, ∃ g' t', (deserialize bytes').run t = .ok g' t' ∧
        Alike g g' ∧ g'.serialize = .ok bytes') ∧
      (¬ g.DepthwiseConsistent → ∀ t, ∃ e t', (deserialize bytes').run t = .error e t') ∧
      ∀ features count cursor, readPreamble.run (.start bytes) = .ok ((features, count), cursor) →
        features.weightsLayout ≠ 0 → g.DepthwiseConsistent := by
  obtain ⟨features, count, cursor, hpreamble, haccepted⟩ := deserialize_eq_ok h
  have hg : g.Coherent := haccepted.sound.coherent
  obtain ⟨bytes', hbytes'⟩ := haccepted.exists_serialize
  refine ⟨bytes', hbytes', ?_, ?_, ?_⟩
  · intro hconsistent t
    have hstore := (Accepted.storable_iff haccepted).mpr hconsistent
    obtain ⟨g', t', hrun, hrenumbered⟩ := hg.exists_deserialize hstore hbytes' t
    have halike := hrenumbered.alike hg haccepted.forward
    exact ⟨g', t', hrun, halike, halike.serialize hg hrenumbered.coherent hbytes'⟩
  · intro hbad t
    have hstore : ¬ g.Storable := fun hstore => hbad ((Accepted.storable_iff haccepted).mp hstore)
    have hscaled : g.Scaled := fun id c hc => (haccepted.rewritable id c hc).scaled
    exact hg.deserialize_eq_error hscaled hstore hbytes' t
  · intro features' count' cursor' hpreamble' hlayout
    rw [hpreamble] at hpreamble'
    cases hpreamble'
    apply (Accepted.storable_iff haccepted).mp
    intro id c hc
    exact (haccepted.rewritable id c hc).storable (.inr (decide_eq_false hlayout))

/-- A container in the old layout. It has an input, a depthwise convolution with two weights and
    a scale for each of them, and an output. -/
def oldDepthwise : List UInt8 := [
  -- The mark, the version, and the table, which says that boundaries are listed by binding.
  78, 78, 73, 82, 1, 0, 0, 0, 1, 0, 0, 0, 0, 0, 1, 0, 0, 0,
  -- Three records. The first is of the input.
  3, 0, 0, 0, 0, 0, 0, 0, 0, 0, 1, 0, 0, 0, 120, 0, 0, 0, 0, 1, 0, 0, 0, 0, 0, 0, 0, 1, 4, 0, 0, 0,
  1, 1, 0, 0, 0, 1, 1, 0, 0, 0, 1, 1, 0, 0, 0, 1, 1, 0, 0, 0, 1, 0, 0, 0, 0, 0, 0, 0, 0, 0, 0, 0,
  255, 255, 255, 255, 0, 4, 0, 0, 0, 0, 0, 0, 0,
  -- The depthwise convolution: what it reads and what it gives,
  13, 0, 1, 0, 0, 0, 1, 0, 0, 0, 100, 1, 0, 0, 0, 0, 0, 0, 0, 0, 0, 0, 0, 0, 0, 0, 0, 1, 0, 0, 0,
  0, 0, 0, 0, 1, 4, 0, 0, 0, 1, 1, 0, 0, 0, 1, 1, 0, 0, 0, 1, 1, 0, 0, 0, 1, 2, 0, 0, 0, 1, 0, 0,
  0, 0, 0, 0, 0, 0, 0, 0, 0, 255, 255, 255, 255, 0,
  -- its parameters,
  88, 0, 0, 0, 0, 0, 0, 0, 0, 0, 0, 0, 0, 0, 0, 0, 0, 0, 0, 0, 1, 0, 0, 0, 1, 0, 0, 0, 1, 0, 0, 0,
  1, 0, 0, 0, 0, 1,
  -- and its weights `[1, 1, 1, 2]` with scales along the last axis.
  7, 4, 0, 0, 0, 1, 1, 0, 0, 0, 1, 1, 0, 0, 0, 1, 1, 0, 0, 0, 1, 2, 0, 0, 0, 2, 0, 0, 0, 0, 0, 128,
  63, 0, 0, 0, 64, 0, 0, 0, 0, 3, 0, 0, 0, 1, 1, 2, 0, 0, 0, 5, 6, 0,
  -- The output, and the lists of inputs and outputs.
  1, 0, 2, 0, 0, 0, 1, 0, 0, 0, 121, 1, 0, 0, 0, 0, 0, 0, 0, 1, 0, 0, 0, 0, 0, 0, 0, 0, 0, 0, 0, 4,
  0, 0, 0, 0, 0, 0, 0, 1, 0, 0, 0, 0, 0, 0, 0, 1, 0, 0, 0, 0, 0, 0, 0]

theorem rewrite_accepted_oldDepthwise :
    ∃ g supply, (deserialize oldDepthwise).run .initial = .ok g supply ∧
      ¬ g.DepthwiseConsistent ∧
      ∃ bytes', g.serialize = .ok bytes' ∧
        ∀ t, ∃ e t', (deserialize bytes').run t = .error e t' := by
  have hcheck : (match (deserialize oldDepthwise).run .initial with
      | .ok g _ => decide g.DepthwiseConsistent
      | .error _ _ => true) = false := by decide +kernel
  cases hrun : (deserialize oldDepthwise).run .initial with
  | ok g supply =>
    rw [hrun] at hcheck
    have hbad : ¬ g.DepthwiseConsistent := of_decide_eq_false hcheck
    obtain ⟨bytes', hbytes', -, hrefused, -⟩ := rewrite_accepted hrun
    exact ⟨g, supply, rfl, hbad, bytes', hbytes', hrefused hbad⟩
  | error e supply =>
    rw [hrun] at hcheck
    cases hcheck

end Graph

end LayerGraph
