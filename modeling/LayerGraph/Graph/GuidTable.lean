import LayerGraph.Graph.Layer

/-! # Tables of layer identities

  A graph finds the position of a layer by the layer's identity. The table is kept beside the
  layers and has one entry at most for each identity.
-/

namespace LayerGraph

/-- Positions of layers by their identity. -/
structure GuidTable where
  /-- The entries, the latest first. -/
  entries : List (LayerGuid × LayerId) := []
deriving DecidableEq, Repr

namespace GuidTable

/-- The table without entries. -/
def empty : GuidTable := {}

/-- The position entered for an identity. -/
def find? (t : GuidTable) (guid : LayerGuid) : Option LayerId := t.entries.lookup guid

/-- The table without the entry of an identity. -/
def erase (t : GuidTable) (guid : LayerGuid) : GuidTable := ⟨t.entries.filter (·.1 != guid)⟩

/-- The table with a position entered for an identity, in place of any other. -/
def insert (t : GuidTable) (guid : LayerGuid) (id : LayerId) : GuidTable :=
  ⟨(guid, id) :: (t.erase guid).entries⟩

/-! ### What is found -/

@[simp] theorem find?_empty (guid : LayerGuid) : empty.find? guid = none := rfl

theorem find?_erase (t : GuidTable) (guid other : LayerGuid) :
    (t.erase guid).find? other = if other = guid then none else t.find? other := by
  obtain ⟨entries⟩ := t
  simp only [find?, erase]
  induction entries with
  | nil => simp
  | cons e rest ih =>
    obtain ⟨g, id⟩ := e
    by_cases hg : g = guid
    · subst hg
      by_cases ho : other = g
      · simpa [ho] using ih
      · have hne : (other == g) = false := beq_eq_false_iff_ne.mpr ho
        simpa [ho, List.lookup_cons, hne] using ih
    · by_cases ho : other = g
      · subst ho
        simp [hg]
      · have hne : (other == g) = false := beq_eq_false_iff_ne.mpr ho
        simpa [hg, List.lookup_cons, hne] using ih

theorem find?_insert (t : GuidTable) (guid other : LayerGuid) (id : LayerId) :
    (t.insert guid id).find? other = if other = guid then some id else t.find? other := by
  by_cases ho : other = guid
  · simp [ho, find?, insert]
  · have hne : (other == guid) = false := beq_eq_false_iff_ne.mpr ho
    have h := t.find?_erase guid other
    simpa [find?, insert, ho, List.lookup_cons, hne] using h

end GuidTable

end LayerGraph
