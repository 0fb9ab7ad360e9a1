import LayerGraph.Proofs.Graph.Growth
import Mathlib.Algebra.Group.End
import Mathlib.Data.Finset.Card

/-! # Isomorphic graphs

  Two graphs are isomorphic when a permutation of positions takes the layers of one to those of the
  other: the names, kinds and descriptors are the same, a slot reads what the slot of the other
  layer reads, and the boundaries have the same layers in the same order (`Isomorphism`). When one
  draft is appended to both, they stay isomorphic (`Isomorphism.append`).
-/

namespace LayerGraph

/-- The draft with the layers that it reads numbered in another way. -/
def Draft.renumber (number : LayerId → LayerId) (d : Draft) : Draft :=
  { d with sources := d.sources.map fun p => { p with layer := number p.layer } }

theorem Draft.content_renumber (number : LayerId → LayerId) (d : Draft) :
    (d.renumber number).content = d.content.renumber number := by
  simp [Draft.renumber, Draft.content, LayerContent.renumber]

theorem Draft.Covers.renumber {d : Draft} (h : d.Covers) (number : LayerId → LayerId) :
    (d.renumber number).Covers where
  inputs := h.inputs.trans (List.length_map _).ge
  outputs := h.outputs

namespace Graph

variable {g g' h h' : Graph} {φ : Equiv.Perm LayerId} {id : LayerId} {d : Draft}
variable {supply supply' s s' : GuidSupply} {direction : Direction}

/-- The layers of `g` are those of `g'`, where the permutation `φ` puts them. -/
structure Isomorphism (φ : Equiv.Perm LayerId) (g g' : Graph) : Prop where
  /-- A layer says in `g'` what it says in `g`, about the layers that `φ` puts elsewhere. -/
  content? : ∀ id, g'.content? (φ id) = (g.content? id).map (·.renumber φ)
  /-- The inputs and the outputs have the order that they have in `g`. -/
  boundary : ∀ direction, g'.boundary direction = (g.boundary direction).map φ

/-! ### What isomorphic graphs share -/

/-- The layers of one graph are put where the other one has layers. -/
theorem Isomorphism.lt_iff (h : Isomorphism φ g g') (id : LayerId) :
    φ id < g'.layers.length ↔ id < g.layers.length := by
  rw [← not_iff_not, Nat.not_lt, Nat.not_lt, ← content?_eq_none_iff, ← content?_eq_none_iff,
    h.content?, Option.map_eq_none_iff]

theorem Isomorphism.length_eq (h : Isomorphism φ g g') : g'.layers.length = g.layers.length := by
  have himage : (Finset.range g.layers.length).map φ.toEmbedding =
      Finset.range g'.layers.length := by
    ext id
    rw [Finset.mem_map_equiv, Finset.mem_range, Finset.mem_range, ← h.lt_iff,
      Equiv.apply_symm_apply]
  have hcard := congrArg Finset.card himage
  rw [Finset.card_map, Finset.card_range, Finset.card_range] at hcard
  exact hcard.symm

theorem Isomorphism.kind? (h : Isomorphism φ g g') (id : LayerId) :
    g'.kind? (φ id) = g.kind? id := by
  rw [kind?_eq_content?, h.content?, kind?_eq_content?, Option.map_map]
  rfl

/-- A slot reads what the slot of the other layer reads. -/
theorem Isomorphism.producer? (h : Isomorphism φ g g') (slot : InputRef) :
    g'.producer? { slot with layer := φ slot.layer } =
      (g.producer? slot).map fun p => { p with layer := φ p.layer } := by
  rw [producer?_eq_content?, producer?_eq_content?, h.content?]
  cases g.content? slot.layer with
  | none => rfl
  | some c =>
    show ((c.inputs.map _)[slot.index]?).join = _
    rw [List.getElem?_map, Option.map_some, Option.getD_some]
    cases c.inputs[slot.index]? <;> rfl

theorem Isomorphism.info? (h : Isomorphism φ g g') (p : OutputRef) :
    g'.info? { p with layer := φ p.layer } = g.info? p := by
  rw [info?_eq_content?, info?_eq_content?, h.content?]
  cases g.content? p.layer <;> rfl

theorem Isomorphism.bindings (h : Isomorphism φ g g') (direction : Direction) :
    g'.bindings direction = g.bindings direction := by
  have hbinding : g'.binding? ∘ φ = g.binding? := by
    funext id
    rw [Function.comp_apply, binding?_eq_bind_kind?, h.kind?, ← binding?_eq_bind_kind?]
  rw [Graph.bindings, Graph.bindings, h.boundary, List.filterMap_map, hbinding]

/-! ### Growing alike -/

/-- A boundary gains a layer when a draft of its kind is appended. -/
theorem boundary_append (h : (g.append d).run supply = .ok g' supply') (direction : Direction) :
    g'.boundary direction =
      g.boundary direction ++ boundaryGain direction d.kind g.layers.length := by
  obtain ⟨g₁, hadded, -, hfill⟩ := append_eq_ok_iff.mp h
  obtain ⟨g₂, hdescribe, hconnect⟩ := Except.bind_eq_ok_iff.mp hfill
  have hdescribed : g₂.boundary direction = g₁.boundary direction := by
    refine Except.foldlM_invariant
      (P := fun g => g.boundary direction = g₁.boundary direction) ?_ rfl hdescribe
    intro a _ b b' hb hset
    obtain ⟨-, rfl⟩ := setInfo_eq_ok_iff.mp hset
    rw [boundary_describe, hb]
  have hconnected : g'.boundary direction = g₂.boundary direction := by
    refine Except.foldlM_invariant
      (P := fun g => g.boundary direction = g₂.boundary direction) ?_ rfl hconnect
    intro a _ b b' hb hlink
    obtain ⟨-, -, -, -, rfl⟩ := connect_eq_ok_iff.mp hlink
    rw [boundary_link, hb]
  rw [hconnected, hdescribed, hadded.boundary]

/-- Layers that are no boundary layers leave the boundaries as they are. -/
theorem boundary_appendAll {drafts : List Draft} (hkinds : ∀ d ∈ drafts, d.kind.binding? = none)
    (h : (g.appendAll drafts).run supply = .ok g' supply') (direction : Direction) :
    g'.boundary direction = g.boundary direction := by
  refine Build.foldlM_prefix
    (P := fun _ g' _ => g'.boundary direction = g.boundary direction) ?_ rfl h
  intro _ d hd g₁ t g₂ t' hg₁ hstep
  have hgain : boundaryGain direction d.kind g₁.layers.length = [] := by
    refine boundaryGain_eq_nil direction fun b hb => ?_
    have hnone := hkinds d hd
    rw [hb, binding?_directionKind] at hnone
    cases hnone
  rw [boundary_append hstep, hgain, List.append_nil, hg₁]

/-- Isomorphic graphs stay isomorphic when a draft is appended to both, if it reads the same layers.
    The new layers are at the same position, which the permutation leaves alone. -/
theorem Isomorphism.append (hiso : Isomorphism φ g g')
    (hfixed : ∀ id, g.layers.length ≤ id → φ id = id) (hg : Grown g supply)
    (hg' : Grown g' supply') (hcovers : d.Covers) (hrun : (g.append d).run supply = .ok h s)
    (hrun' : (g'.append (d.renumber φ)).run supply' = .ok h' s') : Isomorphism φ h h' where
  content? := by
    intro id
    obtain ⟨-, -, hextends⟩ := hg.append_eq_ok hcovers hrun
    obtain ⟨-, -, hextends'⟩ := hg'.append_eq_ok (hcovers.renumber φ) hrun'
    -- Old layers correspond as before, and the new one is at the same place in both graphs.
    by_cases hid : id < g.layers.length
    · rw [hextends.content?_of_lt hid, hextends'.content?_of_lt ((hiso.lt_iff id).mpr hid),
        hiso.content?]
    · obtain ⟨k, rfl⟩ := Nat.exists_eq_add_of_le (Nat.not_lt.mp hid)
      rw [hfixed _ (Nat.not_lt.mp hid), hextends.content?_new]
      rw [← hiso.length_eq, hextends'.content?_new, Draft.content_renumber]
      cases k <;> rfl
  boundary := by
    intro direction
    have hgain : (boundaryGain direction d.kind g.layers.length).map φ =
        boundaryGain direction d.kind g.layers.length := by
      refine (List.map_congr_left fun id hid => ?_).trans (List.map_id _)
      obtain ⟨rfl, -⟩ := mem_boundaryGain_iff.mp hid
      exact hfixed _ (Nat.le_refl _)
    rw [boundary_append hrun, boundary_append hrun', hiso.boundary, hiso.length_eq,
      List.map_append, hgain]
    rfl

end Graph

end LayerGraph
