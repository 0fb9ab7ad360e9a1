import LayerGraph.Proofs.Graph.Coherence
import Mathlib.Data.List.Pairwise

/-! # The order of a boundary

  The caller gives the order of the inputs, or of the outputs, by their bindings. In a coherent
  graph a binding belongs to one layer of its side (`findBinding?_eq_some_iff`), so such an
  order is accepted exactly when it names every boundary layer once (`arrangement_eq_ok_iff`).
-/

namespace LayerGraph

namespace Graph

variable {g : Graph} {direction : Direction} {binding : BindingId} {id : LayerId}

/-- Two layers of one side do not have the same binding. -/
theorem Coherent.binding_injective (hg : g.Coherent) {a b : LayerId}
    (ha : a ∈ g.boundary direction) (hb : b ∈ g.boundary direction)
    (hab : g.binding? a = some binding) (hbb : g.binding? b = some binding) : a = b := by
  by_contra hne
  have hpair := List.pairwise_filterMap.mp (hg.bindings_nodup direction)
  have hsymm : Std.Symm fun x y : LayerId =>
      ∀ p, g.binding? x = some p → ∀ q, g.binding? y = some q → p ≠ q :=
    ⟨fun _ _ h p hp q hq => (h q hq p hp).symm⟩
  exact hpair.forall ha hb hne binding hab binding hbb rfl

/-- The search for a binding finds its layer. -/
theorem Coherent.findBinding?_eq_some_iff (hg : g.Coherent) :
    g.findBinding? direction binding = some id ↔
      id ∈ g.boundary direction ∧ g.binding? id = some binding := by
  constructor
  · exact findBinding?_eq_some
  · rintro ⟨hid, hbinding⟩
    cases hfind : g.findBinding? direction binding with
    | none => exact absurd hbinding (findBinding?_eq_none_iff.mp hfind id hid)
    | some id' =>
      obtain ⟨hid', hbinding'⟩ := findBinding?_eq_some hfind
      rw [hg.binding_injective hid hid' hbinding hbinding']

/-! ### One binding after the other -/

/-- Puts the layer of the next binding behind those arranged so far. -/
def arrange (g : Graph) (direction : Direction) (arranged : List LayerId) (binding : BindingId) :
    Except GraphError (List LayerId) :=
  match g.findBinding? direction binding with
  | none => throw (.unknownBinding direction binding)
  | some id =>
    if arranged.contains id then throw (.duplicateBinding direction binding)
    else return arranged ++ [id]

/-- An order is accepted when its bindings are found and name as many layers as there are. -/
theorem arrangement_eq_ok_iff_foldlM {order : List BindingId} {ids : List LayerId} :
    g.arrangement direction order = .ok ids ↔
      order.foldlM (g.arrange direction) [] = .ok ids ∧
        ids.length = (g.boundary direction).length := by
  show (order.foldlM (g.arrange direction) [] >>= _) = _ ↔ _
  rw [Except.bind_eq_ok_iff]
  constructor
  · rintro ⟨ids', hfold, h⟩
    obtain ⟨hlen, h⟩ := Except.check_eq_ok_iff.mp h
    obtain rfl := Except.pure_eq_ok_iff.mp h
    exact ⟨hfold, not_not.mp hlen⟩
  · rintro ⟨hfold, hlen⟩
    exact ⟨ids, hfold, Except.check_eq_ok_iff.mpr ⟨not_not.mpr hlen, rfl⟩⟩

theorem arrange_eq_ok_iff {arranged ids : List LayerId} :
    g.arrange direction arranged binding = .ok ids ↔
      ∃ id, g.findBinding? direction binding = some id ∧ id ∉ arranged ∧
        ids = arranged ++ [id] := by
  unfold arrange
  constructor
  · intro h
    split at h
    · cases h
    · next id hfind =>
      split at h
      · cases h
      · next hnot =>
        exact ⟨id, hfind, by simpa using hnot, (Except.pure_eq_ok_iff.mp h).symm⟩
  · rintro ⟨id, hfind, hnot, rfl⟩
    rw [hfind]
    simp [hnot, pure, Except.pure]

/-- What is arranged grows by the layers of the bindings, all of them new. -/
theorem foldlM_arrange_eq_ok_iff {order : List BindingId} {arranged ids : List LayerId}
    (hnodup : arranged.Nodup) :
    order.foldlM (g.arrange direction) arranged = .ok ids ↔
      ∃ rest, ids = arranged ++ rest ∧ (arranged ++ rest).Nodup ∧
        List.Forall₂ (fun id binding => g.findBinding? direction binding = some id) rest order := by
  induction order generalizing arranged with
  | nil =>
    rw [List.foldlM_nil, Except.pure_eq_ok_iff]
    constructor
    · rintro rfl
      exact ⟨[], by simp, by simpa using hnodup, .nil⟩
    · rintro ⟨rest, rfl, -, hrest⟩
      rw [List.forall₂_nil_right_iff.mp hrest, List.append_nil]
  | cons binding order ih =>
    rw [List.foldlM_cons, Except.bind_eq_ok_iff]
    constructor
    · rintro ⟨next, hnext, hfold⟩
      obtain ⟨id, hfind, hnot, rfl⟩ := arrange_eq_ok_iff.mp hnext
      have hnodup' : (arranged ++ [id]).Nodup :=
        hnodup.append (List.nodup_singleton id) (by simpa using hnot)
      obtain ⟨rest, rfl, hall, hrest⟩ := (ih hnodup').mp hfold
      exact ⟨id :: rest, by simp, by simpa using hall, .cons hfind hrest⟩
    · rintro ⟨_, rfl, hall, _ | ⟨hfind, hrest⟩⟩
      rename_i id rest
      have hall' : (arranged ++ [id] ++ rest).Nodup := by simpa using hall
      -- The layer is not arranged yet, as the result holds it only once.
      have hnot : id ∉ arranged := fun hmem =>
        List.disjoint_of_nodup_append hall hmem List.mem_cons_self
      exact ⟨arranged ++ [id], arrange_eq_ok_iff.mpr ⟨id, hfind, hnot, rfl⟩,
        (ih hall'.of_append_left).mpr ⟨rest, by simp, hall', hrest⟩⟩

/-! ### The whole order -/

/-- An order of bindings is accepted when it leads to as many layers as the boundary has, each of
    them once. -/
theorem arrangement_eq_ok_iff_forall₂ {order : List BindingId} {ids : List LayerId} :
    g.arrangement direction order = .ok ids ↔
      ids.Nodup ∧ ids.length = (g.boundary direction).length ∧
        List.Forall₂ (fun id binding => g.findBinding? direction binding = some id) ids order := by
  rw [arrangement_eq_ok_iff_foldlM, foldlM_arrange_eq_ok_iff List.nodup_nil]
  constructor
  · rintro ⟨⟨rest, rfl, hnodup, hrest⟩, hlen⟩
    exact ⟨hnodup, hlen, hrest⟩
  · rintro ⟨hnodup, hlen, hids⟩
    exact ⟨⟨ids, rfl, hnodup, hids⟩, hlen⟩

/-- Whatever the boundary lists are, putting one of them in order takes and leaves no layer. -/
theorem perm_of_arrangement {order : List BindingId} {ids : List LayerId}
    (h : g.arrangement direction order = .ok ids) : ids.Perm (g.boundary direction) := by
  obtain ⟨hnodup, hlen, hids⟩ := arrangement_eq_ok_iff_forall₂.mp h
  have hsub : ids ⊆ g.boundary direction := by
    intro id hid
    obtain ⟨binding, -, hfind⟩ := exists_mem_of_forall₂ hids.flip hid
    exact (findBinding?_eq_some hfind).1
  exact (hnodup.subperm hsub).perm_of_length_le (Nat.le_of_eq hlen.symm)

/-- An order of bindings is accepted when it names every boundary layer once, and then the
    layers are put in that order. -/
theorem Coherent.arrangement_eq_ok_iff (hg : g.Coherent) {order : List BindingId}
    {ids : List LayerId} :
    g.arrangement direction order = .ok ids ↔
      ids.Perm (g.boundary direction) ∧ ids.map g.binding? = order.map some := by
  rw [arrangement_eq_ok_iff_forall₂]
  simp only [hg.findBinding?_eq_some_iff, List.forall₂_and_left, ← List.forall₂_eq_eq_eq,
    List.forall₂_map_left_iff, List.forall₂_map_right_iff]
  constructor
  · rintro ⟨hnodup, hlen, hsub, hmap⟩
    exact ⟨(hnodup.subperm hsub).perm_of_length_le (Nat.le_of_eq hlen.symm), hmap⟩
  · rintro ⟨hperm, hmap⟩
    have hnodup := hperm.nodup_iff.mpr (hg.boundary_nodup direction)
    exact ⟨hnodup, hperm.length_eq, hperm.subset, hmap⟩

/-- What putting a boundary in another order does to a coherent graph. -/
structure Reordered (g : Graph) (direction : Direction) (order : List BindingId) (g' : Graph) :
    Prop where
  coherent : g'.Coherent
  layers : g'.layers = g.layers
  bindings : ∀ other, g'.bindings other = if other = direction then order else g.bindings other

theorem Coherent.reorder {g' : Graph} {order : List BindingId} (hg : g.Coherent)
    (h : g.reorder direction order = .ok g') : g.Reordered direction order g' := by
  obtain ⟨ids, harr, rfl⟩ := reorder_eq_ok_iff.mp h
  obtain ⟨hperm, hmap⟩ := hg.arrangement_eq_ok_iff.mp harr
  refine ⟨hg.setBoundary hperm, layers_setBoundary direction ids, fun other => ?_⟩
  have hids : ids.filterMap g.binding? = order := by
    have h := congrArg (List.filterMap id) hmap
    simpa only [List.filterMap_map, Function.id_comp, List.filterMap_some] using h
  rw [bindings_setBoundary, hids]

/-- The bindings of a side can be put in any order. -/
theorem Coherent.exists_reorder {order : List BindingId} (hg : g.Coherent)
    (h : order.Perm (g.bindings direction)) : ∃ g', g.reorder direction order = .ok g' := by
  have hall : List.Forall₂ (fun binding id => g.binding? id = some binding)
      (g.bindings direction) (g.boundary direction) := by
    have hsome : ∀ id ∈ g.boundary direction, ∃ binding, g.binding? id = some binding :=
      fun id => hg.exists_binding
    rw [bindings]
    generalize g.boundary direction = ids at hsome
    induction ids with
    | nil => exact .nil
    | cons id ids ih =>
      obtain ⟨⟨binding, hbinding⟩, hids⟩ := List.forall_mem_cons.mp hsome
      rw [List.filterMap_cons_some hbinding]
      exact .cons hbinding (ih hids)
  -- The layers are permuted in the same way as their bindings.
  obtain ⟨ids, hids, hperm⟩ := List.perm_comp_forall₂ h hall
  have hmap : ids.map g.binding? = order.map some := by
    clear hperm h
    induction hids with
    | nil => rfl
    | cons hbinding _ ih => rw [List.map_cons, List.map_cons, hbinding, ih]
  exact ⟨_, reorder_eq_ok_iff.mpr ⟨ids, hg.arrangement_eq_ok_iff.mpr ⟨hperm, hmap⟩, rfl⟩⟩

end Graph

end LayerGraph
