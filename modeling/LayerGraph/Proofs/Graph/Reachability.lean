import LayerGraph.Proofs.Graph.Slots
import Mathlib.Logic.Relation
import Mathlib.Data.List.Nodup
import Mathlib.Data.List.Perm.Subperm

/-! # The search for cycles is exact

  `Graph.reaches` widens a list of layers by their successors until nothing is new, at most
  as often as the graph has layers. Main statement: a layer is reached exactly when a path of
  connections leads to it (`reaches_iff`).

  Two facts carry the proof. Every round either closes the list under successors or makes it
  longer, and a list of different layers is no longer than the graph, so the rounds suffice.
-/

namespace LayerGraph

namespace Graph

variable {g : Graph} {a b : LayerId} {seen : List LayerId} {steps : Nat}

/-- The second layer reads a tensor of the first. -/
def Precedes (g : Graph) (a b : LayerId) : Prop := b ∈ g.successors a

/-- Every layer that is read by is in the graph. -/
def ReadersExist (g : Graph) : Prop := ∀ a b, g.Precedes a b → b < g.layers.length

/-! ### One round of widening -/

theorem mem_foldl_insert {xs : List LayerId} {x : LayerId} :
    x ∈ xs.foldl (fun seen id => seen.insert id) seen ↔ x ∈ seen ∨ x ∈ xs := by
  induction xs generalizing seen with
  | nil => simp
  | cons y ys ih =>
    rw [List.foldl_cons, ih, List.mem_insert_iff, List.mem_cons]
    tauto

theorem nodup_foldl_insert {xs : List LayerId} (h : seen.Nodup) :
    (xs.foldl (fun seen id => seen.insert id) seen).Nodup := by
  induction xs generalizing seen with
  | nil => exact h
  | cons y ys ih => exact ih h.insert

/-- The layers of a list with their successors. -/
def widen (g : Graph) (seen : List LayerId) : List LayerId :=
  (seen.flatMap g.successors).foldl (fun seen id => seen.insert id) seen

theorem spread_succ (g : Graph) (steps : Nat) (seen : List LayerId) :
    g.spread (steps + 1) seen =
      if (g.widen seen).length = seen.length then seen else g.spread steps (g.widen seen) := rfl

theorem mem_widen_iff {x : LayerId} :
    x ∈ g.widen seen ↔ x ∈ seen ∨ ∃ s ∈ seen, g.Precedes s x := by
  simp only [widen, mem_foldl_insert, List.mem_flatMap, Precedes]

theorem subset_widen : seen ⊆ g.widen seen := fun _ hx => mem_widen_iff.mpr (.inl hx)

theorem nodup_widen (h : seen.Nodup) : (g.widen seen).Nodup := nodup_foldl_insert h

/-- A round that finds nothing new has a closed list. -/
theorem closed_of_length_widen (hnodup : seen.Nodup)
    (hlen : (g.widen seen).length = seen.length) (ha : a ∈ seen) (hab : g.Precedes a b) :
    b ∈ seen := by
  have hperm : seen.Perm (g.widen seen) :=
    (hnodup.subperm subset_widen).perm_of_length_le (Nat.le_of_eq hlen)
  exact hperm.mem_iff.mpr (mem_widen_iff.mpr (.inr ⟨a, ha, hab⟩))

theorem length_lt_widen (hnodup : seen.Nodup)
    (hlen : (g.widen seen).length ≠ seen.length) : seen.length < (g.widen seen).length := by
  have hle := (hnodup.subperm (subset_widen (g := g))).length_le
  omega

theorem widen_lt (hreaders : g.ReadersExist) (hlt : ∀ x ∈ seen, x < g.layers.length) :
    ∀ x ∈ g.widen seen, x < g.layers.length := by
  intro x hx
  rcases mem_widen_iff.mp hx with hseen | ⟨s, -, hsx⟩
  · exact hlt x hseen
  · exact hreaders s x hsx

/-! ### All rounds -/

theorem subset_spread : seen ⊆ g.spread steps seen := by
  induction steps generalizing seen with
  | zero => exact List.Subset.refl seen
  | succ steps ih =>
    rw [spread_succ]
    split
    · exact List.Subset.refl seen
    · exact List.Subset.trans subset_widen ih

/-- Whatever is found is at the end of a path. -/
theorem exists_path_of_mem_spread {x : LayerId} (h : x ∈ g.spread steps seen) :
    ∃ s ∈ seen, Relation.ReflTransGen g.Precedes s x := by
  induction steps generalizing seen with
  | zero => exact ⟨x, h, .refl⟩
  | succ steps ih =>
    rw [spread_succ] at h
    split at h
    · exact ⟨x, h, .refl⟩
    · obtain ⟨w, hw, hpath⟩ := ih h
      rcases mem_widen_iff.mp hw with hseen | ⟨s, hs, hsw⟩
      · exact ⟨w, hseen, hpath⟩
      · exact ⟨s, hs, .head hsw hpath⟩

/-- With a round for every layer not yet seen, the list ends up closed under successors. -/
theorem closed_spread (hreaders : g.ReadersExist) (hnodup : seen.Nodup)
    (hlt : ∀ x ∈ seen, x < g.layers.length) (hsteps : g.layers.length ≤ seen.length + steps)
    (ha : a ∈ g.spread steps seen) (hab : g.Precedes a b) : b ∈ g.spread steps seen := by
  induction steps generalizing seen with
  | zero =>
    -- No rounds are left: the list holds every layer already.
    have hsub : seen ⊆ List.range g.layers.length :=
      fun x hx => List.mem_range.mpr (hlt x hx)
    have hperm : seen.Perm (List.range g.layers.length) :=
      (hnodup.subperm hsub).perm_of_length_le (by simpa using hsteps)
    exact hperm.mem_iff.mpr (List.mem_range.mpr (hreaders a b hab))
  | succ steps ih =>
    rw [spread_succ] at ha ⊢
    split
    · next hlen =>
      rw [if_pos hlen] at ha
      exact closed_of_length_widen hnodup hlen ha hab
    · next hlen =>
      rw [if_neg hlen] at ha
      have hlonger := length_lt_widen hnodup hlen
      exact ih (nodup_widen hnodup) (widen_lt hreaders hlt) (by omega) ha

/-- A layer is reached when a path leads to it. -/
theorem reaches_iff (hreaders : g.ReadersExist) (ha : a < g.layers.length) :
    g.reaches a b = true ↔ Relation.ReflTransGen g.Precedes a b := by
  simp only [reaches, List.contains_iff_mem]
  constructor
  · intro h
    obtain ⟨s, hs, hpath⟩ := exists_path_of_mem_spread h
    rwa [List.mem_singleton.mp hs] at hpath
  · intro hpath
    have hsingle : ∀ x ∈ [a], x < g.layers.length := by simpa using ha
    induction hpath with
    | refl => exact subset_spread (by simp)
    | tail _ hstep ih =>
      exact closed_spread hreaders (List.nodup_singleton a) hsingle (by simp) ih hstep

/-- A layer that nothing reads reaches itself alone. -/
theorem reaches_of_no_readers (hreaders : g.ReadersExist) (ha : a < g.layers.length)
    (hnone : ∀ b, ¬ g.Precedes a b) (hne : b ≠ a) : g.reaches a b = false := by
  rw [Bool.eq_false_iff]
  intro h
  rcases Relation.ReflTransGen.cases_head ((reaches_iff hreaders ha).mp h) with rfl | ⟨c, hac, -⟩
  · exact hne rfl
  · exact hnone c hac

end Graph

end LayerGraph
