import LayerGraph.Proofs.Graph.Coherence
import Mathlib.Algebra.BigOperators.Group.Finset.Basic

/-! # Depth-first search

  `Graph.reaches` widens a list round by round. The same question can be answered with a stack:
  take the topmost layer, stop if it is the target, and otherwise put its successors on the stack
  unless that was done before. A layer may wait on the stack several times, since it is marked
  when it is taken and not when it is put there.

  Main statement: in a graph whose readers exist, this search ends after at most two turns more
  than there are connections, and its answer is that of `Graph.reaches` (`run_start`).

  Two facts carry the proof. What waits is reached, and what a marked layer leads to is marked or
  waits (`Explores`), so the answer is right whenever there is one. The connections of the layers
  not yet marked, with the layers that wait, become fewer in every turn (`pending`), so there is
  an answer.
-/

namespace LayerGraph

/-- A depth-first search between two turns. -/
structure Search where
  /-- The layers whose successors were put on the stack. -/
  visited : List LayerId
  /-- The layers still to be looked at, the topmost first. -/
  stack : List LayerId

namespace Search

/-- The search from a layer before its first turn. -/
def start (id : LayerId) : Search := ⟨[], [id]⟩

/-- One turn: the answer, or the search that goes on. -/
def turn (g : Graph) (target : LayerId) (s : Search) : Bool ⊕ Search :=
  match s.stack with
  | [] => .inl false
  | id :: rest =>
    if id = target then .inl true
    else if id ∈ s.visited then .inr ⟨s.visited, rest⟩
    else .inr ⟨id :: s.visited, (g.successors id).reverse ++ rest⟩

/-- The answer after at most so many turns, if there is one by then. -/
def run (g : Graph) (target : LayerId) : Nat → Search → Option Bool
  | 0, _ => none
  | turns + 1, s =>
    match s.turn g target with
    | .inl answer => some answer
    | .inr next => next.run g target turns

variable {g : Graph} {a target : LayerId} {s s' : Search}

/-- A search goes on after its topmost layer is taken: for the first time or again. -/
theorem turn_eq_inr (h : s.turn g target = .inr s') :
    ∃ id rest, s.stack = id :: rest ∧ id ≠ target ∧
      ((id ∈ s.visited ∧ s' = ⟨s.visited, rest⟩) ∨
        (id ∉ s.visited ∧ s' = ⟨id :: s.visited, (g.successors id).reverse ++ rest⟩)) := by
  unfold turn at h
  split at h
  · cases h
  · next id rest hstack =>
    split at h
    · cases h
    · next hne =>
      refine ⟨id, rest, hstack, hne, ?_⟩
      split at h
      · next hvisited =>
        cases h
        exact .inl ⟨hvisited, rfl⟩
      · next hvisited =>
        cases h
        exact .inr ⟨hvisited, rfl⟩

/-! ### The answer is right -/

/-- What holds of a search from `a` for `target` that has not ended. -/
structure Explores (g : Graph) (a target : LayerId) (s : Search) : Prop where
  /-- The search began at `a`. -/
  started : a ∈ s.visited ∨ a ∈ s.stack
  /-- What waits is reached. -/
  reached : ∀ x ∈ s.stack, Relation.ReflTransGen g.Precedes a x
  /-- What a marked layer leads to is marked or waits. -/
  closed : ∀ x ∈ s.visited, ∀ y, g.Precedes x y → y ∈ s.visited ∨ y ∈ s.stack
  /-- The target was not taken yet. -/
  missed : target ∉ s.visited

theorem explores_start (g : Graph) (a target : LayerId) : (start a).Explores g a target where
  started := .inr (List.mem_singleton_self a)
  reached := by
    intro x hx
    rw [List.mem_singleton.mp hx]
  closed := by simp [start]
  missed := by simp [start]

/-- With nothing left to look at, every path has stayed among the marked layers. -/
theorem Explores.mem_visited (h : s.Explores g a target) (hstack : s.stack = []) {x : LayerId}
    (hpath : Relation.ReflTransGen g.Precedes a x) : x ∈ s.visited := by
  induction hpath with
  | refl =>
    have hstarted := h.started
    rw [hstack] at hstarted
    simpa using hstarted
  | tail _ hstep ih =>
    have hnext := h.closed _ ih _ hstep
    rw [hstack] at hnext
    simpa using hnext

theorem Explores.answer (h : s.Explores g a target) {answer : Bool}
    (hturn : s.turn g target = .inl answer) :
    answer = true ↔ Relation.ReflTransGen g.Precedes a target := by
  unfold turn at hturn
  split at hturn
  · next hstack =>
    cases hturn
    have hno : ¬ Relation.ReflTransGen g.Precedes a target :=
      fun hpath => h.missed (h.mem_visited hstack hpath)
    simpa using hno
  · next id rest hstack =>
    split at hturn
    · next heq =>
      cases hturn
      have hpath := h.reached id (by simp [hstack])
      rw [heq] at hpath
      simpa using hpath
    · split at hturn <;> cases hturn

/-- What was marked or waited still does, when the topmost layer is marked in the end. -/
theorem mem_after_take {visited rest waiting : List LayerId} {id x : LayerId}
    (h : x ∈ visited ∨ x ∈ id :: rest) :
    x ∈ id :: visited ∨ x ∈ waiting ++ rest := by
  rcases h with h | h
  · exact .inl (List.mem_cons_of_mem id h)
  · rcases List.mem_cons.mp h with rfl | h
    · exact .inl List.mem_cons_self
    · exact .inr (List.mem_append_right waiting h)

theorem Explores.next (h : s.Explores g a target) (hturn : s.turn g target = .inr s') :
    s'.Explores g a target := by
  obtain ⟨id, rest, hstack, hne, hs'⟩ := turn_eq_inr hturn
  obtain ⟨hstarted, hreached, hclosed, hmissed⟩ := h
  rw [hstack] at hstarted hreached hclosed
  have hid := hreached id List.mem_cons_self
  have hrest : ∀ x ∈ rest, Relation.ReflTransGen g.Precedes a x :=
    fun x hx => hreached x (List.mem_cons_of_mem id hx)
  rcases hs' with ⟨hvisited, rfl⟩ | ⟨-, rfl⟩
  · -- A layer taken again is marked already, so nothing is lost with this copy of it.
    have hkeep (x : LayerId) (hx : x ∈ s.visited ∨ x ∈ id :: rest) :
        x ∈ s.visited ∨ x ∈ rest := by
      rcases hx with hx | hx
      · exact .inl hx
      · rcases List.mem_cons.mp hx with rfl | hx
        · exact .inl hvisited
        · exact .inr hx
    exact ⟨hkeep a hstarted, hrest, fun x hx y hxy => hkeep y (hclosed x hx y hxy), hmissed⟩
  · -- A layer taken for the first time: its successors wait from now on.
    refine ⟨mem_after_take hstarted, ?_, ?_, ?_⟩
    · intro x hx
      rcases List.mem_append.mp hx with hx | hx
      · exact hid.tail (List.mem_reverse.mp hx)
      · exact hrest x hx
    · intro x hx y hxy
      rcases List.mem_cons.mp hx with rfl | hx
      · exact .inr (List.mem_append_left rest (List.mem_reverse.mpr hxy))
      · exact mem_after_take (hclosed x hx y hxy)
    · intro htarget
      rcases List.mem_cons.mp htarget with rfl | htarget
      · exact hne rfl
      · exact hmissed htarget

/-! ### The search ends -/

/-- The connections of the layers that are not marked, and the layers that wait. -/
def pending (g : Graph) (s : Search) : Nat :=
  s.stack.length + ∑ id ∈ Finset.range g.layers.length with id ∉ s.visited, (g.successors id).length

/-- A layer that is marked takes its connections out of those still to come. -/
theorem sum_successors_cons {visited : List LayerId} {id : LayerId} (hid : id ∉ visited)
    (hlt : id < g.layers.length) :
    (g.successors id).length +
        ∑ x ∈ Finset.range g.layers.length with x ∉ id :: visited, (g.successors x).length =
      ∑ x ∈ Finset.range g.layers.length with x ∉ visited, (g.successors x).length := by
  have herase : {x ∈ Finset.range g.layers.length | x ∉ id :: visited} =
      {x ∈ Finset.range g.layers.length | x ∉ visited}.erase id := by
    ext x
    simp only [Finset.mem_filter, Finset.mem_erase, List.mem_cons, not_or]
    tauto
  rw [herase]
  exact Finset.add_sum_erase _ (fun x => (g.successors x).length) (by simp [hid, hlt])

theorem Explores.pending_lt (h : s.Explores g a target) (hreaders : g.ReadersExist)
    (ha : a < g.layers.length) (hturn : s.turn g target = .inr s') :
    s'.pending g < s.pending g := by
  obtain ⟨id, rest, hstack, -, hs'⟩ := turn_eq_inr hturn
  have hid := h.reached id (by rw [hstack]; exact List.mem_cons_self)
  rcases hs' with ⟨-, rfl⟩ | ⟨hvisited, rfl⟩
  · simp only [pending, hstack, List.length_cons]
    omega
  · -- The successors wait now, and are no longer counted as connections to come.
    have hlt : id < g.layers.length := by
      rcases hid.cases_tail with rfl | ⟨x, -, hx⟩
      · exact ha
      · exact hreaders x id hx
    have hsum := sum_successors_cons hvisited hlt
    simp only [pending, hstack, List.length_append, List.length_reverse, List.length_cons]
    omega

/-- A search with more turns than it has work has an answer, and the right one. -/
theorem Explores.run (h : s.Explores g a target) (hreaders : g.ReadersExist)
    (ha : a < g.layers.length) {turns : Nat} (hturns : s.pending g < turns) :
    ∃ answer, s.run g target turns = some answer ∧
      (answer = true ↔ Relation.ReflTransGen g.Precedes a target) := by
  induction turns generalizing s with
  | zero => omega
  | succ turns ih =>
    cases hturn : s.turn g target with
    | inl answer => exact ⟨answer, by rw [Search.run, hturn], h.answer hturn⟩
    | inr next =>
      have hless := h.pending_lt hreaders ha hturn
      obtain ⟨answer, hrun, hright⟩ := ih (h.next hturn) (by omega)
      exact ⟨answer, by rw [Search.run, hturn]; exact hrun, hright⟩

end Search

/-- Number of connections of a graph. -/
def Graph.connectionCount (g : Graph) : Nat :=
  ∑ id ∈ Finset.range g.layers.length, (g.successors id).length

namespace Search

variable {g : Graph} {a target : LayerId}

theorem pending_start (g : Graph) (a : LayerId) :
    (start a).pending g = g.connectionCount + 1 := by
  simp [pending, start, Graph.connectionCount, Nat.add_comm]

/-- The search from a layer of the graph ends, and finds what the rounds of widening find. -/
theorem run_start (hreaders : g.ReadersExist) (ha : a < g.layers.length) :
    (start a).run g target (g.connectionCount + 2) = some (g.reaches a target) := by
  have hturns : (start a).pending g < g.connectionCount + 2 := by
    rw [pending_start]
    omega
  obtain ⟨answer, hrun, hright⟩ := (explores_start g a target).run hreaders ha hturns
  rw [hrun, Option.some.injEq, Bool.eq_iff_iff, hright]
  exact (Graph.reaches_iff hreaders ha).symm

end Search

end LayerGraph
