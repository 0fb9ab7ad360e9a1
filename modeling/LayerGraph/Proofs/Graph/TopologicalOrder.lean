import LayerGraph.Graph.Order
import LayerGraph.Proofs.Graph.Session
import Mathlib.Data.List.Range
import Mathlib.Data.Fintype.Card
import Mathlib.Data.Fintype.EquivFin
import Mathlib.Data.Fintype.Basic
import Mathlib.Order.WellFounded

/-! # The topological order

  Main statement: in the order of a coherent graph every layer is listed once, at each place stands
  the first layer whose producers are all listed before, and no wait is ended that is not there
  (`Coherent.topologicalOrder_spec`). When connections lead from earlier layers to later ones only,
  the order is the order of the layers (`Linked.topologicalOrder_of_forward`). The boundaries of a
  graph play no part in the order, so all of this needs its connections only (`Linked`).

  The listing keeps for each layer the number of inputs that wait for a layer not listed yet
  (`waiting`). Listing a layer shortens the waits of its readers one by one, so during a step the
  stored number is ahead of the true one by the readers still to be told (`Listing.Agrees`).
-/

namespace LayerGraph

namespace Graph

variable {g : Graph} {order : List LayerId}

/-! ### Waiting inputs -/

/-- What the input slots of a layer read. -/
def sources (g : Graph) (id : LayerId) : List (Option OutputRef) :=
  (g.layers[id]?.map (·.inputs)).getD []

theorem producer?_eq_sources (slot : InputRef) :
    g.producer? slot = (g.sources slot.layer)[slot.index]?.join := by
  simp only [producer?, sources]
  cases g.layers[slot.layer]? with
  | none => rfl
  | some l =>
    simp only [Option.bind_eq_bind, Option.bind_some, Option.map_some, Option.getD_some]
    cases l.inputs[slot.index]? with
    | none => rfl
    | some source => rfl

theorem sources_eq_map_producer? (id : LayerId) :
    g.sources id = (List.range (g.sources id).length).map fun i => g.producer? ⟨id, i⟩ := by
  refine List.ext_getElem (by simp) fun i hi _ => ?_
  simp [producer?_eq_sources, List.getElem?_eq_getElem hi]

/-- The number of inputs of a layer that read a tensor of a layer not listed. -/
def waiting (g : Graph) (order : List LayerId) (id : LayerId) : Nat :=
  (g.sources id).countP fun source => source.any fun p => p.layer ∉ order

theorem feeds_iff_mem_sources {a b : LayerId} :
    g.Feeds a b ↔ ∃ p, some p ∈ g.sources b ∧ p.layer = a := by
  simp only [Feeds, producer?_eq_sources]
  constructor
  · rintro ⟨o, i, h⟩
    refine ⟨⟨a, o⟩, List.mem_of_getElem? (i := i) ?_, rfl⟩
    exact Option.join_eq_some_iff.mp h
  · rintro ⟨⟨_, o⟩, hp, rfl⟩
    obtain ⟨i, hi⟩ := List.mem_iff_getElem?.mp hp
    exact ⟨o, i, by rw [hi, Option.join_some]⟩

/-- A layer waits for nothing when its producers are listed. -/
theorem waiting_eq_zero_iff {id : LayerId} :
    g.waiting order id = 0 ↔ ∀ a, g.Feeds a id → a ∈ order := by
  simp only [waiting, List.countP_eq_zero, feeds_iff_mem_sources]
  constructor
  · rintro h a ⟨p, hp, rfl⟩
    simpa using h (some p) hp
  · rintro h (_ | p) hp
    · simp
    · simpa using h p.layer ⟨p, hp, rfl⟩

/-- Listing a layer ends the waits for it. -/
theorem waiting_append {id : LayerId} {a : LayerId} (ha : a ∉ order) :
    g.waiting order id = g.waiting (order ++ [a]) id +
      (g.sources id).countP fun source => source.any (·.layer == a) := by
  simp only [waiting]
  induction g.sources id with
  | nil => rfl
  | cons source rest ih =>
    rw [List.countP_cons, List.countP_cons, List.countP_cons, ih]
    cases source with
    | none => simp
    | some p =>
      by_cases hp : p.layer = a
      · subst hp
        simp [ha, Nat.add_assoc]
      · by_cases hlisted : p.layer ∈ order
        · simp [hp, hlisted]
        · simp [hp, hlisted, Nat.add_right_comm]

/-! ### Readers -/

/-- The input slots that read a tensor of a layer. -/
def readers (g : Graph) (id : LayerId) : List InputRef :=
  match g.layers[id]? with
  | some l => l.outputs.flatMap (·.consumers)
  | none => []

theorem successors_eq_map_readers (id : LayerId) :
    g.successors id = (g.readers id).map (·.layer) := by
  unfold successors readers
  cases g.layers[id]? with
  | none => rfl
  | some l => simp only [List.map_flatMap]

theorem consumers_getElem {l : Layer} {id : LayerId} {o : Nat} (hl : g.layers[id]? = some l)
    (ho : o < l.outputs.length) : g.consumers ⟨id, o⟩ = l.outputs[o].consumers := by
  simp [consumers, hl, List.getElem?_eq_getElem ho]

theorem Linked.mem_readers_iff (hg : g.Linked) {id : LayerId} {slot : InputRef} :
    slot ∈ g.readers id ↔ ∃ p, g.producer? slot = some p ∧ p.layer = id := by
  have hconsumers : slot ∈ g.readers id ↔ ∃ o, slot ∈ g.consumers ⟨id, o⟩ := by
    simp only [readers]
    constructor
    · intro h
      cases hl : g.layers[id]? with
      | none => simp [hl] at h
      | some l =>
        simp only [hl, List.mem_flatMap] at h
        obtain ⟨out, hout, hmem⟩ := h
        obtain ⟨o, ho⟩ := List.mem_iff_getElem?.mp hout
        exact ⟨o, mem_consumers_iff.mpr ⟨l, out, hl, ho, hmem⟩⟩
    · rintro ⟨o, h⟩
      obtain ⟨l, out, hl, ho, hmem⟩ := mem_consumers_iff.mp h
      simp only [hl, List.mem_flatMap]
      exact ⟨out, List.mem_of_getElem? ho, hmem⟩
  rw [hconsumers]
  constructor
  · rintro ⟨o, h⟩
    exact ⟨⟨id, o⟩, (hg.mirrored _ _).mpr h, rfl⟩
  · rintro ⟨⟨_, o⟩, h, rfl⟩
    exact ⟨o, (hg.mirrored _ _).mp h⟩

/-- No input slot reads twice. -/
theorem Linked.nodup_readers (hg : g.Linked) (id : LayerId) : (g.readers id).Nodup := by
  simp only [readers]
  split
  · next l hl =>
    rw [List.nodup_flatMap, List.pairwise_iff_getElem]
    constructor
    · intro out hout
      obtain ⟨o, ho, rfl⟩ := List.mem_iff_getElem.mp hout
      rw [← consumers_getElem hl ho]
      exact hg.once _
    · intro o o' ho ho' hlt slot hslot hslot'
      simp only [← consumers_getElem hl ho, ← hg.mirrored] at hslot
      simp only [← consumers_getElem hl ho', ← hg.mirrored, hslot] at hslot'
      cases hslot'
      exact Nat.lt_irrefl _ hlt
  · exact List.nodup_nil

/-- A layer is told once for each of its inputs that read the listed layer. -/
theorem Linked.count_successors (hg : g.Linked) (a b : LayerId) :
    (g.successors a).count b = (g.sources b).countP fun source => source.any (·.layer == a) := by
  -- Both sides count the input slots of `b` that read `a`.
  have hperm : ((g.readers a).filter (·.layer == b)).Perm
      (((List.range (g.sources b).length).filter
        fun i => (g.producer? ⟨b, i⟩).any (·.layer == a)).map (⟨b, ·⟩)) := by
    refine (List.perm_ext_iff_of_nodup ((hg.nodup_readers a).filter _) ?_).mpr fun slot => ?_
    · refine List.Nodup.map (fun i j h => by cases h; rfl) (List.nodup_range.filter _)
    · obtain ⟨layer, i⟩ := slot
      simp only [List.mem_filter, hg.mem_readers_iff, List.mem_map, List.mem_range, beq_iff_eq]
      constructor
      · rintro ⟨⟨p, hp, rfl⟩, rfl⟩
        refine ⟨i, ⟨?_, by simp [hp]⟩, rfl⟩
        rw [producer?_eq_sources, Option.join_eq_some_iff] at hp
        exact (List.getElem?_eq_some_iff.mp hp).1
      · rintro ⟨i, ⟨-, h⟩, heq⟩
        cases heq
        cases hp : g.producer? ⟨b, i⟩ with
        | none => simp [hp] at h
        | some p => exact ⟨⟨p, rfl, by simpa [hp] using h⟩, rfl⟩
  rw [successors_eq_map_readers, sources_eq_map_producer? b, List.count, List.countP_map,
    List.countP_map, List.countP_eq_length_filter, List.countP_eq_length_filter]
  have hlen := hperm.length_eq
  rw [List.length_map] at hlen
  exact hlen

/-! ### The ready layers -/

theorem mem_enqueue {id x : LayerId} {ready : List LayerId} :
    x ∈ Listing.enqueue id ready ↔ x = id ∨ x ∈ ready := by
  induction ready with
  | nil => simp [Listing.enqueue]
  | cons head rest ih =>
    unfold Listing.enqueue
    split
    · simp
    · rw [List.mem_cons, ih, List.mem_cons]
      tauto

theorem sorted_enqueue {id : LayerId} {ready : List LayerId} (hnot : id ∉ ready)
    (h : ready.Pairwise (· < ·)) : (Listing.enqueue id ready).Pairwise (· < ·) := by
  induction ready with
  | nil => exact List.pairwise_singleton _ _
  | cons head rest ih =>
    obtain ⟨hhead, hrest⟩ := List.pairwise_cons.mp h
    unfold Listing.enqueue
    split
    · next hlt =>
      refine List.pairwise_cons.mpr ⟨fun x hx => ?_, h⟩
      rcases List.mem_cons.mp hx with rfl | hx
      · exact hlt
      · exact Nat.lt_trans hlt (hhead x hx)
    · next hle =>
      rw [List.mem_cons, not_or] at hnot
      refine List.pairwise_cons.mpr ⟨fun x hx => ?_, ih hnot.2 hrest⟩
      rcases mem_enqueue.mp hx with rfl | hx
      · exact Nat.lt_of_le_of_ne (Nat.le_of_not_lt hle) (Ne.symm hnot.1)
      · exact hhead x hx

/-! ### One step of the listing -/

/-- The listing is right but for the readers in `left`, which are still to be told. -/
structure Listing.Agrees (g : Graph) (left : List LayerId) (s : Listing) : Prop where
  pending : ∀ id : LayerId, s.pending[id]? =
    if id < g.layers.length then some ((g.waiting s.order id + left.count id : Nat) : Int) else none
  mem_ready : ∀ id, id ∈ s.ready ↔
    id < g.layers.length ∧ id ∉ s.order ∧ g.waiting s.order id + left.count id = 0
  sorted : s.ready.Pairwise (· < ·)

variable {s : Listing} {left : List LayerId} {id : LayerId}

/-- Before the first step nothing is listed, and nobody is still to be told. -/
theorem agrees_initial (g : Graph) : (Listing.initial g).Agrees g [] := by
  have hpending (id : LayerId) : (Listing.initial g).pending[id]? =
      if id < g.layers.length then some (g.waiting [] id : Int) else none := by
    simp only [Listing.initial, List.getElem?_map, waiting, sources]
    cases hl : g.layers[id]? with
    | none => simp [Nat.not_lt.mpr (List.getElem?_eq_none_iff.mp hl)]
    | some l =>
      -- Nothing is listed, so a layer waits for each source that it has.
      have hwaits : (fun source : Option OutputRef => source.any fun p => p.layer ∉ []) =
          Option.isSome := by
        funext source
        cases source <;> simp
      simp only [hwaits, if_pos (List.getElem?_eq_some_iff.mp hl).1]
      rfl
  refine ⟨fun id => by simpa [Listing.initial] using hpending id, fun id => ?_, ?_⟩
  · show id ∈ (List.range g.layers.length).filter
      (fun id => (Listing.initial g).pending[id]? == some 0) ↔ _
    rw [List.mem_filter, List.mem_range, hpending]
    by_cases hid : id < g.layers.length
    · simp [hid, Listing.initial]
    · simp [hid]
  · exact List.pairwise_lt_range.filter _

/-- One reader is told. It is not listed yet, since its producer was not. -/
theorem Listing.Agrees.release (hs : s.Agrees g (id :: left)) (hid : id < g.layers.length)
    (hnot : id ∉ s.order) : (s.release id).Agrees g left := by
  have hnew : (s.pending.modify id (· - 1))[id]? =
      some ((g.waiting s.order id + left.count id : Nat) : Int) := by
    rw [List.getElem?_modify, hs.pending]
    simp [hid]
    lia
  have hnotready : id ∉ s.ready := by
    rw [hs.mem_ready]
    simp
  refine ⟨fun x => ?_, fun x => ?_, ?_⟩
  · -- Only the reader that is told waits for one source less.
    by_cases hx : x = id
    · subst hx
      rw [if_pos hid]
      exact hnew
    · simp only [Listing.release, List.getElem?_modify, if_neg (Ne.symm hx), hs.pending,
        List.count_cons_of_ne (Ne.symm hx)]
      split <;> rfl
  · have hdue : (some ((g.waiting s.order id + left.count id : Nat) : Int) == some 0) = true ↔
        g.waiting s.order id + left.count id = 0 := by
      rw [beq_iff_eq, Option.some.injEq, Int.natCast_eq_zero]
    simp only [Listing.release, hnew, hdue]
    by_cases hx : x = id
    · subst hx
      split
      · next hzero =>
        simp only [mem_enqueue, hid, hnot, hzero, true_or, not_false_eq_true, and_self]
      · next hzero => simp only [hnotready, hid, hnot, hzero, and_false]
    · have hold := hs.mem_ready x
      rw [List.count_cons_of_ne (Ne.symm hx)] at hold
      split
      · rw [mem_enqueue, hold]
        simp [hx]
      · exact hold
  · simp only [Listing.release]
    split
    · exact sorted_enqueue hnotready hs.sorted
    · exact hs.sorted

@[simp] theorem order_release (s : Listing) (id : LayerId) : (s.release id).order = s.order := rfl

@[simp] theorem order_foldl_release (s : Listing) (left : List LayerId) :
    (left.foldl Listing.release s).order = s.order := by
  induction left generalizing s with
  | nil => rfl
  | cons id left ih => rw [List.foldl_cons, ih, order_release]

/-- Readers are told one after the other, and those behind them are still to be told. -/
theorem Listing.Agrees.foldl_release {told : List LayerId} (hs : s.Agrees g (told ++ left))
    (htold : ∀ id ∈ told, id < g.layers.length ∧ id ∉ s.order) :
    (told.foldl Listing.release s).Agrees g left := by
  induction told generalizing s with
  | nil => exact hs
  | cons id told ih =>
    obtain ⟨hid, hnot⟩ := htold id List.mem_cons_self
    exact ih (hs.release hid hnot) fun x hx => htold x (List.mem_cons_of_mem id hx)

/-- A reader that is still to be told waits. -/
theorem Listing.Agrees.pending_head (hs : s.Agrees g (id :: left)) (hid : id < g.layers.length) :
    ∃ count : Nat, s.pending[id]? = some (count + 1 : Int) := by
  refine ⟨g.waiting s.order id + left.count id, ?_⟩
  rw [hs.pending, if_pos hid, List.count_cons_self]
  rfl

/-- The listing with a ready layer listed, before any reader of it is told. -/
def Listing.place (s : Listing) (id : LayerId) (rest : List LayerId) : Listing :=
  { s with ready := rest, order := s.order ++ [id] }

theorem step_of_ready {rest : List LayerId} (hready : s.ready = id :: rest) :
    s.step g = (g.successors id).foldl Listing.release (s.place id rest) := by
  unfold Listing.step
  simp only [hready]
  rfl

theorem step_of_not_ready (hready : s.ready = []) : s.step g = s := by
  unfold Listing.step
  simp only [hready]

/-! ### What is listed -/

/-- The layer is the first whose producers are all among the given ones. -/
structure Placed (g : Graph) (before : List LayerId) (id : LayerId) : Prop where
  producers : ∀ a, g.Feeds a id → a ∈ before
  lowest : ∀ other, other < g.layers.length → other ∉ before →
    (∀ a, g.Feeds a other → a ∈ before) → id ≤ other

/-- Layers of the graph, each listed once and at its place. -/
structure Listed (g : Graph) (order : List LayerId) : Prop where
  lt : ∀ id ∈ order, id < g.layers.length
  nodup : order.Nodup
  placed : ∀ before id after, order = before ++ id :: after → g.Placed before id

theorem listed_nil (g : Graph) : g.Listed [] where
  lt := by simp
  nodup := List.nodup_nil
  placed := by simp

theorem Listed.append (h : g.Listed order) (hid : id < g.layers.length) (hnot : id ∉ order)
    (hplaced : g.Placed order id) : g.Listed (order ++ [id]) where
  lt := by
    intro x hx
    rcases List.mem_append.mp hx with hx | hx
    · exact h.lt x hx
    · exact List.mem_singleton.mp hx ▸ hid
  nodup := h.nodup.append (List.nodup_singleton id) (by simpa using hnot)
  placed := by
    intro before x after heq
    rcases List.eq_nil_or_concat after with rfl | ⟨after, last, rfl⟩
    · obtain ⟨rfl, hx⟩ := List.append_inj' heq rfl
      cases hx
      exact hplaced
    · have heq' : order ++ [id] = (before ++ x :: after) ++ [last] := by simpa using heq
      obtain ⟨rfl, -⟩ := List.append_inj' heq' rfl
      exact h.placed before x after rfl

/-- A producer of a listed layer is listed. -/
theorem Listed.mem_of_feeds (h : g.Listed order) {a b : LayerId} (hb : b ∈ order)
    (hab : g.Feeds a b) : a ∈ order := by
  obtain ⟨before, after, rfl⟩ := List.append_of_mem hb
  exact List.mem_append_left _ ((h.placed before b after rfl).producers a hab)

/-- The lowest ready layer comes next, and its readers come later. -/
theorem Linked.place_ready (hg : g.Linked) (hs : s.Agrees g []) (hl : g.Listed s.order)
    {rest : List LayerId} (hready : s.ready = id :: rest) :
    (s.place id rest).Agrees g (g.successors id) ∧ g.Listed (s.order ++ [id]) ∧
      ∀ x ∈ g.successors id, x < g.layers.length ∧ x ∉ s.order ++ [id] := by
  obtain ⟨hid, hnot, hzero⟩ := (hs.mem_ready id).mp (by simp [hready])
  have hsorted := hs.sorted
  rw [hready, List.pairwise_cons] at hsorted
  have hmem (x : LayerId) : x ∈ rest ↔ x ≠ id ∧ x ∈ s.ready := by
    rw [hready, List.mem_cons]
    constructor
    · intro hx
      exact ⟨Nat.ne_of_gt (hsorted.1 x hx), .inr hx⟩
    · rintro ⟨hne, rfl | hx⟩
      · exact absurd rfl hne
      · exact hx
  have hplaced : g.Placed s.order id := by
    refine ⟨waiting_eq_zero_iff.mp hzero, fun x hx hxnot hproducers => ?_⟩
    have hxready := (hs.mem_ready x).mpr ⟨hx, hxnot, waiting_eq_zero_iff.mpr hproducers⟩
    rw [hready] at hxready
    rcases List.mem_cons.mp hxready with rfl | hx
    · exact Nat.le_refl x
    · exact Nat.le_of_lt (hsorted.1 x hx)
  refine ⟨⟨fun x => ?_, fun x => ?_, hsorted.2⟩, hl.append hid hnot hplaced, fun x hx => ?_⟩
  · rw [Listing.place, hg.count_successors, ← waiting_append hnot]
    exact hs.pending x
  · rw [Listing.place, hg.count_successors, ← waiting_append hnot]
    rw [hmem, hs.mem_ready]
    simp only [List.mem_append, List.mem_singleton, List.count_nil, Nat.add_zero]
    tauto
  · have hfeeds : g.Feeds id x := hg.precedes_iff.mp hx
    refine ⟨hfeeds.lt_right, fun hxlisted => ?_⟩
    -- A listed reader would have had its producer listed.
    rcases List.mem_append.mp hxlisted with hx | hx
    · exact hnot (hl.mem_of_feeds hx hfeeds)
    · rw [List.mem_singleton.mp hx] at hfeeds
      exact hg.acyclic id (.single hfeeds)

/-- A step lists the lowest of the layers that could come next. -/
theorem Linked.listing_step (hg : g.Linked) (hs : s.Agrees g []) (hl : g.Listed s.order) :
    (s.step g).Agrees g [] ∧ g.Listed (s.step g).order := by
  cases hready : s.ready with
  | nil =>
    rw [step_of_not_ready hready]
    exact ⟨hs, hl⟩
  | cons id rest =>
    obtain ⟨hagrees, hlisted, hreaders⟩ := hg.place_ready hs hl hready
    rw [step_of_ready hready]
    rw [← List.append_nil (g.successors id)] at hagrees
    refine ⟨hagrees.foldl_release hreaders, ?_⟩
    rw [order_foldl_release]
    exact hlisted

/-! ### The whole order -/

/-- While a layer is not listed some layer is ready, for connections form no cycle. -/
theorem Linked.mem_order_of_not_ready (hg : g.Linked) (hs : s.Agrees g [])
    (hready : s.ready = []) (hid : id < g.layers.length) : id ∈ s.order := by
  let r : Fin g.layers.length → Fin g.layers.length → Prop :=
    fun a b => Relation.TransGen g.Feeds a.val b.val
  have htrans : IsTrans _ r := ⟨fun _ _ _ => Relation.TransGen.trans⟩
  have hirrefl : Std.Irrefl r := ⟨fun a => hg.acyclic a.val⟩
  have hwf : WellFounded r := Finite.wellFounded_of_trans_of_irrefl r
  suffices h : ∀ x : Fin g.layers.length, x.val ∈ s.order from h ⟨id, hid⟩
  intro x
  induction x using hwf.induction with
  | _ x ih =>
    by_contra hnot
    have hx : x.val ∈ s.ready := by
      refine (hs.mem_ready x.val).mpr ⟨x.isLt, hnot, waiting_eq_zero_iff.mpr fun a ha => ?_⟩
      exact ih ⟨a, hg.lt_of_feeds ha⟩ (.single ha)
    rw [hready] at hx
    cases hx

/-- A step lists a layer when one is ready. -/
theorem length_step (hready : s.ready ≠ []) : (s.step g).order.length = s.order.length + 1 := by
  cases h : s.ready with
  | nil => exact absurd h hready
  | cons id rest =>
    rw [step_of_ready h, order_foldl_release, Listing.place, List.length_append,
      List.length_singleton]

/-- After some steps the listing is right, and has as many layers unless none is ready. -/
theorem Linked.listing_run (hg : g.Linked) (steps : Nat) {s : Listing}
    (h : Nat.repeat (Listing.step g) steps (Listing.initial g) = s) :
    s.Agrees g [] ∧ g.Listed s.order ∧ (s.order.length = steps ∨ s.ready = []) := by
  induction steps generalizing s with
  | zero =>
    subst h
    exact ⟨agrees_initial g, listed_nil g, .inl rfl⟩
  | succ steps ih =>
    subst h
    obtain ⟨hagrees, hlisted, hlen⟩ := ih rfl
    obtain ⟨hagrees', hlisted'⟩ := hg.listing_step hagrees hlisted
    refine ⟨hagrees', hlisted', ?_⟩
    rw [Nat.repeat]
    by_cases hready : (Nat.repeat (Listing.step g) steps (Listing.initial g)).ready = []
    · rw [step_of_not_ready hready]
      exact .inr hready
    · rw [length_step hready]
      exact .inl (congrArg (· + 1) (hlen.resolve_right hready))

theorem Linked.listed_topologicalOrder (hg : g.Linked) : g.Listed g.topologicalOrder :=
  (hg.listing_run _ rfl).2.1

/-- Every layer is listed once. -/
theorem Linked.topologicalOrder_perm (hg : g.Linked) :
    g.topologicalOrder.Perm (List.range g.layers.length) := by
  obtain ⟨hagrees, hlisted, hlen⟩ := hg.listing_run g.layers.length rfl
  have hsub : g.topologicalOrder ⊆ List.range g.layers.length :=
    fun x hx => List.mem_range.mpr (hlisted.lt x hx)
  have hsubperm := hlisted.nodup.subperm hsub
  rcases hlen with hlen | hready
  · exact hsubperm.perm_of_length_le (by simp [hlen])
  · refine (List.perm_ext_iff_of_nodup hlisted.nodup List.nodup_range).mpr fun x => ⟨@hsub x, ?_⟩
    intro hx
    exact hg.mem_order_of_not_ready hagrees hready (List.mem_range.mp hx)

theorem Linked.mem_topologicalOrder_iff (hg : g.Linked) :
    id ∈ g.topologicalOrder ↔ id < g.layers.length := by
  rw [hg.topologicalOrder_perm.mem_iff, List.mem_range]

/-- The layers come with their positions in that order. -/
theorem Linked.map_fst_orderedLayers (hg : g.Linked) :
    g.orderedLayers.map Prod.fst = g.topologicalOrder := by
  have hlt : ∀ id ∈ g.topologicalOrder, id < g.layers.length := fun id hid =>
    hg.mem_topologicalOrder_iff.mp hid
  unfold orderedLayers
  generalize g.topologicalOrder = order at hlt
  induction order with
  | nil => rfl
  | cons id order ih =>
    obtain ⟨hid, horder⟩ := List.forall_mem_cons.mp hlt
    rw [List.filterMap_cons_some (by rw [List.getElem?_eq_getElem hid]; rfl), List.map_cons,
      ih horder]

theorem getElem?_of_mem_orderedLayers {l : Layer} (h : (id, l) ∈ g.orderedLayers) :
    g.layers[id]? = some l := by
  obtain ⟨a, -, heq⟩ := List.mem_filterMap.mp h
  obtain ⟨l', hl', hpair⟩ := Option.map_eq_some_iff.mp heq
  obtain ⟨rfl, rfl⟩ := Prod.mk.inj hpair
  exact hl'

/-- A layer comes once, and after all layers that it or a layer before it reads. -/
theorem Linked.place_of_orderedLayers (hg : g.Linked) {l : Layer}
    {done after : List (LayerId × Layer)} (h : g.orderedLayers = done ++ (id, l) :: after) :
    g.layers[id]? = some l ∧ id ∉ done.map Prod.fst ∧
      ∀ a b, g.Feeds a b → b ∈ done.map Prod.fst ++ [id] → a ∈ done.map Prod.fst := by
  have horder : g.topologicalOrder = done.map Prod.fst ++ id :: after.map Prod.fst := by
    rw [← hg.map_fst_orderedLayers, h, List.map_append, List.map_cons]
  have hlisted := hg.listed_topologicalOrder
  refine ⟨getElem?_of_mem_orderedLayers (by rw [h]; simp), ?_, ?_⟩
  · have hnodup := hlisted.nodup
    rw [horder] at hnodup
    intro hmem
    exact List.disjoint_of_nodup_append hnodup hmem List.mem_cons_self
  · intro a b hfeeds hb
    rcases List.mem_append.mp hb with hmem | hmem
    · -- The layer comes before, and its producers before it.
      obtain ⟨before, rest, hsplit⟩ := List.append_of_mem hmem
      have hplaced := hlisted.placed before b (rest ++ id :: after.map Prod.fst)
        (by rw [horder, hsplit, List.append_assoc, List.cons_append])
      rw [hsplit]
      exact List.mem_append_left _ (hplaced.producers a hfeeds)
    · obtain rfl := List.mem_singleton.mp hmem
      exact (hlisted.placed _ b _ horder).producers a hfeeds

theorem Linked.length_topologicalOrder (hg : g.Linked) :
    g.topologicalOrder.length = g.layers.length := by
  rw [hg.topologicalOrder_perm.length_eq, List.length_range]

/-- When every layer is listed none is ready. -/
theorem Linked.ready_eq_nil (hg : g.Linked) :
    (Nat.repeat (Listing.step g) g.layers.length (Listing.initial g)).ready = [] := by
  obtain ⟨hagrees, -, -⟩ := hg.listing_run g.layers.length rfl
  refine List.eq_nil_iff_forall_not_mem.mpr fun id hid => ?_
  obtain ⟨hlt, hnot, -⟩ := (hagrees.mem_ready id).mp hid
  exact hnot (hg.mem_topologicalOrder_iff.mpr hlt)

/-- The order has every layer once, and at each place the first layer whose producers are all
    listed before. The listing ends because none is ready any more. Whenever a step ends the wait
    of an input, the number of waits that it is taken from is positive. -/
theorem Coherent.topologicalOrder_spec (hg : g.Coherent) :
    g.topologicalOrder.Perm (List.range g.layers.length) ∧
      (∀ before id after, g.topologicalOrder = before ++ id :: after → g.Placed before id) ∧
      (Nat.repeat (Listing.step g) g.layers.length (Listing.initial g)).ready = [] ∧
      ∀ steps id rest told reader left,
        (Nat.repeat (Listing.step g) steps (Listing.initial g)).ready = id :: rest →
        g.successors id = told ++ reader :: left →
        ∃ count : Nat,
          (told.foldl Listing.release ((Nat.repeat (Listing.step g) steps
            (Listing.initial g)).place id rest)).pending[reader]? = some (count + 1 : Int) := by
  refine ⟨hg.linked.topologicalOrder_perm, hg.linked.listed_topologicalOrder.placed,
    hg.linked.ready_eq_nil, ?_⟩
  intro steps id rest told reader left hready hsuccessors
  obtain ⟨hagrees, hlisted, -⟩ := hg.linked.listing_run steps rfl
  obtain ⟨hplaced, -, hreaders⟩ := hg.linked.place_ready hagrees hlisted hready
  rw [hsuccessors] at hplaced hreaders
  have htold := hplaced.foldl_release fun x hx => hreaders x (List.mem_append_left _ hx)
  exact htold.pending_head (hreaders reader (by simp)).1

/-- A graph that is not complete: the sum reads an input twice, and nothing reads the other. -/
def doubled : Graph :=
  ((Session.start .initial).run [.addLayer .addition "sum", .addLayer (.input 0) "x",
    .addLayer (.input 1) "y", .connect ⟨1, 0⟩ ⟨0, 0⟩, .connect ⟨1, 0⟩ ⟨0, 1⟩]).graph

theorem topologicalOrder_spec_doubled :
    doubled.Coherent ∧ doubled.topologicalOrder.Perm [0, 1, 2] ∧
      ∃ count : Nat,
        ([0].foldl Listing.release ((Listing.initial doubled).place 1 [2])).pending[0]? =
          some (count + 1 : Int) := by
  have hcoherent : doubled.Coherent := ((Session.sound_start .initial).run _).coherent
  obtain ⟨hperm, -, -, hcounts⟩ := hcoherent.topologicalOrder_spec
  exact ⟨hcoherent, hperm, hcounts 0 1 [2] [0] 0 [] (by decide +kernel) (by decide +kernel)⟩

/-! ### One order only -/

theorem Listed.dropLast {before : List LayerId} (h : g.Listed (before ++ [id])) :
    g.Listed before ∧ g.Placed before id ∧ id ∉ before ∧ id < g.layers.length := by
  refine ⟨⟨?_, h.nodup.of_append_left, ?_⟩, h.placed before id [] rfl, ?_, ?_⟩
  · exact fun x hx => h.lt x (List.mem_append_left _ hx)
  · rintro start x after rfl
    exact h.placed start x (after ++ [id]) (by simp)
  · intro hid
    exact List.disjoint_of_nodup_append h.nodup hid List.mem_cons_self
  · exact h.lt id (by simp)

/-- Two listings of as many layers are the same, since every place leaves no choice. -/
theorem Listed.eq_of_length {order' : List LayerId} (h : g.Listed order) (h' : g.Listed order')
    (hlen : order.length = order'.length) : order = order' := by
  induction order using List.reverseRecOn generalizing order' with
  | nil => exact (List.length_eq_zero_iff.mp hlen.symm).symm
  | append_singleton before a ih =>
    rcases List.eq_nil_or_concat order' with rfl | ⟨before', b, rfl⟩
    · simp at hlen
    · simp only [List.concat_eq_append, List.length_append, List.length_singleton,
        Nat.add_right_cancel_iff] at hlen h' ⊢
      obtain ⟨hbefore, hplaced, hnot, hlt⟩ := h.dropLast
      obtain ⟨hbefore', hplaced', hnot', hlt'⟩ := h'.dropLast
      obtain rfl := ih hbefore hbefore' hlen
      have hle := hplaced.lowest b hlt' hnot' hplaced'.producers
      have hge := hplaced'.lowest a hlt hnot hplaced.producers
      rw [Nat.le_antisymm hle hge]

/-- A listing of all layers is the topological order. -/
theorem Linked.topologicalOrder_eq (hg : g.Linked) (h : g.Listed order)
    (hlen : order.length = g.layers.length) : g.topologicalOrder = order :=
  hg.listed_topologicalOrder.eq_of_length h (hg.length_topologicalOrder.trans hlen.symm)

/-- Connections lead from earlier layers to later ones. -/
def Forward (g : Graph) : Prop := ∀ a b, g.Feeds a b → a < b

/-- Only the layers matter for this. -/
theorem Forward.of_layers {g' : Graph} (h : g.Forward) (hlayers : g'.layers = g.layers) :
    g'.Forward := by
  rintro a b ⟨o, i, hab⟩
  apply h a b
  refine ⟨o, i, ?_⟩
  rwa [producer?, hlayers] at hab

/-- Layers that were added producers first are listed in the order they were added. -/
theorem Linked.topologicalOrder_of_forward (hg : g.Linked) (hforward : g.Forward) :
    g.topologicalOrder = List.range g.layers.length := by
  refine hg.topologicalOrder_eq ⟨by simp, List.nodup_range, ?_⟩ List.length_range
  intro before id after heq
  -- What stands before `id` is what is lower.
  have hid : before.length = id := by
    have h := congrArg (·[before.length]?) heq
    simp only [List.getElem?_append_right (Nat.le_refl _), Nat.sub_self, List.getElem?_cons_zero,
      List.getElem?_eq_some_iff, List.getElem_range] at h
    exact h.2
  have hbefore : before = List.range id := by
    have h := congrArg (List.take id) heq
    rw [List.take_range, List.take_left' hid] at h
    have hlen := congrArg List.length heq
    simp only [List.length_range, List.length_append, List.length_cons] at hlen
    rw [← h, Nat.min_eq_left (by lia)]
  subst hbefore
  refine ⟨fun a ha => List.mem_range.mpr (hforward a id ha), fun other _ hnot _ => ?_⟩
  exact Nat.le_of_not_lt fun h => hnot (List.mem_range.mpr h)

end Graph

end LayerGraph
