import LayerGraph.Proofs.Graph.Isomorphism
import LayerGraph.Proofs.Lowering.Producers

/-! # What the layers of a lowering were made for

  Where a layer is depends on the order of the operators, and a constant is made by the first
  operator that reads it. What the layers were made for does not depend on the order: they are
  those that were there at the start, the layers in the plans of the operators, and one constant
  for every tensor that is read and has no other producer (`Present`). The same is true of what
  produces a tensor (`Provides`).

  A layout lists what the layers of a lowering were made for, position by position, and says what
  each of them reads. It is extended by every operator (`Layout.lower`), so every run has one
  (`laidOut_of_start`).
-/

namespace LayerGraph

/-- The last layer of a plan, behind its reshapes and the layers in front of it. -/
theorem Plan.last_lt (plan : Plan) :
    plan.reshapes.length + plan.tail.length < plan.layers.length := by
  rw [Plan.layers, List.length_append, List.length_map, List.length_cons]
  omega

namespace Lowering

open LayerGraph.Graph

/-- What a layer was made for. A call is an operator, with a number that tells it from other calls
    of the same operator. -/
inductive Origin where
  /-- A layer that was there at the start. -/
  | start (id : LayerId)
  /-- The constant of a tensor. -/
  | constant (tensor : Nat)
  /-- The layer at a position in the plan of a call. -/
  | planned (call : Nat × Nat) (place : Nat)
deriving DecidableEq

/-! ### Positions in lists -/

/-- An item of two lists behind each other is in one of them. -/
theorem getElem?_append_eq_some_iff {α : Type} {xs ys : List α} {i : Nat} {a : α} :
    (xs ++ ys)[i]? = some a ↔ xs[i]? = some a ∨ ∃ j, i = xs.length + j ∧ ys[j]? = some a := by
  by_cases hi : i < xs.length
  · rw [List.getElem?_append_left hi]
    refine ⟨.inl, ?_⟩
    rintro (h | ⟨j, rfl, -⟩)
    · exact h
    · exact absurd hi (Nat.not_lt.mpr (Nat.le_add_right _ _))
  · rw [List.getElem?_append_right (Nat.not_lt.mp hi),
      List.getElem?_eq_none (Nat.not_lt.mp hi)]
    constructor
    · intro h
      exact .inr ⟨i - xs.length, (Nat.add_sub_cancel' (Nat.not_lt.mp hi)).symm, h⟩
    · rintro (h | ⟨j, rfl, h⟩)
      · cases h
      · rwa [Nat.add_sub_cancel_left]

theorem getElem?_map_range_iff {α : Type} {f : Nat → α} {n i : Nat} {a : α} :
    ((List.range n).map f)[i]? = some a ↔ i < n ∧ a = f i := by
  rw [List.getElem?_map, Option.map_eq_some_iff]
  constructor
  · rintro ⟨j, hj, rfl⟩
    obtain ⟨hlt, rfl⟩ := List.getElem?_eq_some_iff.mp hj
    rw [List.getElem_range]
    rw [List.length_range] at hlt
    exact ⟨hlt, rfl⟩
  · rintro ⟨hlt, rfl⟩
    exact ⟨i, List.getElem?_range hlt, rfl⟩

section layouts

variable {base t t' : Lowering} {calls : List (Nat × Nat)} {call : Nat × Nat}
variable {origins : List Origin} {o : Origin} {plan : Plan} {index k : Nat}
variable {sources : List (Nat × OutputRef)}
variable {constants : List PendingConstant} {op : Operation} {step : Step} {p : OutputRef}
variable {supply supply' : GuidSupply} {model : Model} {standIn : Bool}

/-! ### What the calls have in common -/

/-- The operator reads the tensor. -/
def Reads (base : Lowering) (index k : Nat) : Prop :=
  ∃ plan, Plan.ofOperator base.model index base.standIn = .ok plan ∧ k ∈ plan.consumed

/-- The operator writes the tensor. -/
def Writes (base : Lowering) (index k : Nat) : Prop :=
  ∃ plan, Plan.ofOperator base.model index base.standIn = .ok plan ∧ k ∈ plan.outputs

theorem reads_iff (h : Plan.ofOperator base.model index base.standIn = .ok plan) :
    base.Reads index k ↔ k ∈ plan.consumed := by
  rw [Reads, h]
  exact ⟨fun ⟨_, heq, hk⟩ => Except.ok.inj heq ▸ hk, fun hk => ⟨plan, rfl, hk⟩⟩

theorem writes_iff (h : Plan.ofOperator base.model index base.standIn = .ok plan) :
    base.Writes index k ↔ k ∈ plan.outputs := by
  rw [Writes, h]
  exact ⟨fun ⟨_, heq, hk⟩ => Except.ok.inj heq ▸ hk, fun hk => ⟨plan, rfl, hk⟩⟩

theorem exists_reads_concat :
    (∃ call' ∈ calls ++ [call], base.Reads call'.1 k) ↔
      (∃ call' ∈ calls, base.Reads call'.1 k) ∨ base.Reads call.1 k := by
  simp only [List.mem_append, List.mem_singleton, or_and_right, exists_or, exists_eq_left]

/-- Layers of this origin are there after the calls. -/
def Present (base : Lowering) (calls : List (Nat × Nat)) : Origin → Prop
  | .start id => id < base.graph.layers.length
  | .constant k => base.producer? k = none ∧ (∃ call ∈ calls, base.Reads call.1 k) ∧
      -- An operator may write the constant that it reads, and no other one.
      ∀ call ∈ calls, base.Writes call.1 k → base.Reads call.1 k
  | .planned call place => call ∈ calls ∧ ∃ plan,
      Plan.ofOperator base.model call.1 base.standIn = .ok plan ∧ place < plan.layers.length

/-- The output slot with this index, of a layer of this origin, produces the tensor after the
    calls. -/
def Provides (base : Lowering) (calls : List (Nat × Nat)) (k : Nat) : Origin → Nat → Prop
  | .start id, index => base.producer? k = some ⟨id, index⟩
  | .constant k', index => k' = k ∧ index = 0 ∧ base.producer? k = none ∧
      (∃ call ∈ calls, base.Reads call.1 k) ∧ ∀ call ∈ calls, ¬ base.Writes call.1 k
  | .planned call place, index => call ∈ calls ∧ ∃ plan,
      Plan.ofOperator base.model call.1 base.standIn = .ok plan ∧
      place = plan.reshapes.length + plan.tail.length ∧ plan.outputs[index]? = some k

/-- A tensor is produced when it was at the start, or when an operator reads or writes it. -/
theorem exists_provides_iff : (∃ o index, base.Provides calls k o index) ↔
    (∃ p, base.producer? k = some p) ∨
      ∃ call ∈ calls, base.Reads call.1 k ∨ base.Writes call.1 k := by
  constructor
  · rintro ⟨id | k' | ⟨call, place⟩, index, hprovides⟩
    · exact .inl ⟨_, hprovides⟩
    · obtain ⟨-, -, -, ⟨call, hcall, hread⟩, -⟩ := hprovides
      exact .inr ⟨call, hcall, .inl hread⟩
    · obtain ⟨hcall, plan, hplan, -, hk⟩ := hprovides
      exact .inr ⟨call, hcall, .inr ⟨plan, hplan, List.mem_of_getElem? hk⟩⟩
  · intro h
    -- A producer from the start comes first, then a call that writes the tensor, then one that
    -- reads it.
    by_cases hstart : ∃ p, base.producer? k = some p
    · obtain ⟨p, hp⟩ := hstart
      exact ⟨.start p.layer, p.index, hp⟩
    by_cases hwritten : ∃ call ∈ calls, base.Writes call.1 k
    · obtain ⟨call, hcall, plan, hplan, hk⟩ := hwritten
      obtain ⟨index, hindex⟩ := List.mem_iff_getElem?.mp hk
      exact ⟨.planned call _, index, hcall, plan, hplan, rfl, hindex⟩
    · have hnone : base.producer? k = none :=
        Option.eq_none_iff_forall_ne_some.mpr fun p hp => hstart ⟨p, hp⟩
      have hunwritten : ∀ call ∈ calls, ¬ base.Writes call.1 k :=
        fun call hcall hwrites => hwritten ⟨call, hcall, hwrites⟩
      rcases h with hproduced | ⟨call, hcall, hread | hwrites⟩
      · exact absurd hproduced hstart
      · exact ⟨.constant k, 0, rfl, rfl, hnone, ⟨call, hcall, hread⟩, hunwritten⟩
      · exact absurd hwrites (hunwritten call hcall)

/-- A call that does not write the tensor changes nothing. -/
theorem Provides.concat (h : base.Provides calls k o index) (hk : ¬ base.Writes call.1 k) :
    base.Provides (calls ++ [call]) k o index := by
  cases o with
  | start id => exact h
  | planned call' place => exact ⟨List.mem_append_left _ h.1, h.2⟩
  | constant k' =>
    obtain ⟨hk', hindex, hnone, hread, hwritten⟩ := h
    refine ⟨hk', hindex, hnone, exists_reads_concat.mpr (.inl hread), ?_⟩
    rw [List.forall_mem_append, List.forall_mem_singleton]
    exact ⟨hwritten, hk⟩

/-- What produces a tensor is there. -/
theorem Provides.present (h : base.Provides calls k o index)
    (hstart : ∀ k p, base.producer? k = some p → p.layer < base.graph.layers.length) :
    base.Present calls o := by
  cases o with
  | start id => exact hstart k _ h
  | constant k' =>
    obtain ⟨rfl, -, hnone, hread, hwritten⟩ := h
    exact ⟨hnone, hread, fun call hcall hwrites => absurd hwrites (hwritten call hcall)⟩
  | planned call place =>
    obtain ⟨hcall, plan, hplan, rfl, -⟩ := h
    exact ⟨hcall, plan, hplan, plan.last_lt⟩

/-! ### Layouts -/

/-- The layers of a plan stand one behind the other from the position `first` on, and read the known
    slots. What is known of a tensor is the slot that produces it, or the constant that was made
    for it if the plan writes the tensor itself. -/
structure Placed (t : Lowering) (origins : List Origin) (call : Nat × Nat) (plan : Plan)
    (first : LayerId) (known : List (Nat × OutputRef)) : Prop where
  origin : ∀ place < plan.layers.length, origins[first + place]? = some (.planned call place)
  content? : ∀ place d, (planDrafts plan known first)[place]? = some d →
    t.graph.content? (first + place) = some d.content
  known : ∀ k ∈ plan.consumed, ∃ p, known.lookup k = some p ∧
    (k ∉ plan.outputs → t.producer? k = some p) ∧
    (k ∈ plan.outputs → origins[p.layer]? = some (.constant k) ∧ p.index = 0)

/-- What the layers of `t` were made for, when `t` comes from `base` by the calls. -/
structure Layout (base t : Lowering) (calls : List (Nat × Nat)) (origins : List Origin) :
    Prop where
  length : origins.length = t.graph.layers.length
  nodup : origins.Nodup
  mem_iff : ∀ o, o ∈ origins ↔ base.Present calls o
  /-- What produces a tensor has the right origin. -/
  producer?_iff : ∀ k p, t.producer? k = some p ↔
    ∃ o, origins[p.layer]? = some o ∧ base.Provides calls k o p.index
  produced_lt : ∀ k p, base.producer? k = some p → p.layer < base.graph.layers.length
  start : ∀ id < base.graph.layers.length,
    origins[id]? = some (.start id) ∧ t.graph.content? id = base.graph.content? id
  constant : ∀ id k, origins[id]? = some (.constant k) →
    ∃ operator c, pendingConstant base.model operator k = .ok c ∧
      t.graph.content? id = some c.draft.content
  planned : ∀ call ∈ calls, ∃ plan first known,
    Plan.ofOperator base.model call.1 base.standIn = .ok plan ∧
      Placed t origins call plan first known
  boundary : ∀ direction, t.graph.boundary direction = base.graph.boundary direction

/-- Before the first call, the layers are those of the start. -/
theorem layout_self (h : Valid model standIn base supply) :
    Layout base base [] ((List.range base.graph.layers.length).map .start) where
  length := by rw [List.length_map, List.length_range]
  nodup := List.nodup_range.map fun _ _ heq => Origin.start.inj heq
  mem_iff := by
    intro o
    rw [List.mem_map]
    cases o with
    | start id => simp [Present]
    | constant k => simp [Present]
    | planned call place => simp [Present]
  producer?_iff := by
    intro k p
    simp only [getElem?_map_range_iff]
    constructor
    · intro hp
      exact ⟨.start p.layer, ⟨h.lt_of_produced (mem_of_lookup_eq_some hp), rfl⟩, hp⟩
    · rintro ⟨_, ⟨-, rfl⟩, hprovides⟩
      exact hprovides
  produced_lt := fun _ _ hp => h.lt_of_produced (mem_of_lookup_eq_some hp)
  start := fun _ hid => ⟨getElem?_map_range_iff.mpr ⟨hid, rfl⟩, rfl⟩
  constant := by
    intro id k ho
    obtain ⟨-, heq⟩ := getElem?_map_range_iff.mp ho
    cases heq
  planned := List.forall_mem_nil _
  boundary := fun _ => rfl

/-- A tensor is produced when it was at the start, or when a call reads or writes it. -/
theorem Layout.exists_producer?_iff (h : Layout base t calls origins) :
    (∃ p, t.producer? k = some p) ↔ (∃ p, base.producer? k = some p) ∨
      ∃ call ∈ calls, base.Reads call.1 k ∨ base.Writes call.1 k := by
  rw [← exists_provides_iff]
  constructor
  · rintro ⟨p, hp⟩
    obtain ⟨o, -, hprovides⟩ := (h.producer?_iff k p).mp hp
    exact ⟨o, p.index, hprovides⟩
  · rintro ⟨o, index, hprovides⟩
    have hmem := (h.mem_iff o).mpr (hprovides.present h.produced_lt)
    obtain ⟨id, hid⟩ := List.mem_iff_getElem?.mp hmem
    exact ⟨⟨id, index⟩, (h.producer?_iff k _).mpr ⟨o, hid, hprovides⟩⟩

theorem Layout.producer?_eq_none_iff (h : Layout base t calls origins) :
    t.producer? k = none ↔ base.producer? k = none ∧
      ∀ call ∈ calls, ¬ base.Reads call.1 k ∧ ¬ base.Writes call.1 k := by
  have hiff := not_congr (h.exists_producer?_iff (k := k))
  simpa [Option.eq_none_iff_forall_ne_some, not_or] using hiff

/-! ### The layers of a call -/

/-- What the layers of a call are made for. -/
def stepOrigins (call : Nat × Nat) (plan : Plan) (constants : List PendingConstant) :
    List Origin :=
  (constants.map (·.tensor)).map .constant ++ (List.range plan.layers.length).map (.planned call)

theorem getElem?_stepOrigins_iff {id : LayerId} :
    (origins ++ stepOrigins call plan constants)[id]? = some o ↔ origins[id]? = some o ∨
      (∃ place c, constants[place]? = some c ∧ id = origins.length + place ∧
        o = .constant c.tensor) ∨
      ∃ place < plan.layers.length, id = origins.length + constants.length + place ∧
        o = .planned call place := by
  have hconstant (place : Nat) :
      ((constants.map (·.tensor)).map Origin.constant)[place]? = some o ↔
        ∃ c, constants[place]? = some c ∧ o = .constant c.tensor := by
    rw [List.map_map, List.getElem?_map, Option.map_eq_some_iff]
    exact exists_congr fun c => and_congr_right fun _ => eq_comm
  rw [getElem?_append_eq_some_iff, stepOrigins]
  refine or_congr_right ?_
  simp only [getElem?_append_eq_some_iff, List.length_map, getElem?_map_range_iff, hconstant]
  constructor
  · rintro ⟨_, rfl, ⟨c, hc, rfl⟩ | ⟨later, rfl, hlater, rfl⟩⟩
    · exact .inl ⟨_, c, hc, rfl, rfl⟩
    · exact .inr ⟨later, hlater, (Nat.add_assoc ..).symm, rfl⟩
  · rintro (⟨place, c, hc, rfl, rfl⟩ | ⟨place, hplace, rfl, rfl⟩)
    · exact ⟨place, rfl, .inl ⟨c, hc, rfl⟩⟩
    · exact ⟨_, Nat.add_assoc .., .inr ⟨place, rfl, hplace, rfl⟩⟩

/-- A constant is made for every tensor that the plan reads and that nothing produces. -/
theorem Made.exists_constant_iff (h : Made t op plan sources constants step supply') :
    (∃ (place : Nat) (c : PendingConstant), constants[place]? = some c ∧ c.tensor = k) ↔
      k ∈ plan.consumed ∧ t.producer? k = none := by
  have hmem : k ∈ constants.map (·.tensor) ↔ k ∈ plan.consumed ∧ t.producer? k = none := by
    rw [h.sourced.tensors, List.mem_filter, Option.isNone_iff_eq_none]
  rw [← hmem, List.mem_map]
  constructor
  · rintro ⟨place, c, hc, rfl⟩
    exact ⟨c, List.mem_of_getElem? hc, rfl⟩
  · rintro ⟨c, hc, rfl⟩
    obtain ⟨place, hplace⟩ := List.mem_iff_getElem?.mp hc
    exact ⟨place, c, hplace, rfl⟩

theorem Made.mem_stepOrigins_iff (h : Made t op plan sources constants step supply') :
    o ∈ stepOrigins call plan constants ↔
      (∃ k, (k ∈ plan.consumed ∧ t.producer? k = none) ∧ o = .constant k) ∨
        ∃ place < plan.layers.length, o = .planned call place := by
  simp only [stepOrigins, h.sourced.tensors, List.mem_append, List.mem_map, List.mem_filter,
    List.mem_range, Option.isNone_iff_eq_none, eq_comm (a := o)]

/-- No constant was made for a tensor that nothing produces. -/
theorem Layout.constant_notMem (h : Layout base t calls origins) (hk : t.producer? k = none) :
    Origin.constant k ∉ origins := by
  intro hmem
  obtain ⟨-, ⟨call, hcall, hread⟩, -⟩ := (h.mem_iff _).mp hmem
  exact ((h.producer?_eq_none_iff.mp hk).2 call hcall).1 hread

/-! ### What a call keeps -/

/-- The layers of a call are new. -/
theorem Layout.nodup_step (h : Layout base t calls origins)
    (hmade : Made t op plan sources constants step supply') (hcall : call ∉ calls) :
    (origins ++ stepOrigins call plan constants).Nodup := by
  have hnew : (stepOrigins call plan constants).Nodup := by
    rw [stepOrigins, hmade.sourced.tensors, List.nodup_append]
    refine ⟨?_, ?_, ?_⟩
    · exact (plan.nodup_consumed.filter _).map fun _ _ heq => Origin.constant.inj heq
    · exact List.nodup_range.map fun _ _ heq => (Origin.planned.inj heq).2
    · intro a ha b hb heq
      obtain ⟨k, -, rfl⟩ := List.mem_map.mp ha
      obtain ⟨place, -, rfl⟩ := List.mem_map.mp hb
      cases heq
  rw [List.nodup_append]
  refine ⟨h.nodup, hnew, ?_⟩
  rintro o hold _ hstep rfl
  rcases hmade.mem_stepOrigins_iff.mp hstep with ⟨k, ⟨-, hk⟩, rfl⟩ | ⟨place, -, rfl⟩
  · exact h.constant_notMem hk hold
  · exact hcall ((h.mem_iff _).mp hold).1

/-- What is there after a call was there before, or is a constant or a planned layer of it. -/
theorem Layout.mem_step_iff (h : Layout base t calls origins)
    (hmade : Made t op plan sources constants step supply')
    (hplan : Plan.ofOperator base.model call.1 base.standIn = .ok plan) (o : Origin) :
    o ∈ origins ++ stepOrigins call plan constants ↔ base.Present (calls ++ [call]) o := by
  rw [List.mem_append, h.mem_iff, hmade.mem_stepOrigins_iff]
  cases o with
  | start id => simp [Present]
  | planned call' place =>
    simp only [Present, List.mem_append, List.mem_singleton]
    constructor
    · rintro (⟨hold, hplanned⟩ | ⟨_, -, heq⟩ | ⟨place, hplace, heq⟩)
      · exact ⟨.inl hold, hplanned⟩
      · cases heq
      · cases heq
        exact ⟨.inr rfl, plan, hplan, hplace⟩
    · rintro ⟨hold | rfl, plan', hplan', hplace⟩
      · exact .inl ⟨hold, plan', hplan', hplace⟩
      · rw [hplan] at hplan'
        cases hplan'
        exact .inr (.inr ⟨place, hplace, rfl⟩)
  | constant k =>
    have hreads := reads_iff (k := k) hplan
    have hwrites := writes_iff (k := k) hplan
    simp only [Present, exists_reads_concat, List.forall_mem_append, List.forall_mem_singleton,
      hreads, hwrites]
    constructor
    · rintro (⟨hnone, hread, hwritten⟩ | ⟨k', ⟨hk, hnone⟩, heq⟩ | ⟨_, -, heq⟩)
      · refine ⟨hnone, .inl hread, hwritten, fun hk => ?_⟩
        -- The call does not write what another call reads.
        obtain ⟨call', hcall', hread⟩ := hread
        exact absurd hread ((h.producer?_eq_none_iff.mp (hmade.fresh k hk)).2 call' hcall').1
      · cases heq
        obtain ⟨hnone, hcalls⟩ := h.producer?_eq_none_iff.mp hnone
        exact ⟨hnone, .inr hk, fun call' hcall' hw => absurd hw (hcalls call' hcall').2,
          fun _ => hk⟩
      · cases heq
    · rintro ⟨hnone, hread, hwritten, -⟩
      by_cases hold : ∃ call' ∈ calls, base.Reads call'.1 k
      · exact .inl ⟨hnone, hold, hwritten⟩
      · -- No call before reads the tensor, so none writes it, and the constant is made now.
        have hunread : ∀ call' ∈ calls, ¬ base.Reads call'.1 k :=
          fun call' hcall' hread => hold ⟨call', hcall', hread⟩
        have hunproduced : t.producer? k = none := by
          rw [h.producer?_eq_none_iff]
          refine ⟨hnone, fun call' hcall' => ⟨hunread call' hcall', fun hw => ?_⟩⟩
          exact hunread call' hcall' (hwritten call' hcall' hw)
        exact .inr (.inl ⟨k, ⟨hread.resolve_left hold, hunproduced⟩, rfl⟩)

/-- What produces a tensor after a call has the right origin: what did so before keeps it, and what
    is new has it in the call. -/
theorem Layout.exists_origin_step (h : Layout base t calls origins)
    (hmade : Made t op plan sources constants step supply')
    (hplan : Plan.ofOperator base.model call.1 base.standIn = .ok plan)
    (hp : step.lowering.producer? k = some p) :
    ∃ o, (origins ++ stepOrigins call plan constants)[p.layer]? = some o ∧
      base.Provides (calls ++ [call]) k o p.index := by
  have hlast : call ∈ calls ++ [call] := List.mem_append_right _ (List.mem_singleton_self _)
  have hwrites := writes_iff (k := k) hplan
  simp only [getElem?_stepOrigins_iff]
  rw [hmade.producer?_eq_some_iff, primaryAt, ← h.length] at hp
  rcases hp with hold | ⟨hlayer, hk⟩ | ⟨hk, place, c, hc, rfl, rfl⟩
  · have hfresh : k ∉ plan.outputs := by
      intro hk
      rw [hmade.fresh k hk] at hold
      cases hold
    obtain ⟨o, ho, hprovides⟩ := (h.producer?_iff k p).mp hold
    exact ⟨o, .inl ho, hprovides.concat fun hk => hfresh (hwrites.mp hk)⟩
  · refine ⟨.planned call (plan.reshapes.length + plan.tail.length), ?_, ?_⟩
    · exact .inr (.inr ⟨_, plan.last_lt, hlayer.trans (Nat.add_assoc ..), rfl⟩)
    · exact ⟨hlast, plan, hplan, rfl, hk⟩
  · -- The call reads the tensor of the constant, and no call writes it.
    obtain ⟨hread, hnone⟩ := hmade.exists_constant_iff.mp ⟨place, c, hc, rfl⟩
    obtain ⟨hnone, hcalls⟩ := h.producer?_eq_none_iff.mp hnone
    have hunwritten : ∀ call' ∈ calls ++ [call], ¬ base.Writes call'.1 c.tensor := by
      rw [List.forall_mem_append, List.forall_mem_singleton, hwrites]
      exact ⟨fun call' hcall' => (hcalls call' hcall').2, hk⟩
    refine ⟨.constant c.tensor, .inr (.inl ⟨place, c, hc, rfl, rfl⟩), ?_⟩
    exact ⟨rfl, rfl, hnone, ⟨call, hlast, (reads_iff hplan).mpr hread⟩, hunwritten⟩

/-- What has the right origin produces the tensor after a call. -/
theorem Layout.producer?_of_origin_step (h : Layout base t calls origins)
    (hmade : Made t op plan sources constants step supply')
    (hplan : Plan.ofOperator base.model call.1 base.standIn = .ok plan)
    (ho : (origins ++ stepOrigins call plan constants)[p.layer]? = some o)
    (hprovides : base.Provides (calls ++ [call]) k o p.index) :
    step.lowering.producer? k = some p := by
  rw [hmade.producer?_eq_some_iff, primaryAt, ← h.length]
  rw [getElem?_stepOrigins_iff] at ho
  cases o with
  | start id =>
    rcases ho with hold | ⟨_, _, -, -, heq⟩ | ⟨_, -, -, heq⟩
    · exact .inl ((h.producer?_iff k p).mpr ⟨_, hold, hprovides⟩)
    · cases heq
    · cases heq
  | planned call' place =>
    obtain ⟨-, plan', hplan', rfl, hk⟩ := hprovides
    rcases ho with hold | ⟨_, _, -, -, heq⟩ | ⟨_, -, hlayer, heq⟩
    · have hmem := ((h.mem_iff _).mp (List.mem_of_getElem? hold)).1
      exact .inl ((h.producer?_iff k p).mpr ⟨_, hold, hmem, plan', hplan', rfl, hk⟩)
    · cases heq
    · cases heq
      rw [hplan] at hplan'
      cases hplan'
      exact .inr (.inl ⟨hlayer.trans (Nat.add_assoc ..).symm, hk⟩)
  | constant k' =>
    obtain ⟨rfl, hindex, hnone, -, hwritten⟩ := hprovides
    rw [List.forall_mem_append, List.forall_mem_singleton, writes_iff hplan] at hwritten
    obtain ⟨hwritten, hk⟩ := hwritten
    rcases ho with hold | ⟨place, c, hc, hlayer, heq⟩ | ⟨_, -, -, heq⟩
    · -- The constant was made for a call before.
      obtain ⟨-, hread, -⟩ := (h.mem_iff _).mp (List.mem_of_getElem? hold)
      exact .inl ((h.producer?_iff k' p).mpr ⟨_, hold, rfl, hindex, hnone, hread, hwritten⟩)
    · refine .inr (.inr ⟨hk, place, c, hc, (Origin.constant.inj heq).symm, ?_⟩)
      obtain ⟨layer, index⟩ := p
      cases hlayer
      cases hindex
      rfl
    · cases heq

/-- A plan stays where it is, and what it reads stays what it was. -/
theorem Placed.later {first : LayerId} {known : List (Nat × OutputRef)}
    (h : Placed t origins call plan first known) (hlater : Later t t') (more : List Origin) :
    Placed t' (origins ++ more) call plan first known where
  origin := by
    intro place hplace
    have horigin := h.origin place hplace
    rw [List.getElem?_append_left (List.getElem?_eq_some_iff.mp horigin).1, horigin]
  content? := by
    intro place d hd
    have hcontent := h.content? place d hd
    rw [hlater.content? _ (lt_of_content? hcontent), hcontent]
  known := by
    intro k hk
    obtain ⟨p, hp, hproducer, hconstant⟩ := h.known k hk
    refine ⟨p, hp, fun hnot => hlater.producer? k p (hproducer hnot), fun hmem => ?_⟩
    obtain ⟨horigin, hindex⟩ := hconstant hmem
    rw [List.getElem?_append_left (List.getElem?_eq_some_iff.mp horigin).1]
    exact ⟨horigin, hindex⟩

/-- The plan of a call is placed behind its constants. -/
theorem Made.placed (h : Made t op plan sources constants step supply')
    (hvalid : Valid model standIn t supply) (hlength : origins.length = t.graph.layers.length) :
    Placed step.lowering (origins ++ stepOrigins call plan constants) call plan
      (t.graph.layers.length + constants.length)
      (knownSlots sources constants t.graph.layers.length) where
  origin := by
    intro place hplace
    rw [getElem?_stepOrigins_iff, hlength]
    exact .inr (.inr ⟨place, hplace, rfl, rfl⟩)
  content? := by
    intro place d hd
    rw [Nat.add_assoc]
    refine h.content?_draft ?_
    rw [getElem?_stepDrafts, hd]
  known := by
    intro k hk
    obtain ⟨p, hknown, hiff⟩ := h.exists_known hvalid hk
    refine ⟨p, hknown, hiff.mpr, fun hmem => ?_⟩
    -- Nothing produced the tensor before, so the plan reads the constant that was made for it.
    obtain ⟨q, hq, hconstant⟩ :=
      h.sourced.exists_slot plan.nodup_consumed hk t.graph.layers.length
    rw [hknown] at hq
    cases hq
    have hnone : t.producers.lookup k = none := h.fresh k hmem
    rw [List.lookup_append, hnone, Option.or_none] at hconstant
    obtain ⟨place, c, hc, rfl, rfl⟩ := mem_constantSlots_iff.mp (mem_of_lookup_eq_some hconstant)
    refine ⟨getElem?_stepOrigins_iff.mpr (.inr (.inl ⟨place, c, hc, ?_, rfl⟩)), rfl⟩
    rw [hlength]

/-- The constant of a tensor does not depend on the operator that reads it. -/
theorem pendingConstant_of_operator {model : Model} {operator tensor : Nat} {c : PendingConstant}
    (h : pendingConstant model operator tensor = .ok c) (other : Nat) :
    pendingConstant model other tensor = .ok c :=
  pendingConstant_eq_ok_iff.mpr (pendingConstant_eq_ok_iff.mp h)

/-- Constants and planned layers are no boundary layers. -/
theorem boundary_lower (hrun : (t.lower index).run supply = .ok step supply')
    (direction : Direction) :
    step.lowering.graph.boundary direction = t.graph.boundary direction := by
  obtain ⟨plan, sources, constants, built, hplan, -, -, hbuild, rfl⟩ := lower_eq_ok_iff.mp hrun
  obtain ⟨op, -, hplanned⟩ := Plan.ofOperator_planned hplan
  obtain ⟨g', happend, rfl⟩ := build_eq_ok_iff.mp hbuild
  exact boundary_appendAll (fun d hd => hplanned.covered.binding?_eq_none hd) happend direction

/-- A layout is extended by what is made for a call. -/
theorem Layout.extend (h : Layout base t calls origins)
    (hvalid : Valid base.model base.standIn t supply)
    (hmade : Made t op plan sources constants step supply')
    (hplan : Plan.ofOperator base.model call.1 base.standIn = .ok plan)
    (hpending : ∀ c ∈ constants, pendingConstant base.model call.1 c.tensor = .ok c)
    (hboundary : ∀ direction,
      step.lowering.graph.boundary direction = t.graph.boundary direction)
    (hcall : call ∉ calls) :
    Layout base step.lowering (calls ++ [call]) (origins ++ stepOrigins call plan constants) where
  length := by
    rw [hmade.extension.length, List.length_map, length_stepDrafts, List.length_append, h.length,
      stepOrigins, List.length_append, List.length_map, List.length_map, List.length_map,
      List.length_range]
  nodup := h.nodup_step hmade hcall
  mem_iff := h.mem_step_iff hmade hplan
  producer?_iff := by
    intro k p
    constructor
    · exact h.exists_origin_step hmade hplan
    · rintro ⟨o, ho, hprovides⟩
      exact h.producer?_of_origin_step hmade hplan ho hprovides
  produced_lt := h.produced_lt
  start := by
    intro id hid
    obtain ⟨horigin, hcontent⟩ := h.start id hid
    have hlt := (List.getElem?_eq_some_iff.mp horigin).1
    rw [List.getElem?_append_left hlt, hmade.later.content? id (h.length ▸ hlt)]
    exact ⟨horigin, hcontent⟩
  constant := by
    intro id k ho
    -- A place holds what it held, a new constant or a new planned layer.
    rcases getElem?_stepOrigins_iff.mp ho with hold | ⟨place, c, hc, rfl, heq⟩ | ⟨_, -, -, heq⟩
    · obtain ⟨operator, c, hc, hcontent⟩ := h.constant id k hold
      refine ⟨operator, c, hc, ?_⟩
      rw [hmade.later.content? id (lt_of_content? hcontent), hcontent]
    · cases heq
      refine ⟨call.1, c, hpending c (List.mem_of_getElem? hc), ?_⟩
      rw [h.length]
      exact hmade.content?_constant hc
    · cases heq
  planned := by
    intro call' hcall'
    rcases List.mem_append.mp hcall' with hold | hnew
    · obtain ⟨plan', first, known, hplan', hplaced⟩ := h.planned call' hold
      exact ⟨plan', first, known, hplan', hplaced.later hmade.later _⟩
    · rw [List.mem_singleton.mp hnew]
      exact ⟨plan, _, _, hplan, hmade.placed hvalid h.length⟩
  boundary := by
    intro direction
    rw [hboundary, h.boundary]

theorem Layout.lower (h : Layout base t calls origins)
    (hvalid : Valid base.model base.standIn t supply)
    (hrun : (t.lower call.1).run supply = .ok step supply') (hcall : call ∉ calls) :
    ∃ origins', Layout base step.lowering (calls ++ [call]) origins' := by
  obtain ⟨op, plan, sources, constants, -, hplan, hsources, hmade, -⟩ := hvalid.lower_eq_ok hrun
  have hpending := pending_of_sourcesOf hsources
  rw [hvalid.sameModel] at hpending
  exact ⟨_, h.extend hvalid hmade hplan hpending (boundary_lower hrun) hcall⟩

end layouts

/-! ### Runs -/

variable {base : Lowering} {run : Run} {model : Model} {standIn : Bool}
variable {supply supply' : GuidSupply}

/-- However the calls of a run that succeeded are numbered, there is a layout for them. -/
structure LaidOut (base : Lowering) (run : Run) : Prop where
  valid : Valid base.model base.standIn run.lowering run.supply
  layout : ∀ calls : List (Nat × Nat), calls.Nodup →
    calls.map Prod.fst = run.lowered.map Prod.fst →
      ∃ origins, Layout base run.lowering calls origins

theorem LaidOut.call (h : LaidOut base run) (index : Nat) : LaidOut base (run.call index) := by
  have hvalid := Run.valid_call h.valid index
  rcases run.call_cases index with ⟨step, supply, hrun, heq⟩ | ⟨e, supply, -, heq⟩
  · rw [heq] at hvalid ⊢
    refine ⟨hvalid, fun calls hnodup hcalls => ?_⟩
    -- The last call is the one that was made now.
    rw [List.map_append, List.map_singleton] at hcalls
    obtain ⟨before, last, rfl, hbefore, hlast⟩ := List.map_eq_append_iff.mp hcalls
    obtain ⟨call, rfl, rfl⟩ := List.map_eq_singleton_iff.mp hlast
    rw [List.nodup_append] at hnodup
    obtain ⟨hnodup, -, hdisjoint⟩ := hnodup
    obtain ⟨origins, hlayout⟩ := h.layout before hnodup hbefore
    refine hlayout.lower h.valid hrun fun hmem => ?_
    exact hdisjoint call hmem call (List.mem_singleton_self _) rfl
  · rw [heq] at hvalid ⊢
    exact ⟨hvalid, h.layout⟩

theorem LaidOut.calls (h : LaidOut base run) (indices : List Nat) :
    LaidOut base (run.calls indices) := by
  induction indices generalizing run with
  | nil => exact h
  | cons index indices ih => exact ih (h.call index)

/-- A run has a layout for its calls. -/
theorem laidOut_of_start (hstart : (start model standIn).run supply = .ok base supply')
    (indices : List Nat) : LaidOut base ((Run.first base supply').calls indices) := by
  have hvalid := valid_of_start hstart
  apply LaidOut.calls
  constructor
  · rw [hvalid.sameModel, hvalid.sameStandIn]
    exact hvalid
  · intro calls _ hcalls
    obtain rfl := List.map_eq_nil_iff.mp hcalls
    exact ⟨_, layout_self hvalid⟩

end Lowering

end LayerGraph
