import LayerGraph.Proofs.Outcome
import LayerGraph.Quantize.Ranges
import Mathlib.Data.List.Nodup

/-! # Recording ranges

  A computation that records ranges goes from one table to the next, or fails
  (`Recording.outcome`). Loops of such computations are folds over tables.

  A table gains an entry, and what it held before it still holds (`RangeTable.Gains`). Entries for
  different slots that have none yet are all recorded, unless one of them is no range
  (`RangeTable.ends_recordAll`).
-/

namespace LayerGraph

/-- An error that refuses the two ends of a range, which are not in order. -/
def QuantizationError.RefusesRange (e : QuantizationError) : Prop :=
  ∃ min max, e = .invalidRange min max ∧ Scheme.isRange min max = false

/-! ### From table to table -/

namespace Recording

/-- The table that a computation leaves, unless it fails. -/
def outcome (x : Recording Unit) (t : RangeTable) : Except QuantizationError RangeTable :=
  match x.run t with
  | .ok _ t' => .ok t'
  | .error e _ => .error e

theorem outcome_bind (x : Recording Unit) (f : Unit → Recording Unit) (t : RangeTable) :
    outcome (x >>= f) t = outcome x t >>= fun t' => outcome (f ()) t' := by
  unfold outcome
  rw [EStateM.run_bind]
  cases x.run t with
  | ok a t' => rfl
  | error e t' => rfl

theorem outcome_forM {α : Type} (f : α → Recording Unit) (xs : List α) (t : RangeTable) :
    outcome (xs.forM f) t = xs.foldlM (fun t a => outcome (f a) t) t := by
  induction xs generalizing t with
  | nil => rfl
  | cons a xs ih =>
    show outcome (f a >>= fun _ => xs.forM f) t = _
    rw [outcome_bind, List.foldlM_cons]
    simp only [ih]

end Recording

namespace RangeTable

open Recording

variable {t t' : RangeTable} {layer guid : LayerGuid} {slot index : Nat} {range : ValueRange}
variable {entry : (LayerGuid × Nat) × ValueRange}
variable {entries done : List ((LayerGuid × Nat) × ValueRange)}

/-! ### One range -/

/-- The table with one more entry. -/
def add (t : RangeTable) (entry : (LayerGuid × Nat) × ValueRange) : RangeTable :=
  { t with ranges := entry :: t.ranges }

theorem recorded?_add : (t.add entry).recorded? guid index =
    if (guid, index) = entry.1 then some entry.2 else t.recorded? guid index := by
  show List.lookup (guid, index) (entry :: t.ranges) = _
  rw [List.lookup_cons, beq_eq_decide]
  by_cases h : (guid, index) = entry.1
  · rw [decide_eq_true h, if_pos h]
  · rw [decide_eq_false h, if_neg h]
    rfl

/-- A range is recorded when it is one and its slot has none. -/
theorem outcome_record : outcome (record layer slot range) t =
    if Scheme.isRange range.min range.max = false then
      .error (.invalidRange range.min range.max)
    else if (t.recorded? layer slot).isSome then .error (.rangeAlreadyRecorded layer slot)
    else .ok (t.add ((layer, slot), range)) := by
  cases hrange : Scheme.isRange range.min range.max <;>
    cases hfree : (t.recorded? layer slot).isSome <;>
      simp [outcome, record, hrange, hfree, add]

/-! ### More ranges -/

/-- The second table holds what the first one does and the entries, which are ranges, and nothing
    else. -/
structure Gains (t : RangeTable) (entries : List ((LayerGuid × Nat) × ValueRange))
    (t' : RangeTable) : Prop where
  recorded : ∀ guid index range, t'.recorded? guid index = some range ↔
    ((guid, index), range) ∈ entries ∨ t.recorded? guid index = some range
  defaultRange : t'.defaultRange = t.defaultRange
  isRange : ∀ entry ∈ entries, Scheme.isRange entry.2.min entry.2.max = true

theorem gains_nil (t : RangeTable) : t.Gains [] t where
  recorded := by simp
  defaultRange := rfl
  isRange := nofun

/-- An entry for a slot that has none is gained. -/
theorem Gains.add (h : t.Gains done t') (hfree : t'.recorded? entry.1.1 entry.1.2 = none)
    (hrange : Scheme.isRange entry.2.min entry.2.max = true) :
    t.Gains (done ++ [entry]) (t'.add entry) where
  recorded := by
    intro guid index range
    rw [recorded?_add, List.mem_append, List.mem_singleton]
    split
    · next heq =>
      -- The slot of the new entry had no range.
      have hnone : t'.recorded? guid index = none := by
        rw [show guid = entry.1.1 from congrArg Prod.fst heq,
          show index = entry.1.2 from congrArg Prod.snd heq]
        exact hfree
      have hnothing := h.recorded guid index range
      rw [hnone] at hnothing
      rw [Option.some.injEq, heq]
      constructor
      · rintro rfl
        exact .inl (.inr rfl)
      · rintro ((hdone | hnew) | hbefore)
        · exact absurd (hnothing.mpr (.inl (heq ▸ hdone))) nofun
        · exact (congrArg Prod.snd hnew).symm
        · exact absurd (hnothing.mpr (.inr hbefore)) nofun
    · next hne =>
      rw [h.recorded]
      have hother : ((guid, index), range) ≠ entry := fun heq => hne (congrArg Prod.fst heq)
      tauto
  defaultRange := h.defaultRange
  isRange := by
    intro x hx
    obtain hx | hx := List.mem_append.mp hx
    · exact h.isRange x hx
    · exact List.mem_singleton.mp hx ▸ hrange

/-- Entries for different slots that have no range yet are recorded. When this fails, one of them is
    no range. By induction on the entries: those before the next one are for other slots. -/
theorem ends_recordEach {fails : QuantizationError → Prop} (hnodup : (entries.map Prod.fst).Nodup)
    (hfree : ∀ entry ∈ entries, t.recorded? entry.1.1 entry.1.2 = none)
    (hfails : ∀ entry ∈ entries, Scheme.isRange entry.2.min entry.2.max = false →
      fails (.invalidRange entry.2.min entry.2.max)) :
    Except.Ends fails (t.Gains entries)
      (entries.foldlM (fun t entry => outcome (record entry.1.1 entry.1.2 entry.2) t) t) := by
  refine Except.Ends.foldlM (P := fun done t' => t.Gains done t') ?_ (gains_nil t)
  rintro done entry after t' rfl hgains
  have hnone : t'.recorded? entry.1.1 entry.1.2 = none := by
    refine Option.eq_none_iff_forall_ne_some.mpr fun range hrange => ?_
    obtain hdone | hbefore := (hgains.recorded _ _ _).mp hrange
    · -- No entry before this one is for the same slot.
      rw [List.map_append, List.map_cons] at hnodup
      exact List.disjoint_of_nodup_append hnodup (List.mem_map_of_mem hdone) List.mem_cons_self
    · rw [hfree entry (by simp)] at hbefore
      cases hbefore
  rw [outcome_record]
  cases hrange : Scheme.isRange entry.2.min entry.2.max with
  | false =>
    rw [if_pos rfl]
    exact .error (hfails entry (by simp) hrange)
  | true =>
    rw [if_neg nofun, hnone]
    exact .ok (hgains.add hnone hrange)

/-- Entries for different slots that have no range yet are recorded, unless one of them is no
    range. -/
theorem ends_recordAll (hnodup : (entries.map Prod.fst).Nodup)
    (hfree : ∀ entry ∈ entries, t.recorded? entry.1.1 entry.1.2 = none) :
    Except.Ends QuantizationError.RefusesRange (t.Gains entries)
      (entries.foldlM (fun t entry => outcome (record entry.1.1 entry.1.2 entry.2) t) t) :=
  ends_recordEach hnodup hfree fun _ _ hrange => ⟨_, _, rfl, hrange⟩

end RangeTable

end LayerGraph
