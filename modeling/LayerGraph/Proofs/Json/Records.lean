import LayerGraph.Proofs.Json.Numbers
import LayerGraph.Json.Record

/-! # Records are read as they were written

  A part of a document is read back if all the numbers in it are real, and the parts of a record
  or of a list decide whether the whole is. `Recovers` says both at once about what was read, so
  that it passes from the parts to the whole along the binds of a reader.

  A record adds nothing of its own: its fields are found by their names, which stand in the order of
  the fields, some of them left out.
-/

namespace LayerGraph

namespace Json

variable {α β : Type}

/-! ### Values that come back -/

/-- What was read is the value if something holds of it, and nothing otherwise. -/
structure Recovers (read : Option α) (a : α) (good : Prop) : Prop where
  some_of : good → read = some a
  none_of : ¬ good → read = none

namespace Recovers

variable {read : Option α} {a : α} {good other : Prop}

theorem of_eq_some (h : read = some a) : Recovers read a True :=
  ⟨fun _ => h, fun hnot => absurd trivial hnot⟩

/-- **Consequence**: the condition may be put in other words. -/
theorem congr (h : Recovers read a good) (hiff : good ↔ other) : Recovers read a other :=
  ⟨fun hother => h.some_of (hiff.mpr hother), fun hnot => h.none_of (mt hiff.mp hnot)⟩

/-- **Sequence**: both parts must be good. -/
theorem bind {next : α → Option β} {b : β} (h : Recovers read a good)
    (hnext : Recovers (next a) b other) : Recovers (read.bind next) b (good ∧ other) := by
  constructor
  · rintro ⟨hgood, hother⟩
    rw [h.some_of hgood, Option.bind_some, hnext.some_of hother]
  · intro hnot
    by_cases hgood : good
    · rw [h.some_of hgood, Option.bind_some, hnext.none_of fun hother => hnot ⟨hgood, hother⟩]
    · rw [h.none_of hgood, Option.bind_none]

theorem map (f : α → β) (h : Recovers read a good) : Recovers (read.map f) (f a) good :=
  ⟨fun hgood => by rw [h.some_of hgood, Option.map_some],
    fun hnot => by rw [h.none_of hnot, Option.map_none]⟩

end Recovers

theorem recovers_binary32 (x : Binary32) :
    Recovers (ofBinary32 x).binary32? x (x.isFinite = true) := by
  constructor
  · intro hfinite
    rw [binary32?_ofBinary32, if_pos hfinite]
  · intro hfinite
    rw [binary32?_ofBinary32, if_neg hfinite]

/-- A list is read back when all its items are. -/
theorem recovers_list {write : α → Json} {read : Json → Option α} {good : α → Prop} {as : List α}
    (h : ∀ a ∈ as, Recovers (read (write a)) a (good a)) :
    Recovers (list? read (ofList write as)) as (∀ a ∈ as, good a) := by
  induction as with
  | nil => exact (Recovers.of_eq_some rfl).congr (by simp)
  | cons a as ih =>
    -- The reader takes the items one by one, as the list is made.
    obtain ⟨ha, has⟩ := List.forall_mem_cons.mp h
    have hlist : list? read (ofList write (a :: as)) = (read (write a)).bind fun b =>
        (list? read (ofList write as)).map (b :: ·) := by
      simp [list?, ofList, List.mapM_cons, Option.map_eq_bind, Function.comp_def]
    rw [hlist]
    exact (ha.bind ((ih has).map (a :: ·))).congr List.forall_mem_cons.symm

/-- Values that are all read back make a list that is. -/
theorem list?_ofList {write : α → Json} {read : Json → Option α}
    (h : ∀ a, read (write a) = some a) (as : List α) : list? read (ofList write as) = some as :=
  (recovers_list fun a _ => .of_eq_some (h a)).some_of fun _ _ => trivial

/-- Whatever a list was read from, its items were read from items. -/
theorem exists_of_list? {read : Json → Option α} {json : Json} {as : List α}
    (h : list? read json = some as) {a : α} (ha : a ∈ as) : ∃ item, read item = some a := by
  cases json with
  | array items =>
    replace h : items.mapM read = some as := h
    induction items generalizing as with
    | nil =>
      obtain rfl := Option.some.inj h
      exact absurd ha List.not_mem_nil
    | cons item items ih =>
      simp only [List.mapM_cons, Option.bind_eq_bind, Option.bind_eq_some_iff, Option.pure_def,
        Option.some.injEq] at h
      obtain ⟨b, hb, bs, hbs, rfl⟩ := h
      obtain rfl | ha := List.mem_cons.mp ha
      · exact ⟨item, hb⟩
      · exact ih ha hbs
  | _ => cases h

theorem choice?_ofChoice [DecidableEq α] [Choice α]
    (h : ∀ a : α, Choice.ofName? (Choice.name a) = some a) (a : α) :
    (ofChoice a).choice? = some a := h a

theorem nullable?_of_ne_null {json : Json} (h : json ≠ .null) (read : Json → Option α) :
    nullable? read json = (read json).map some := by
  cases json with
  | null => exact absurd rfl h
  | _ => rfl

/-! ### Values with a text -/

theorem printable_ofString (text : String) : (ofString text).Printable := .string text

theorem printable_ofChoice [DecidableEq α] [Choice α] (a : α) : (ofChoice a).Printable :=
  .string _

theorem printable_ofList {write : α → Json} (h : ∀ a, (write a).Printable) (as : List α) :
    (ofList write as).Printable := by
  refine .array fun item hitem => ?_
  obtain ⟨a, -, rfl⟩ := List.mem_map.mp hitem
  exact h a

theorem printable_ofMembers {members : List (String × Json)}
    (h : ∀ member ∈ members, member.2.Printable) : (ofMembers members).Printable := by
  refine .object ?_ ?_
  · intro member hmember
    obtain ⟨field, -, rfl⟩ := List.mem_map.mp hmember
    rfl
  · intro member hmember
    obtain ⟨field, hfield, rfl⟩ := List.mem_map.mp hmember
    exact h field hfield

theorem map_fst_optionalMember (name : String) (write : α → Json) (value : Option α) :
    (optionalMember name write value).map (·.1) = if value.isSome then [name] else [] := by
  cases value <;> rfl

theorem printable_optionalMember {name : String} {write : α → Json} {value : Option α}
    (h : ∀ a, (write a).Printable) : ∀ member ∈ optionalMember name write value,
      member.2.Printable := by
  cases value with
  | none => exact fun member hmember => absurd hmember List.not_mem_nil
  | some a =>
    intro member hmember
    obtain rfl := List.mem_singleton.mp hmember
    exact h a

/-! ### Records -/

namespace Record

variable {record members : Record} {fields : List String} {name : String} {value : Json}

/-- A record that was read from an object with the given members: all of them, each once. -/
structure Written (record members : Record) : Prop where
  eq : record = members
  nodup : (members.map (·.1)).Nodup

/-- Members that are fields, in their order, are read, and nothing else. -/
theorem record?_ofMembers (hsublist : (members.map (·.1)).Sublist fields) (hnodup : fields.Nodup) :
    (ofMembers members).record? fields = some members := by
  -- Every member has a name, is a field, and comes once.
  have hnamed : (members.map fun field => (some field.1, field.2)).mapM
      (fun member => member.1.map fun name => (name, member.2)) = some members := by
    clear hsublist
    induction members with
    | nil => rfl
    | cons field members ih =>
      rw [List.map_cons, List.mapM_cons, ih]
      rfl
  have hpresent : members.filter (fun field => fields.contains field.1) = members := by
    rw [List.filter_eq_self]
    intro field hfield
    exact List.contains_iff_mem.mpr (hsublist.subset (List.mem_map_of_mem hfield))
  calc (ofMembers members).record? fields
      = (some members).bind fun named =>
          if ((named.filter fun field => fields.contains field.1).map (·.1)).Nodup
          then some (named.filter fun field => fields.contains field.1) else none :=
        congrArg (Option.bind · _) hnamed
    _ = some members := by
        rw [Option.bind_some, hpresent, if_pos (hsublist.nodup hnodup)]

/-- **Records**: a value is read back from an object if it is from the members of the object. -/
theorem recovers_ofMembers {next : Record → Option α} {a : α} {good : Prop}
    (hsublist : (members.map (·.1)).Sublist fields) (hnodup : fields.Nodup)
    (hnext : ∀ record, Written record members → Recovers (next record) a good) :
    Recovers ((ofMembers members).record? fields >>= next) a good := by
  rw [record?_ofMembers hsublist hnodup]
  exact hnext members ⟨rfl, hsublist.nodup hnodup⟩

namespace Written

/-- A member is found by its name. -/
theorem get?_eq (h : record.Written members) (hmem : (name, value) ∈ members) :
    record.get? name = some value := by
  obtain ⟨rfl, hnodup⟩ := h
  unfold get?
  induction record with
  | nil => exact absurd hmem List.not_mem_nil
  | cons field record ih =>
    rw [List.map_cons, List.nodup_cons] at hnodup
    obtain rfl | hmem := List.mem_cons.mp hmem
    · exact List.lookup_cons_self
    · -- The name stands once, so it is not the first one.
      have hne : name ≠ field.1 := by
        rintro rfl
        exact hnodup.1 (List.mem_map_of_mem (f := (·.1)) hmem)
      rw [List.lookup_cons, beq_eq_false_iff_ne.mpr hne]
      exact ih hmem hnodup.2

theorem get?_eq_none (h : record.Written members) (hout : name ∉ members.map (·.1)) :
    record.get? name = none := by
  obtain ⟨rfl, -⟩ := h
  rw [get?, List.lookup_eq_none_iff]
  intro field hfield
  exact bne_iff_ne.mpr fun heq => hout (heq ▸ List.mem_map_of_mem hfield)

/-- A field that must be there is what was written. -/
theorem required_eq (h : record.Written members) (hmem : (name, value) ∈ members)
    (read : Json → Option α) : record.required name read = read value := by
  rw [required, h.get?_eq hmem, Option.bind_some]

/-- So is a field that could have been left out, if it was not. -/
theorem withDefault_eq (h : record.Written members) (hmem : (name, value) ∈ members)
    (default : α) (read : Json → Option α) : record.withDefault name default read = read value := by
  rw [withDefault, h.get?_eq hmem]

theorem withDefault_eq_default (h : record.Written members) (hout : name ∉ members.map (·.1))
    (default : α) (read : Json → Option α) :
    record.withDefault name default read = some default := by
  rw [withDefault, h.get?_eq_none hout]

/-- The member at a position, for objects that are written in one go. -/
theorem mem (_ : record.Written members) (i : Nat) {member : String × Json}
    (hi : members[i]? = some member) : member ∈ members := List.mem_of_getElem? hi

/-- A field that was left out, or not, is read back when its value is. -/
theorem recovers_optional (h : record.Written members) (name : String) (write : α → Json)
    (value : Option α) {read : Json → Option α} {good : α → Prop}
    (hmem : ∀ member ∈ optionalMember name write value, member ∈ members)
    (hout : value = none → name ∉ members.map (·.1)) (hnull : ∀ a, write a ≠ .null)
    (hread : ∀ a, Recovers (read (write a)) a (good a)) :
    Recovers (record.withDefault name none (nullable? read)) value (∀ a ∈ value, good a) := by
  cases value with
  | none =>
    rw [h.withDefault_eq_default (hout rfl)]
    exact (Recovers.of_eq_some rfl).congr (by simp)
  | some a =>
    rw [h.withDefault_eq (hmem _ List.mem_cons_self), nullable?_of_ne_null (hnull a)]
    exact ((hread a).map some).congr (by simp)

end Written

end Record

end Json

end LayerGraph
