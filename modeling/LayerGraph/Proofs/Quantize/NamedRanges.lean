import LayerGraph.Proofs.Quantize.StaticRanges
import Mathlib.Data.String.Basic

/-! # Named ranges

  Ranges that are given by the names of layers take the place of estimated ones. Main statement: a
  table is collected exactly when every name is that of a layer and every range is one, and then an
  output slot has the range listed for it, if its layer is the first of its name and the list is
  long enough, and the estimated range otherwise (`RangeTable.collect_overrides`).

  Two loops write the same table, which takes one range for each slot.

  - The first one records the lists. Names are not repeated, so each list goes to another layer, and
    no slot is written twice (`RecordsNamed.next`). A list may go on beyond the slots of its layer.
  - The second one records estimates, and passes over the slots that have a range
    (`outcome_recordEstimated`).
-/

namespace LayerGraph

/-! ### Tables of names -/

namespace NamedRanges

/-- No name is repeated. -/
def Distinct (named : NamedRanges) : Prop := (named.map Prod.fst).Nodup

/-- The names are in increasing order. -/
def Increasing (named : NamedRanges) : Prop := named.Pairwise fun entry entry' => entry.1 < entry'.1

instance (named : NamedRanges) : Decidable named.Distinct :=
  inferInstanceAs (Decidable (List.Nodup _))

theorem Increasing.distinct {named : NamedRanges} (h : named.Increasing) : named.Distinct := by
  unfold Distinct List.Nodup
  rw [List.pairwise_map]
  exact h.imp fun hlt => ne_of_lt hlt

theorem mem_insert {name : String} {ranges : List ValueRange} {named : NamedRanges}
    {entry : String × List ValueRange} (h : entry ∈ insert name ranges named) :
    entry = (name, ranges) ∨ entry ∈ named := by
  induction named with
  | nil => simpa [insert] using h
  | cons head rest ih =>
    simp only [insert] at h
    split_ifs at h with hbefore hsame
    · simpa using h
    · rcases List.mem_cons.mp h with heq | hrest
      · exact .inl heq
      · exact .inr (List.mem_cons_of_mem _ hrest)
    · rcases List.mem_cons.mp h with heq | hrest
      · exact .inr (heq ▸ List.mem_cons_self)
      · rcases ih hrest with heq | hmem
        · exact .inl heq
        · exact .inr (List.mem_cons_of_mem _ hmem)

/-- A name is put in its place. -/
theorem Increasing.insert {named : NamedRanges} (h : named.Increasing) (name : String)
    (ranges : List ValueRange) : Increasing (insert name ranges named) := by
  induction named with
  | nil => exact List.pairwise_singleton _ _
  | cons head rest ih =>
    have hrest : Increasing rest := List.Pairwise.of_cons h
    have hhead : ∀ entry ∈ rest, head.1 < entry.1 := (List.pairwise_cons.mp h).1
    simp only [NamedRanges.insert]
    split_ifs with hbefore hsame
    · refine List.pairwise_cons.mpr ⟨fun entry hentry => ?_, h⟩
      rcases List.mem_cons.mp hentry with rfl | hmem
      · exact hbefore
      · exact lt_trans hbefore (hhead entry hmem)
    · refine List.pairwise_cons.mpr ⟨fun entry hentry => ?_, hrest⟩
      rw [hsame]
      exact hhead entry hentry
    · refine List.pairwise_cons.mpr ⟨fun entry hentry => ?_, ih hrest⟩
      rcases mem_insert hentry with rfl | hmem
      · exact lt_of_le_of_ne (not_lt.mp hbefore) (Ne.symm hsame)
      · exact hhead entry hmem

/-- All entries are put in their places, one after the other. -/
theorem Increasing.foldl_insert {named : NamedRanges} (h : named.Increasing)
    (entries : List (String × List ValueRange)) : Increasing
      (entries.foldl (fun sorted entry => NamedRanges.insert entry.1 entry.2 sorted) named) := by
  induction entries generalizing named with
  | nil => exact h
  | cons entry entries ih => exact ih (h.insert entry.1 entry.2)

/-- Whatever names a document has, the table that is read has its names in order, and each of them
    once. -/
theorem increasing_of_parse? {text : String} {named : NamedRanges} (h : parse? text = some named) :
    named.Increasing := by
  obtain ⟨json, -, hjson⟩ := Option.bind_eq_some_iff.mp h
  cases json with
  | object members =>
    obtain ⟨entries, -, hsorted⟩ := Option.bind_eq_some_iff.mp hjson
    obtain rfl := Option.some.inj hsorted
    exact Increasing.foldl_insert List.Pairwise.nil entries
  | _ => cases hjson

end NamedRanges

namespace RangeTable

open Recording

variable {extent : RangeExtent} {g : Graph} {t t' estimated : RangeTable}
variable {id : LayerId} {l : Layer} {slot : Nat}
variable {named done : NamedRanges} {name : String} {ranges : List ValueRange}

/-! ### What names lead to -/

/-- The layer at the position is the first one with the name. -/
def FirstNamed (g : Graph) (name : String) (id : LayerId) (l : Layer) : Prop :=
  g.layers[id]? = some l ∧ l.name = name ∧ ∀ a < id, ∀ m, g.layers[a]? = some m → m.name ≠ name

theorem find?_eq_some_iff : g.layers.find? (·.name == name) = some l ↔
    ∃ id, FirstNamed g name id l := by
  rw [List.find?_eq_some_iff_getElem]
  constructor
  · rintro ⟨hname, id, hid, rfl, hbefore⟩
    refine ⟨id, List.getElem?_eq_getElem hid, by simpa using hname, fun a ha m hm => ?_⟩
    obtain ⟨_, rfl⟩ := List.getElem?_eq_some_iff.mp hm
    simpa using hbefore a ha
  · rintro ⟨id, hl, hname, hbefore⟩
    obtain ⟨hid, rfl⟩ := List.getElem?_eq_some_iff.mp hl
    refine ⟨by simpa using hname, id, hid, rfl, fun a ha => ?_⟩
    simpa using hbefore a ha _ (List.getElem?_eq_getElem (by omega))

/-- A name leads to one layer only. -/
theorem FirstNamed.unique {id' : LayerId} {l' : Layer} (h : FirstNamed g name id l)
    (h' : FirstNamed g name id' l') : id = id' ∧ l = l' := by
  obtain ⟨hl, hname, hbefore⟩ := h
  obtain ⟨hl', hname', hbefore'⟩ := h'
  have hid : id = id' := by
    rcases Nat.lt_trichotomy id id' with hlt | heq | hlt
    · exact absurd hname (hbefore' id hlt l hl)
    · exact heq
    · exact absurd hname' (hbefore id' hlt l' hl')
  subst hid
  exact ⟨rfl, Option.some.inj (hl.symm.trans hl')⟩

/-- The name leads to a layer, and the listed pairs are ranges: neither end is a NaN, and the
    greatest value is not below the least one. -/
def Usable (g : Graph) (entry : String × List ValueRange) : Prop :=
  (∃ l ∈ g.layers, l.name = entry.1) ∧ ∀ range ∈ entry.2,
    range.min.isNaN = false ∧ range.max.isNaN = false ∧ range.max.lt range.min = false

/-- An error that refuses an entry: no layer has the name, or a listed pair is no range. -/
def Refuses (g : Graph) (entry : String × List ValueRange) (e : QuantizationError) : Prop :=
  ((∀ l ∈ g.layers, l.name ≠ entry.1) ∧ e = .unknownLayerName entry.1) ∨
    ∃ range ∈ entry.2, Scheme.isRange range.min range.max = false ∧
      e = .invalidRange range.min range.max

theorem isRange_iff {range : ValueRange} : Scheme.isRange range.min range.max = true ↔
    range.min.isNaN = false ∧ range.max.isNaN = false ∧ range.max.lt range.min = false := by
  simp [Scheme.isRange, and_assoc]

/-- No two layers have the same identity. -/
theorem layer_unique (hg : g.Linked) {id' : LayerId} {l' : Layer} (hl : g.layers[id]? = some l)
    (hl' : g.layers[id']? = some l') (h : l.guid = l'.guid) : id = id' ∧ l = l' := by
  have hguid : g.guid? id = some l.guid := by rw [Graph.guid?, hl, Option.map_some]
  have hguid' : g.guid? id' = some l.guid := by rw [Graph.guid?, hl', Option.map_some, h]
  obtain rfl := hg.guid_injective hguid hguid'
  exact ⟨rfl, Option.some.inj (hl.symm.trans hl')⟩

/-- What refuses an entry is right. -/
theorem Refuses.not_usable {entry : String × List ValueRange} {e : QuantizationError}
    (h : Refuses g entry e) : ¬ Usable g entry := by
  rintro ⟨⟨l, hl, hname⟩, hranges⟩
  rcases h with ⟨hnone, -⟩ | ⟨range, hrange, hbad, -⟩
  · exact hnone l hl hname
  · rw [isRange_iff.mpr (hranges range hrange)] at hbad
    cases hbad

/-! ### The listed ranges -/

/-- The entries of a layer for the ranges of a list. -/
def listed (l : Layer) (ranges : List ValueRange) : List ((LayerGuid × Nat) × ValueRange) :=
  ranges.zipIdx.map fun entry => ((l.guid, entry.2), entry.1)

theorem mem_listed {guid : LayerGuid} {range : ValueRange} :
    ((guid, slot), range) ∈ listed l ranges ↔ guid = l.guid ∧ ranges[slot]? = some range := by
  simp only [listed, List.mem_map, Prod.exists, List.mem_zipIdx_iff_getElem?, Prod.mk.injEq]
  constructor
  · rintro ⟨range', slot', hrange, ⟨rfl, rfl⟩, rfl⟩
    exact ⟨rfl, hrange⟩
  · rintro ⟨rfl, hrange⟩
    exact ⟨range, slot, hrange, ⟨rfl, rfl⟩, rfl⟩

theorem nodup_listed (l : Layer) (ranges : List ValueRange) :
    ((listed l ranges).map Prod.fst).Nodup := by
  have hslots : ((listed l ranges).map Prod.fst).map Prod.snd = List.range ranges.length := by
    simp only [listed, List.map_map, Function.comp_def]
    exact List.zipIdx_map_snd 0 ranges |>.trans List.range_eq_range'.symm
  exact List.Nodup.of_map Prod.snd (hslots ▸ List.nodup_range)

theorem outcome_recordLayer : outcome (recordLayer g name ranges) t =
    match g.layers.find? (·.name == name) with
    | none => .error (.unknownLayerName name)
    | some l => (listed l ranges).foldlM
        (fun t entry => outcome (record entry.1.1 entry.1.2 entry.2) t) t := by
  unfold recordLayer
  cases g.layers.find? (·.name == name) with
  | none => rfl
  | some l =>
    show outcome (ranges.zipIdx.forM fun entry => record l.guid entry.2 entry.1) t =
      (listed l ranges).foldlM _ t
    rw [outcome_forM, listed, List.foldlM_map]

/-- The table holds what is listed for the names so far, and nothing else. -/
structure RecordsNamed (g : Graph) (done : NamedRanges) (t : RangeTable) : Prop where
  recorded : ∀ guid slot range, t.recorded? guid slot = some range ↔
    ∃ name ranges id l, (name, ranges) ∈ done ∧ FirstNamed g name id l ∧ l.guid = guid ∧
      ranges[slot]? = some range
  usable : ∀ entry ∈ done, Usable g entry

/-- The layers of two names are different, and so are their identities. -/
theorem RecordsNamed.unrecorded (h : RecordsNamed g done t) (hg : g.Linked)
    (hnew : name ∉ done.map Prod.fst) (hfirst : FirstNamed g name id l) (slot : Nat) :
    t.recorded? l.guid slot = none := by
  by_contra hsome
  obtain ⟨range, hrange⟩ := Option.ne_none_iff_exists'.mp hsome
  obtain ⟨name', ranges', id', l', hmem, ⟨hl', hname', -⟩, hguid, -⟩ :=
    (h.recorded _ _ _).mp hrange
  obtain ⟨-, rfl⟩ := layer_unique hg hfirst.1 hl' hguid.symm
  rw [hfirst.2.1] at hname'
  exact hnew (List.mem_map.mpr ⟨_, hmem, hname'.symm⟩)

/-- A table that gains what is listed for the first layer of a name. -/
theorem RecordsNamed.gain (h : RecordsNamed g done t) (hfirst : FirstNamed g name id l)
    (hgains : t.Gains (listed l ranges) t') : RecordsNamed g (done ++ [(name, ranges)]) t' := by
  constructor
  · intro guid slot range
    rw [hgains.recorded, h.recorded, mem_listed]
    constructor
    · rintro (⟨rfl, hrange⟩ | ⟨name', ranges', id', l', hmem, hrest⟩)
      · exact ⟨name, ranges, id, l, by simp, hfirst, rfl, hrange⟩
      · exact ⟨name', ranges', id', l', List.mem_append_left _ hmem, hrest⟩
    · rintro ⟨name', ranges', id', l', hmem, hfirst', hguid, hrange⟩
      rcases List.mem_append.mp hmem with hmem | hmem
      · exact .inr ⟨name', ranges', id', l', hmem, hfirst', hguid, hrange⟩
      · -- The name leads to one layer only, so what is listed for it is listed for this layer.
        obtain ⟨rfl, rfl⟩ := Prod.mk.inj (List.mem_singleton.mp hmem)
        obtain ⟨-, rfl⟩ := hfirst.unique hfirst'
        exact .inl ⟨hguid.symm, hrange⟩
  · intro entry hentry
    rcases List.mem_append.mp hentry with hentry | hentry
    · exact h.usable entry hentry
    · obtain rfl := List.mem_singleton.mp hentry
      refine ⟨⟨l, List.mem_of_getElem? hfirst.1, hfirst.2.1⟩, fun range hrange => ?_⟩
      obtain ⟨slot, hslot⟩ := List.mem_iff_getElem?.mp hrange
      exact isRange_iff.mp (hgains.isRange ((l.guid, slot), range) (mem_listed.mpr ⟨rfl, hslot⟩))

/-- The list of another name goes to a layer that has no ranges yet. -/
theorem RecordsNamed.next (ranges : List ValueRange) (h : RecordsNamed g done t) (hg : g.Linked)
    (hnew : name ∉ done.map Prod.fst) :
    Except.Ends (Refuses g (name, ranges)) (RecordsNamed g (done ++ [(name, ranges)]))
      (outcome (recordLayer g name ranges) t) := by
  rw [outcome_recordLayer]
  cases hfind : g.layers.find? (·.name == name) with
  | none =>
    refine .error (.inl ⟨fun l hl => ?_, rfl⟩)
    simpa using List.find?_eq_none.mp hfind l hl
  | some l =>
    obtain ⟨id, hfirst⟩ := find?_eq_some_iff.mp hfind
    have hfree : ∀ entry ∈ listed l ranges, t.recorded? entry.1.1 entry.1.2 = none := by
      rintro ⟨⟨guid, slot⟩, range⟩ hentry
      obtain ⟨rfl, -⟩ := mem_listed.mp hentry
      exact h.unrecorded hg hnew hfirst slot
    refine (ends_recordEach (nodup_listed l ranges) hfree ?_).mono fun t' => h.gain hfirst
    rintro ⟨⟨guid, slot⟩, range⟩ hentry hbad
    exact .inr ⟨range, List.mem_of_getElem? (mem_listed.mp hentry).2, hbad, rfl⟩

/-- All lists are recorded, unless an entry is refused. -/
theorem ends_recordNamed (hg : g.Linked) (hnames : named.Distinct)
    (defaultRange : Option ValueRange) :
    Except.Ends (fun e => ∃ entry ∈ named, Refuses g entry e) (RecordsNamed g named)
      (outcome (recordNamed g named) { defaultRange := defaultRange }) := by
  have hfold : outcome (recordNamed g named) { defaultRange := defaultRange } = named.foldlM
      (fun t entry => outcome (recordLayer g entry.1 entry.2) t)
      { defaultRange := defaultRange } := outcome_forM _ _ _
  rw [hfold]
  refine Except.Ends.foldlM (P := RecordsNamed g) ?_ ⟨by simp [recorded?], by simp⟩
  rintro done ⟨name, ranges⟩ after t rfl h
  have hnew : name ∉ done.map Prod.fst := by
    intro hmem
    unfold NamedRanges.Distinct at hnames
    rw [List.map_append, List.map_cons] at hnames
    exact List.disjoint_of_nodup_append hnames hmem List.mem_cons_self
  have hends := h.next ranges hg hnew
  generalize outcome (recordLayer g name ranges) t = x at hends ⊢
  cases hends with
  | ok hok => exact .ok hok
  | error herror => exact .error ⟨(name, ranges), by simp, herror⟩

/-! ### The estimated ranges -/

/-- Every slot of a graph, layer by layer. -/
def slotsOf (g : Graph) : List (LayerGuid × Nat) :=
  g.layers.flatMap fun l => (List.range l.outputs.length).map fun slot => (l.guid, slot)

theorem mem_slotsOf {guid : LayerGuid} :
    (guid, slot) ∈ slotsOf g ↔ ∃ l ∈ g.layers, l.guid = guid ∧ slot < l.outputs.length := by
  simp only [slotsOf, List.mem_flatMap, List.mem_map, List.mem_range, Prod.mk.injEq]
  constructor
  · rintro ⟨l, hl, slot', hslot, hguid, rfl⟩
    exact ⟨l, hl, hguid, hslot⟩
  · rintro ⟨l, hl, hguid, hslot⟩
    exact ⟨l, hl, slot, hslot, hguid, rfl⟩

/-- Records the estimated range of a slot, unless the slot has a range. -/
def fill (estimated : RangeTable) (guid : LayerGuid) (slot : Nat) : Recording Unit := do
  if ((← get).recorded? guid slot).isNone then
    if let some range := estimated.range? guid slot then record guid slot range

theorem outcome_recordEstimated : outcome (recordEstimated g estimated) t =
    (slotsOf g).foldlM (fun t slot => outcome (fill estimated slot.1 slot.2) t) t := by
  show outcome (g.layers.forM fun l =>
    (List.range l.outputs.length).forM fun slot => fill estimated l.guid slot) t = _
  rw [outcome_forM, slotsOf]
  induction g.layers generalizing t with
  | nil => rfl
  | cons l layers ih =>
    rw [List.foldlM_cons, List.flatMap_cons, List.foldlM_append, outcome_forM, List.foldlM_map]
    simp only [ih]

/-- A slot without a range gets the estimated one, which is a range. -/
theorem exists_fill (t : RangeTable) {guid : LayerGuid}
    (h : ∀ range, estimated.range? guid slot = some range →
      Scheme.isRange range.min range.max = true) :
    ∃ t', outcome (fill estimated guid slot) t = .ok t' ∧
      ∀ guid' slot', t'.recorded? guid' slot' = (t.recorded? guid' slot').or
        (if (guid', slot') = (guid, slot) then estimated.range? guid slot else none) := by
  cases hfree : t.recorded? guid slot with
  | some range =>
    -- The slot is passed over, and the range that it has stands in front of the estimate.
    refine ⟨t, by simp [outcome, fill, hfree], fun guid' slot' => ?_⟩
    split_ifs with heq
    · obtain ⟨rfl, rfl⟩ := Prod.mk.inj heq
      rw [hfree, Option.some_or]
    · rw [Option.or_none]
  | none =>
    cases hrange : estimated.range? guid slot with
    | none => exact ⟨t, by simp [outcome, fill, hrange], by simp⟩
    | some range =>
      refine ⟨t.add ((guid, slot), range), ?_, fun guid' slot' => ?_⟩
      · have hrecord : outcome (record guid slot range) t = .ok (t.add ((guid, slot), range)) := by
          rw [outcome_record, h range hrange, hfree]
          rfl
        rw [← hrecord]
        simp [outcome, fill, hfree, hrange]
      · rw [recorded?_add]
        split_ifs with heq
        · obtain ⟨rfl, rfl⟩ := Prod.mk.inj heq
          rw [hfree, Option.none_or]
        · rw [Option.or_none]

/-- Slots are filled one after the other, which never fails. -/
theorem exists_fillAll (t : RangeTable) {slots : List (LayerGuid × Nat)}
    (h : ∀ slot ∈ slots, ∀ range, estimated.range? slot.1 slot.2 = some range →
      Scheme.isRange range.min range.max = true) :
    ∃ t', slots.foldlM (fun t slot => outcome (fill estimated slot.1 slot.2) t) t = .ok t' ∧
      ∀ guid slot, t'.recorded? guid slot = (t.recorded? guid slot).or
        (if (guid, slot) ∈ slots then estimated.range? guid slot else none) := by
  induction slots generalizing t with
  | nil => exact ⟨t, rfl, by simp⟩
  | cons head slots ih =>
    obtain ⟨hhead, hslots⟩ := List.forall_mem_cons.mp h
    obtain ⟨u, hu, hfilled⟩ := exists_fill t hhead
    obtain ⟨t', ht', hrest⟩ := ih u hslots
    refine ⟨t', ?_, fun guid slot => ?_⟩
    · rw [List.foldlM_cons, Except.bind_eq_ok_iff]
      exact ⟨u, hu, ht'⟩
    · rw [hrest, hfilled, Option.or_assoc]
      congr 1
      by_cases heq : (guid, slot) = head
      · subst heq
        cases estimated.range? guid slot <;> simp
      · simp [heq]

/-! ### Both kinds of ranges -/

/-- A table holds the named ranges, and the estimated ones for the other slots. -/
structure Overrides (g : Graph) (named : NamedRanges) (estimated t : RangeTable) : Prop where
  /-- A slot of the first layer of a name has the range that is listed for it. -/
  listed : ∀ (id : LayerId) (l : Layer) (slot : Nat) (ranges : List ValueRange) (range : ValueRange),
    slot < l.outputs.length → FirstNamed g l.name id l → (l.name, ranges) ∈ named →
      ranges[slot]? = some range → t.recorded? l.guid slot = some range
  /-- A slot has the estimated range when its layer is not the first of its name, no ranges are
      listed for the name, or the list ends before the slot. -/
  unlisted : ∀ (id : LayerId) (l : Layer) (slot : Nat), g.layers[id]? = some l →
    slot < l.outputs.length →
      (FirstNamed g l.name id l → ∀ ranges, (l.name, ranges) ∈ named → ranges.length ≤ slot) →
      ∃ range, estimated.recorded? l.guid slot = some range ∧ t.recorded? l.guid slot = some range

/-- Estimates fill what the lists leave. -/
theorem RecordsNamed.overrides (h : RecordsNamed g named t) (hg : g.Linked)
    (hestimated : Follows extent g estimated)
    (hfilled : ∀ guid slot, t'.recorded? guid slot = (t.recorded? guid slot).or
      (if (guid, slot) ∈ slotsOf g then estimated.range? guid slot else none)) :
    Overrides g named estimated t' := by
  constructor
  · intro id l slot ranges range _ hfirst hmem hrange
    rw [hfilled, (h.recorded _ _ _).mpr ⟨l.name, ranges, id, l, hmem, hfirst, rfl, hrange⟩,
      Option.some_or]
  · intro id l slot hl hslot hshort
    have hsome := (hestimated.isSome_recorded l.guid slot).mpr ⟨id, l, hl, rfl, hslot⟩
    obtain ⟨range, hrange⟩ := Option.isSome_iff_exists.mp hsome
    -- A list that reaches the slot would be one for its layer.
    have hnone : t.recorded? l.guid slot = none := by
      by_contra hne
      obtain ⟨range', hrange'⟩ := Option.ne_none_iff_exists'.mp hne
      obtain ⟨name, ranges, id', l', hmem, hfirst, hguid, hslot'⟩ :=
        (h.recorded _ _ _).mp hrange'
      obtain ⟨rfl, rfl⟩ := layer_unique hg hl hfirst.1 hguid.symm
      obtain rfl : l.name = name := hfirst.2.1
      have hlt := (List.getElem?_eq_some_iff.mp hslot').1
      exact absurd (hshort hfirst ranges hmem) (by omega)
    refine ⟨range, hrange, ?_⟩
    rw [hfilled, hnone, Option.none_or,
      if_pos (mem_slotsOf.mpr ⟨l, List.mem_of_getElem? hl, rfl, hslot⟩), range?, hrange,
      Option.some_or]

/-- Ranges are collected, unless an entry is refused. -/
theorem ends_collect (hg : g.Linked) (hestimate : estimate extent g = .ok estimated)
    (hnames : named.Distinct) :
    Except.Ends (fun e => ∃ entry ∈ named, Refuses g entry e)
      (fun t => (∀ entry ∈ named, Usable g entry) ∧ Overrides g named estimated t)
      (collect extent g named) := by
  have hestimated : Follows extent g estimated :=
    ((ends_estimate extent hg).post_of_ok hestimate).follows hg
  have hcollect : collect extent g named =
      outcome (recordNamed g named) { defaultRange := some (.usual extent) } >>= fun t =>
        outcome (recordEstimated g estimated) t := by
    rw [← outcome_bind (recordNamed g named) fun _ => recordEstimated g estimated]
    unfold collect
    rw [hestimate]
    rfl
  rw [hcollect]
  refine (ends_recordNamed hg hnames _).bind fun t _ hnamed => ?_
  -- The estimated range of a slot is the recorded one, which is a range.
  have hranges : ∀ slot ∈ slotsOf g, ∀ range, estimated.range? slot.1 slot.2 = some range →
      Scheme.isRange range.min range.max = true := by
    rintro ⟨guid, slot⟩ hmem range hrange
    obtain ⟨l, hl, hguid, hslot⟩ := mem_slotsOf.mp hmem
    obtain ⟨id, hid⟩ := List.mem_iff_getElem?.mp hl
    have hsome := (hestimated.isSome_recorded guid slot).mpr ⟨id, l, hid, hguid, hslot⟩
    obtain ⟨range', hrange'⟩ := Option.isSome_iff_exists.mp hsome
    rw [range?, hrange', Option.some_or] at hrange
    exact hestimated.isRange guid slot range (hrange'.trans hrange)
  obtain ⟨t', ht', hfilled⟩ := exists_fillAll t hranges
  rw [outcome_recordEstimated, ht']
  exact .ok ⟨hnamed.usable, hnamed.overrides hg hestimated hfilled⟩

/-- Named ranges take the place of estimated ones, and leave the others as they are. All that can
    fail is an entry whose name no layer has, or with a pair that is no range; no slot is given two
    ranges, whatever layers share a name and however long a list is. -/
theorem collect_overrides (hg : g.Linked) (hestimate : estimate extent g = .ok estimated)
    (hnames : named.Distinct) :
    ((∃ t, collect extent g named = .ok t) ↔ ∀ entry ∈ named, Usable g entry) ∧
      (∀ t, collect extent g named = .ok t → Overrides g named estimated t) ∧
      (∀ e, collect extent g named = .error e → ∃ entry ∈ named, Refuses g entry e) ∧
      ∀ guid slot, collect extent g named ≠ .error (.rangeAlreadyRecorded guid slot) := by
  have hends := ends_collect hg hestimate hnames
  have hrefused (e : QuantizationError) (he : collect extent g named = .error e) :
      ∃ entry ∈ named, Refuses g entry e := hends.fails_of_error he
  refine ⟨⟨?_, ?_⟩, fun t ht => (hends.post_of_ok ht).2, hrefused, ?_⟩
  · rintro ⟨t, ht⟩
    exact (hends.post_of_ok ht).1
  · intro husable
    cases hcollect : collect extent g named with
    | ok t => exact ⟨t, rfl⟩
    | error e =>
      obtain ⟨entry, hentry, hrefuses⟩ := hrefused e hcollect
      exact absurd (husable entry hentry) hrefuses.not_usable
  · intro guid slot he
    obtain ⟨entry, -, ⟨-, hunknown⟩ | ⟨range, -, -, hinvalid⟩⟩ := hrefused _ he
    · cases hunknown
    · cases hinvalid

/-- A tensor is taken apart, and functions of its two parts have one name. -/
def namesakes : Graph :=
  ((Session.start .initial).run [.addLayer (.input 0) "x",
    .addLayer (.splitter ⟨[[0], [1]], [[1], [1]]⟩) "parts",
    .addLayer (.activation ⟨.tanH, .zero, .zero⟩) "f",
    .addLayer (.activation ⟨.sigmoid, .zero, .zero⟩) "f",
    .connect ⟨0, 0⟩ ⟨1, 0⟩, .connect ⟨1, 0⟩ ⟨2, 0⟩, .connect ⟨1, 1⟩ ⟨3, 0⟩]).graph

/-- A list that is too short for the parts, and one that is too long for the functions, as they are
    read from the document `{"parts": [[-1, 2]], "f": [[-4, 4], [0, 8]]}`. -/
def listsOfNamesakes : NamedRanges :=
  [("f", [⟨.ofInt (-4), 4⟩, ⟨.zero, 8⟩]), ("parts", [⟨.ofInt (-1), 2⟩])]

/-- The second part has its estimate still, and so has the second function. What is refused is a
    pair that is no range. -/
theorem collect_overrides_namesakes :
    (∃ estimated t, estimate .standard namesakes = .ok estimated ∧
      collect .standard namesakes listsOfNamesakes = .ok t ∧
      Overrides namesakes listsOfNamesakes estimated t ∧
      t.recorded? ⟨2⟩ 0 = some ⟨.ofInt (-1), 2⟩ ∧ t.recorded? ⟨2⟩ 1 = some (.usual .standard) ∧
      t.recorded? ⟨3⟩ 0 = some ⟨.ofInt (-4), 4⟩ ∧ t.recorded? ⟨4⟩ 0 = some ⟨.zero, 1⟩) ∧
    ∃ e, collect .standard namesakes [("f", [⟨1, .zero⟩])] = .error e ∧
      Refuses namesakes ("f", [⟨1, .zero⟩]) e := by
  have hlinked : namesakes.Linked := ((Session.sound_start .initial).run _).coherent.linked
  have hparse : NamedRanges.parse?
      "\x7b\"parts\": [[-1, 2]], \"f\": [[-4, 4], [0, 8]]\x7d" = some listsOfNamesakes := by
    decide +kernel
  have hnames := (NamedRanges.increasing_of_parse? hparse).distinct
  have hestimates : (estimate .standard namesakes).toOption.isSome = true := by decide +kernel
  obtain ⟨estimated, hestimated⟩ := Option.isSome_iff_exists.mp hestimates
  have hestimate := Except.toOption_eq_some_iff.mp hestimated
  constructor
  · have hranges : (collect .standard namesakes listsOfNamesakes).toOption.any (fun t =>
        t.recorded? ⟨2⟩ 0 == some ⟨.ofInt (-1), 2⟩ &&
        t.recorded? ⟨2⟩ 1 == some (.usual .standard) &&
        t.recorded? ⟨3⟩ 0 == some ⟨.ofInt (-4), 4⟩ && t.recorded? ⟨4⟩ 0 == some ⟨.zero, 1⟩) =
          true := by
      decide +kernel
    obtain ⟨t, ht, hranges⟩ := (Option.any_eq_true _ _).mp hranges
    simp only [Bool.and_eq_true, beq_iff_eq, and_assoc] at hranges
    have hcollect := Except.toOption_eq_some_iff.mp ht
    have hoverrides := (collect_overrides hlinked hestimate hnames).2.1 t hcollect
    exact ⟨estimated, t, hestimate, hcollect, hoverrides, hranges⟩
  · cases he : collect .standard namesakes [("f", [⟨1, .zero⟩])] with
    | ok t =>
      have hnone : (collect .standard namesakes [("f", [⟨1, .zero⟩])]).toOption.isNone = true := by
        decide +kernel
      rw [he] at hnone
      cases hnone
    | error e =>
      obtain ⟨entry, hentry, hrefuses⟩ :=
        (collect_overrides hlinked hestimate (by decide)).2.2.1 e he
      exact ⟨e, rfl, List.mem_singleton.mp hentry ▸ hrefuses⟩

end RangeTable

end LayerGraph
