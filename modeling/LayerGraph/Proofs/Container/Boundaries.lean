import LayerGraph.Proofs.Container.Soundness

/-! # The lists of inputs and outputs of a container

  A container ends with two lists, which put its inputs and its outputs in order. An entry is a
  binding or, in old containers, the number of a record (`Designates`).

  The numbers of old containers are turned into bindings before they are looked up on the side of
  the list. Inputs and outputs have bindings of their own, which may be the same, so an entry leads
  to the layer of that side with the binding of what it designates (`LeadsTo`). Main statement: the
  lists of an accepted container lead to the inputs and to the outputs, each of them once. These
  are the layers designated exactly when no entry designates a layer of the other side or none
  (`Graph.ends_deserialize_boundaries`).
-/

namespace LayerGraph

namespace Container

open Codec

variable {bytes : List UInt8} {features : Features} {g : Graph} {supply supply' : GuidSupply}
variable {s s' : Loading} {records : List LayerRecord} {direction : Direction}

/-! ### What entries mean -/

/-- The record is that of an input, or of an output, with the binding. -/
def BoundAs (records : List LayerRecord) (direction : Direction) (b : BindingId) (layer : LayerId) :
    Prop := ∃ r, records[layer]? = some r ∧ r.kind = direction.kind b

/-- The entry of the list of a side designates the layer. In old containers it is the number of its
    record, otherwise its binding. -/
def Designates (features : Features) (records : List LayerRecord) (direction : Direction)
    (entry : Int32) (layer : LayerId) : Prop :=
  if features.bindingIds = 0 then
    ∃ r, records[layer]? = some r ∧ (r.number.toNat : Int) = entry.toInt
  else BoundAs records direction entry layer

/-- The layer has, on the side of the list, the binding that what the entry designates has on any
    side. -/
def LeadsTo (features : Features) (records : List LayerRecord) (direction : Direction)
    (entry : Int32) (layer : LayerId) : Prop :=
  ∃ designated side b, Designates features records direction entry designated ∧
    BoundAs records side b designated ∧ BoundAs records direction b layer

/-- What a container stores: its records, and behind them the lists of both sides up to the last
    byte. The layers of the graph are the records. -/
structure Stores (bytes : List UInt8) (g : Graph) (features : Features)
    (records : List LayerRecord) (list : Direction → List Int32) : Prop where
  parts : ∃ count start stop middle last,
    readPreamble.run (.start bytes) = .ok ((features, count), start) ∧
    (readRecords features g [] count).run start = .ok (records, stop) ∧
    int32s.read.run stop = .ok (list .input, middle) ∧
    int32s.read.run middle = .ok (list .output, last) ∧ last.rest = []
  layers : ∀ k, g.content? k = records[k]?.map LayerRecord.content

/-- A list that puts the layers of its side in order. -/
structure Orders (features : Features) (records : List LayerRecord) (direction : Direction)
    (entries : List Int32) (ids : List LayerId) : Prop where
  /-- No layer is missing, and none is there twice. -/
  nodup : ids.Nodup
  mem_iff : ∀ id, id ∈ ids ↔ ∃ b, BoundAs records direction b id
  /-- The entries lead to the layers, in their order. -/
  leads : List.Forall₂ (LeadsTo features records direction) entries ids
  /-- They designate them when they designate layers of their side, which bindings always do. -/
  designates_iff : List.Forall₂ (Designates features records direction) entries ids ↔
    ∀ entry ∈ entries, ∃ id b, Designates features records direction entry id ∧
      BoundAs records direction b id
  designates_of_bindings : features.bindingIds ≠ 0 →
    List.Forall₂ (Designates features records direction) entries ids

/-! ### Numbers of records -/

/-- The numbers of records lead to their positions. By induction on the number of records: each of
    them has a number that is new. -/
theorem lookup_numberAll {numbering : Numbering} {count : Nat} {c c' : Cursor}
    (hread : (readRecords features g numbering count).run c = .ok (records, c'))
    (number : UInt32) (layer : LayerId) :
    (numberAll numbering records).lookup number = some layer ↔
      numbering.lookup number = some layer ∨
        ∃ k r, records[k]? = some r ∧ r.number = number ∧ layer = numbering.length + k := by
  induction count generalizing numbering records c with
  | zero =>
    cases hread
    simp [numberAll]
  | succ count ih =>
    obtain ⟨r, c₁, hhead, hread⟩ := Read.bind_eq_ok_iff.mp hread
    obtain ⟨rest, c₂, hrest, hread⟩ := Read.bind_eq_ok_iff.mp hread
    cases hread
    obtain ⟨_, _, _, hloaded⟩ := yields_record c r c₁ hhead
    have hnew := hloaded.new
    show (numberAll ((r.number, numbering.length) :: numbering) rest).lookup number = _ ↔ _
    -- The newest entry is found first, and it hides none, since its number is new.
    have hcons : List.lookup number ((r.number, numbering.length) :: numbering) = some layer ↔
        numbering.lookup number = some layer ∨ r.number = number ∧ layer = numbering.length := by
      rw [List.lookup_cons]
      by_cases hnumber : number = r.number
      · subst hnumber
        simp [hnew, eq_comm]
      · simp [beq_eq_false_iff_ne.mpr hnumber, Ne.symm hnumber]
    rw [ih hrest, hcons, or_assoc, List.length_cons]
    refine or_congr_right ?_
    constructor
    · rintro (⟨hnumber, hlayer⟩ | ⟨k, r', hk, hnumber, hlayer⟩)
      · exact ⟨0, r, rfl, hnumber, hlayer⟩
      · exact ⟨k + 1, r', hk, hnumber, by lia⟩
    · rintro ⟨k, r', hk, hnumber, hlayer⟩
      cases k with
      | zero =>
        cases hk
        exact .inl ⟨hnumber, hlayer⟩
      | succ k => exact .inr ⟨k, r', hk, hnumber, by lia⟩

/-- The records have been read, and are the layers of the graph. -/
structure Loading.Holds (s : Loading) (records : List LayerRecord) : Prop where
  coherent : s.graph.Coherent
  layers : ∀ k, s.graph.content? k = records[k]?.map LayerRecord.content
  numbers : ∀ number layer, s.numbering.lookup number = some layer ↔
    ∃ r, records[layer]? = some r ∧ r.number = number

theorem Loading.Holds.kind?_eq_some_iff (h : s.Holds records) {b : BindingId} {layer : LayerId} :
    s.graph.kind? layer = some (direction.kind b) ↔ BoundAs records direction b layer := by
  rw [Graph.kind?_eq_content?, h.layers, Option.map_map, Option.map_eq_some_iff]
  rfl

theorem Loading.Holds.binding?_eq_some_iff (h : s.Holds records) {b : BindingId}
    {layer : LayerId} :
    s.graph.binding? layer = some b ↔ ∃ side, BoundAs records side b layer := by
  simp only [← h.kind?_eq_some_iff, Graph.binding?_eq_bind_kind?, Option.bind_eq_some_iff]
  constructor
  · rintro ⟨kind, hkind, hb⟩
    cases kind with
    | input b' =>
      cases hb
      exact ⟨.input, hkind⟩
    | output b' =>
      cases hb
      exact ⟨.output, hkind⟩
    | _ => cases hb
  · rintro ⟨side, hkind⟩
    exact ⟨_, hkind, by simp⟩

/-- Layers of one side with one binding are the same. -/
theorem Loading.Holds.unique (h : s.Holds records) {b : BindingId} {layer layer' : LayerId}
    (hlayer : BoundAs records direction b layer) (hlayer' : BoundAs records direction b layer') :
    layer = layer' :=
  h.coherent.kind_injective (h.kind?_eq_some_iff.mpr hlayer) (h.kind?_eq_some_iff.mpr hlayer')

/-- A number designates one layer only, and so does a binding. -/
theorem Loading.Holds.designates_unique (h : s.Holds records) {entry : Int32}
    {layer layer' : LayerId} (hlayer : Designates features records direction entry layer)
    (hlayer' : Designates features records direction entry layer') : layer = layer' := by
  unfold Designates at hlayer hlayer'
  by_cases hold : features.bindingIds = 0
  · rw [if_pos hold] at hlayer hlayer'
    obtain ⟨r, hr, hnumber⟩ := hlayer
    obtain ⟨r', hr', hnumber'⟩ := hlayer'
    have hsame : r.number = r'.number := by
      rw [← UInt32.toNat_inj]
      omega
    have hlookup := (h.numbers r.number layer).mpr ⟨r, hr, rfl⟩
    rw [(h.numbers r.number layer').mpr ⟨r', hr', hsame.symm⟩] at hlookup
    exact (Option.some.inj hlookup).symm
  · rw [if_neg hold] at hlayer hlayer'
    exact h.unique hlayer hlayer'

/-! ### From entries to layers -/

/-- An entry is looked up as a number when it is not negative. -/
theorem toUInt32_eq_iff (entry : Int32) (number : UInt32) :
    (¬ entry < 0 ∧ entry.toUInt32 = number) ↔ (number.toNat : Int) = entry.toInt := by
  have hneg : ¬ entry < 0 ↔ 0 ≤ entry.toInt := by
    rw [Int32.lt_iff_toInt_lt]
    exact Int.not_lt
  have hcases : entry.toInt = if 2 * entry.toUInt32.toNat < 2 ^ 32 then
      (entry.toUInt32.toNat : Int) else entry.toUInt32.toNat - 2 ^ 32 :=
    BitVec.toInt_eq_toNat_cond entry.toBitVec
  have hlt := entry.toUInt32.toNat_lt
  have hlt' := number.toNat_lt
  rw [hneg, ← UInt32.toNat_inj]
  split at hcases <;> omega

/-- The binding that an entry is turned into is the one of what it designates. -/
theorem Loading.Holds.boundaryBinding_eq_ok_iff (h : s.Holds records) {offset : Nat}
    {entry : Int32} {b : BindingId} {layer : LayerId} (hlayer : BoundAs records direction b layer) :
    boundaryBinding features s offset entry = .ok b ↔
      ∃ designated side, Designates features records direction entry designated ∧
        BoundAs records side b designated := by
  unfold boundaryBinding Designates
  -- In the old format an entry is the number of a record, in the new one it is a binding.
  by_cases hold : features.bindingIds = 0
  · rw [if_neg (not_not.mpr hold)]
    simp only [if_pos hold, ← toUInt32_eq_iff]
    constructor
    · intro hbinding
      split at hbinding
      · next binding hfound =>
        cases hbinding
        obtain ⟨designated, hlookup, hb⟩ := Option.bind_eq_some_iff.mp hfound
        split at hlookup
        · cases hlookup
        · next hnonneg =>
          obtain ⟨r, hr, hnumber⟩ := (h.numbers _ _).mp hlookup
          obtain ⟨side, hside⟩ := h.binding?_eq_some_iff.mp hb
          exact ⟨designated, side, ⟨r, hr, hnonneg, hnumber.symm⟩, hside⟩
      · cases hbinding
    · rintro ⟨designated, side, ⟨r, hr, hnonneg, hnumber⟩, hside⟩
      have hlookup := (h.numbers _ _).mpr ⟨r, hr, hnumber.symm⟩
      have hb := h.binding?_eq_some_iff.mpr ⟨side, hside⟩
      simp only [if_neg hnonneg, hlookup, Option.bind_some, hb]
  · rw [if_pos hold]
    simp only [if_neg hold, Except.ok.injEq]
    constructor
    · rintro rfl
      exact ⟨layer, direction, hlayer, hlayer⟩
    · rintro ⟨designated, side, ⟨r, hr, hkind⟩, r', hr', hkind'⟩
      rw [hr] at hr'
      cases hr'
      rw [hkind] at hkind'
      cases direction <;> cases side <;> cases hkind' <;> rfl

/-- An entry is turned into the binding of a layer of its side exactly when it leads there. -/
theorem Loading.Holds.leadsTo_iff (h : s.Holds records) (offset : Nat) {entry : Int32}
    {layer : LayerId} :
    LeadsTo features records direction entry layer ↔
      ∃ b, boundaryBinding features s offset entry = .ok b ∧ BoundAs records direction b layer := by
  constructor
  · rintro ⟨designated, side, b, hdesignates, hside, hlayer⟩
    exact ⟨b, (h.boundaryBinding_eq_ok_iff hlayer).mpr ⟨designated, side, hdesignates, hside⟩,
      hlayer⟩
  · rintro ⟨b, hbinding, hlayer⟩
    obtain ⟨designated, side, hdesignates, hside⟩ :=
      (h.boundaryBinding_eq_ok_iff hlayer).mp hbinding
    exact ⟨designated, side, b, hdesignates, hside, hlayer⟩

/-- On its side a layer is found by the binding of its record. -/
theorem Loading.Holds.findBinding?_eq_some_iff (h : s.Holds records) {b : BindingId}
    {layer : LayerId} :
    s.graph.findBinding? direction b = some layer ↔ BoundAs records direction b layer := by
  rw [h.coherent.findBinding?_eq_some_iff, h.coherent.mem_boundary, ← h.kind?_eq_some_iff,
    Graph.binding?_eq_bind_kind?]
  constructor
  · rintro ⟨⟨b', hkind⟩, hb⟩
    rw [hkind, Option.bind_some, Graph.binding?_directionKind] at hb
    cases hb
    exact hkind
  · intro hkind
    exact ⟨⟨b, hkind⟩, by rw [hkind, Option.bind_some, Graph.binding?_directionKind]⟩

/-- A list is accepted exactly when its entries lead to the layers of its side, each of them once.
    These are then in the order of the entries. -/
theorem Loading.Holds.loadBoundary_eq_ok_iff (h : s.Holds records) :
    loadBoundary features direction s = .ok s' ↔
      ∃ entries cursor ids, int32s.read.run s.cursor = .ok (entries, cursor) ∧
        ids.Perm (s.graph.boundary direction) ∧
        List.Forall₂ (LeadsTo features records direction) entries ids ∧
        s' = ⟨cursor, s.numbering, s.graph.setBoundary direction ids⟩ := by
  have hfind (order : List BindingId) (ids : List LayerId) :
      s.graph.arrangement direction order = .ok ids ↔
        ids.Perm (s.graph.boundary direction) ∧
          List.Forall₂ (fun id b => BoundAs records direction b id) ids order := by
    constructor
    · intro harrange
      obtain ⟨-, -, hids⟩ := Graph.arrangement_eq_ok_iff_forall₂.mp harrange
      simp only [h.findBinding?_eq_some_iff] at hids
      exact ⟨Graph.perm_of_arrangement harrange, hids⟩
    · rintro ⟨hperm, hids⟩
      simp only [Graph.arrangement_eq_ok_iff_forall₂, h.findBinding?_eq_some_iff]
      exact ⟨hperm.nodup_iff.mpr (h.coherent.boundary_nodup direction), hperm.length_eq, hids⟩
  have hleads (entries : List Int32) (ids : List LayerId) :
      List.Forall₂ (LeadsTo features records direction) entries ids ↔
        ∃ order, entries.mapM (boundaryBinding features s s.cursor.offset) = .ok order ∧
          List.Forall₂ (fun id b => BoundAs records direction b id) ids order := by
    have hlead : LeadsTo features records direction = fun entry id =>
        ∃ b, boundaryBinding features s s.cursor.offset entry = .ok b ∧
          BoundAs records direction b id := by
      funext entry id
      exact propext (h.leadsTo_iff s.cursor.offset)
    simp only [Except.mapM_eq_ok_iff, forall₂_comp_iff, hlead]
  constructor
  · intro hload
    obtain ⟨⟨entries, cursor⟩, hread, hload⟩ := Except.bind_eq_ok_iff.mp hload
    obtain ⟨order, horder, hload⟩ := Except.bind_eq_ok_iff.mp hload
    cases hreorder : s.graph.reorder direction order with
    | error cause =>
      simp only [hreorder] at hload
      cases hload
    | ok g =>
      simp only [hreorder] at hload
      obtain rfl := Except.pure_eq_ok_iff.mp hload
      obtain ⟨ids, harrange, rfl⟩ := Graph.reorder_eq_ok_iff.mp hreorder
      obtain ⟨hperm, hids⟩ := (hfind order ids).mp harrange
      have hall := (hleads entries ids).mpr ⟨order, horder, hids⟩
      exact ⟨entries, cursor, ids, hread, hperm, hall, rfl⟩
  · rintro ⟨entries, cursor, ids, hread, hperm, hall, rfl⟩
    obtain ⟨order, horder, hids⟩ := (hleads entries ids).mp hall
    have hreorder : s.graph.reorder direction order = .ok (s.graph.setBoundary direction ids) :=
      Graph.reorder_eq_ok_iff.mpr ⟨ids, (hfind order ids).mpr ⟨hperm, hids⟩, rfl⟩
    refine Except.bind_eq_ok_iff.mpr ⟨(entries, cursor), hread, ?_⟩
    refine Except.bind_eq_ok_iff.mpr ⟨order, horder, ?_⟩
    simp only [hreorder]
    rfl

/-- What comes of putting the layers of a side in another order. -/
theorem Loading.Holds.setBoundary (h : s.Holds records) {ids : List LayerId}
    (hperm : ids.Perm (s.graph.boundary direction)) (cursor : Cursor) :
    Loading.Holds ⟨cursor, s.numbering, s.graph.setBoundary direction ids⟩ records where
  coherent := h.coherent.setBoundary hperm
  layers := by
    intro k
    rw [← h.layers k]
    exact congrFun (Graph.content?_of_layers (Graph.layers_setBoundary direction ids)) k
  numbers := h.numbers

/-- A list that was accepted puts the layers of its side in order. -/
theorem Loading.Holds.orders (h : s.Holds records) {entries : List Int32} {ids : List LayerId}
    (hperm : ids.Perm (s.graph.boundary direction))
    (hleads : List.Forall₂ (LeadsTo features records direction) entries ids) :
    Orders features records direction entries ids where
  nodup := hperm.nodup_iff.mpr (h.coherent.boundary_nodup direction)
  mem_iff := by
    intro id
    simp only [hperm.mem_iff, h.coherent.mem_boundary, h.kind?_eq_some_iff]
  leads := hleads
  designates_iff := by
    constructor
    · intro hall entry hentry
      obtain ⟨id, hid, hdesignates⟩ := exists_mem_of_forall₂ hall.flip hentry
      rw [hperm.mem_iff, h.coherent.mem_boundary] at hid
      obtain ⟨b, hkind⟩ := hid
      exact ⟨id, b, hdesignates, h.kind?_eq_some_iff.mp hkind⟩
    · intro hside
      -- What is designated is on the side of the list, so it is the layer that has its binding.
      have hsame (entry : Int32) (id : LayerId) (hentry : entry ∈ entries)
          (hlead : LeadsTo features records direction entry id) :
          Designates features records direction entry id := by
        obtain ⟨designated, side, b, hdesignates, ⟨r, hr, hkind⟩, hid⟩ := hlead
        obtain ⟨id', b', hdesignates', r', hr', hkind'⟩ := hside entry hentry
        obtain rfl := h.designates_unique hdesignates hdesignates'
        rw [hr] at hr'
        cases hr'
        rw [hkind] at hkind'
        have hb : BoundAs records direction b designated := by
          refine ⟨r, hr, ?_⟩
          rw [hkind]
          cases direction <;> cases side <;> cases hkind' <;> rfl
        rwa [h.unique hid hb]
      exact (List.forall₂_and_left _ _).mpr ⟨fun _ h => h, hleads⟩ |>.imp
        fun entry id hlead => hsame entry id hlead.1 hlead.2
  designates_of_bindings := by
    intro hnew
    refine hleads.imp fun entry id hlead => ?_
    obtain ⟨designated, side, b, hdesignates, ⟨r, hr, hkind⟩, hid⟩ := hlead
    rw [Designates, if_neg hnew] at hdesignates ⊢
    obtain ⟨r', hr', hkind'⟩ := hdesignates
    rw [hr] at hr'
    cases hr'
    rw [hkind] at hkind'
    have hb : b = entry := by cases direction <;> cases side <;> cases hkind' <;> rfl
    rwa [← hb]

/-! ### The whole container -/

/-- The records are the layers before the lists are read. -/
theorem exists_holds {count : Nat} {start : Cursor}
    (hload : (loadLayers features count ⟨start, [], .empty⟩).run supply = .ok s supply')
    (hg : g.content? = s.graph.content?) :
    ∃ records, (readRecords features g [] count).run start = .ok (records, s.cursor) ∧
      s.Holds records := by
  obtain ⟨records, hread, -, hnumbering, hlayers⟩ :=
    exists_records (Session.sound_start supply) (numbered_start start) hload hg
  obtain ⟨hgathered, -⟩ :=
    (gathered_empty (decide (features.weightsLayout = 0)) supply).loadLayers hload
  refine ⟨records, hread, hgathered.sound.coherent, ?_, ?_⟩
  · intro k
    rw [← hg, hlayers]
    rfl
  · intro number layer
    rw [hnumbering, lookup_numberAll hread]
    simp

/-- The lists that were read put the layers of both sides in order. -/
theorem exists_orders (h : (Graph.deserialize bytes).run supply = .ok g supply') :
    ∃ features records list, Stores bytes g features records list ∧
      ∀ direction, Orders features records direction (list direction) (g.boundary direction) := by
  obtain ⟨features, count, start, s, s₁, s₂, hpreamble, hlayers, hload₁, hload₂, hend⟩ :=
    deserialize_parts h
  -- What comes behind the records does not change the layers.
  obtain ⟨hs, -⟩ :=
    (gathered_empty (decide (features.weightsLayout = 0)) supply).loadLayers hlayers
  obtain ⟨_, -, hreordered₁⟩ := reordered_of_loadBoundary hs.sound.coherent hload₁
  obtain ⟨_, -, hreordered₂⟩ := reordered_of_loadBoundary hreordered₁.coherent hload₂
  obtain ⟨rfl, hrest, -⟩ := checkEnd_eq_ok hend
  have hsame : s₂.graph.layers = s.graph.layers := hreordered₂.layers.trans hreordered₁.layers
  obtain ⟨records, hread, hholds⟩ := exists_holds hlayers (Graph.content?_of_layers hsame)
  -- Each list is read from where the one before it ends.
  obtain ⟨inputs, middle, ids, hinputs, hperm, hleads, rfl⟩ :=
    hholds.loadBoundary_eq_ok_iff.mp hload₁
  have hholds₁ := hholds.setBoundary hperm middle
  obtain ⟨outputs, last, ids', houtputs, hperm', hleads', rfl⟩ :=
    hholds₁.loadBoundary_eq_ok_iff.mp hload₂
  have hholds₂ := hholds₁.setBoundary hperm' last
  refine ⟨features, records, fun direction => if direction = .input then inputs else outputs,
    ⟨⟨count, start, s.cursor, middle, last, hpreamble, hread, hinputs, houtputs, hrest⟩,
      hholds₂.layers⟩, ?_⟩
  intro direction
  cases direction with
  | input => exact hholds.orders hperm hleads
  | output => exact hholds₁.orders hperm' hleads'

end Container

namespace Graph

open Container

/-- Whatever the bytes are, they are refused at a place in them, or their lists put the inputs and
    the outputs in order: the entries lead to all layers of their side, to each of them once. So no
    container is accepted whose lists lead anywhere else. -/
theorem ends_deserialize_boundaries (bytes : List UInt8) (supply : GuidSupply) :
    Build.Ends (ContainerError.In bytes)
      (fun g _ => ∃ features records list, Stores bytes g features records list ∧
        ∀ direction, Orders features records direction (list direction) (g.boundary direction))
      ((deserialize bytes).run supply) := by
  have hends := ends_in_bytes bytes supply
  cases hrun : (deserialize bytes).run supply with
  | error e t =>
    rw [hrun] at hends
    exact .error (hends.fails_of_error rfl)
  | ok g t => exact .ok (exists_orders hrun)

/-- An old container with an input and an output of the same binding. The list of inputs has the
    number of the output, and the list of outputs that of the input. -/
def crossed : List UInt8 := [
  -- A table without features, and two records.
  78, 78, 73, 82, 1, 0, 0, 0, 0, 0, 0, 0, 2, 0, 0, 0,
  -- The input is number 5 and has binding 3.
  0, 0, 5, 0, 0, 0, 1, 0, 0, 0, 120, 0, 0, 0, 0, 1, 0, 0, 0, 0, 0, 0, 0, 1, 0, 0, 0, 0, 1, 0, 0, 0,
  0, 0, 128, 63, 0, 0, 0, 0, 255, 255, 255, 255, 0, 4, 0, 0, 0, 3, 0, 0, 0,
  -- So has the output, which is number 6.
  1, 0, 6, 0, 0, 0, 1, 0, 0, 0, 121, 1, 0, 0, 0, 0, 0, 0, 0, 5, 0, 0, 0, 0, 0, 0, 0, 0, 0, 0, 0, 4,
  0, 0, 0, 3, 0, 0, 0,
  -- The list of inputs, and the list of outputs.
  1, 0, 0, 0, 6, 0, 0, 0, 1, 0, 0, 0, 5, 0, 0, 0]

theorem ends_deserialize_boundaries_crossed :
    ∃ g supply, (deserialize crossed).run .initial = .ok g supply ∧ g.inputs = [0] ∧
      ∃ features records list, Stores crossed g features records list ∧
        list .input = [6] ∧ Designates features records .input 6 1 ∧
        ¬ List.Forall₂ (Designates features records .input) (list .input) (g.boundary .input) := by
  have hcheck : (match (deserialize crossed).run .initial, readPreamble.run (.start crossed) with
      | .ok g _, .ok ((features, count), start) =>
        match (readRecords features g [] count).run start with
        | .ok (records, stop) =>
          match Codec.int32s.read.run stop with
          | .ok (inputs, _) => decide (g.inputs = [0] ∧ features.bindingIds = 0 ∧
              records.map (·.number) = [5, 6] ∧ inputs = [6])
          | .error _ => false
        | .error _ => false
      | _, _ => false) = true := by decide +kernel
  have hends := ends_deserialize_boundaries crossed .initial
  cases hrun : (deserialize crossed).run .initial with
  | error e supply =>
    rw [hrun] at hcheck
    cases hcheck
  | ok g supply =>
    obtain ⟨features, records, list, hstores, horders⟩ := hends.post_of_ok hrun
    obtain ⟨count, start, stop, middle, last, hpreamble, hread, hinputs, -, -⟩ := hstores.parts
    simp only [hrun, hpreamble, hread, hinputs, decide_eq_true_eq] at hcheck
    obtain ⟨hg, hold, hnumbers, hlist⟩ := hcheck
    have hnumber (k : Nat) : records[k]?.map (·.number) = ([5, 6] : List UInt32)[k]? := by
      rw [← hnumbers, List.getElem?_map]
    have hdesignates (k : Nat) : Designates features records .input 6 k ↔
        ∃ n, ([5, 6] : List UInt32)[k]? = some n ∧ (n.toNat : Int) = (6 : Int32).toInt := by
      rw [Designates, if_pos hold, ← hnumber]
      simp
    refine ⟨g, supply, rfl, hg, features, records, list, hstores, hlist, ?_, ?_⟩
    · exact (hdesignates 1).mpr ⟨6, rfl, rfl⟩
    · -- The first of the inputs is number 5.
      show ¬ List.Forall₂ _ (list .input) g.inputs
      rw [hlist, hg, List.forall₂_cons, hdesignates]
      rintro ⟨⟨n, hn, hsix⟩, -⟩
      cases hn
      cases hsix

end Graph

end LayerGraph
