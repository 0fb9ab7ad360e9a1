import LayerGraph.Proofs.Container.Layout

/-! # Numbers of records

  The numbers in a container only tell which record is which. Main statement: with other numbers,
  different ones for different records, an accepted container gives the same graph, and no container
  is accepted with a record that reads from a number of no record in front of it
  (`Graph.deserialize_renumber`).

  - Other numbers have as many bytes, so every length is checked against as many bytes as before.
    Of a record the number and the input slots are read from other bytes, and all else from the same
    bytes (`RecordRead.renumber`).
  - Two loadings are followed record by record. What is invariant is that the second one has the
    same layers under the other numbers (`Loading.Renumbered`), so whatever is looked up is found
    there as well (`lookup_renumber`).
-/

namespace LayerGraph

namespace Container

open Codec

variable {features : Features} {g : Graph} {numbering : Numbering} {σ : UInt32 → UInt32}

/-! ### Other numbers -/

/-- The record with other numbers. -/
def RecordLayout.renumber (σ : UInt32 → UInt32) (r : RecordLayout) : RecordLayout :=
  { r with
    number := σ r.number
    inputs := r.inputs.map fun (index, producer, slot) => (index, σ producer, slot) }

/-- The entry of a list of boundaries, with other numbers. Only in old containers it is a number. -/
def renumberEntry (bindingIds : UInt32) (σ : UInt32 → UInt32) (id : Int32) : Int32 :=
  if bindingIds = 0 then (σ id.toUInt32).toInt32 else id

/-- The container with other numbers. -/
def Layout.renumber (σ : UInt32 → UInt32) (l : Layout) : Layout :=
  { l with
    records := l.records.map (·.renumber σ)
    inputs := l.inputs.map (renumberEntry (Features.version l.table 0) σ)
    outputs := l.outputs.map (renumberEntry (Features.version l.table 0) σ) }

/-- The layers that were read, with other numbers. -/
def renumber (σ : UInt32 → UInt32) (numbering : Numbering) : Numbering :=
  numbering.map fun (number, layer) => (σ number, layer)

/-- A layer is found by its other number. -/
theorem lookup_renumber {numbers : List UInt32} (hσ : Set.InjOn σ {n | n ∈ numbers})
    (hsub : numbering.map Prod.fst ⊆ numbers) {number : UInt32} (hnumber : number ∈ numbers) :
    (renumber σ numbering).lookup (σ number) = numbering.lookup number := by
  induction numbering with
  | nil => rfl
  | cons entry numbering ih =>
    obtain ⟨other, layer⟩ := entry
    obtain ⟨hother, hsub⟩ := List.cons_subset.mp hsub
    show List.lookup (σ number) ((σ other, layer) :: renumber σ numbering) = _
    rw [List.lookup_cons, List.lookup_cons, ih hsub]
    by_cases heq : number = other
    · subst heq
      simp
    · have hne : σ number ≠ σ other := fun h => heq (hσ hnumber hother h)
      rw [beq_false_of_ne heq, beq_false_of_ne hne]

theorem mem_of_lookup {number : UInt32} {layer : LayerId}
    (h : numbering.lookup number = some layer) : number ∈ numbering.map Prod.fst := by
  obtain ⟨before, after, rfl, -⟩ := List.lookup_eq_some_iff.mp h
  simp

/-! ### Records with other numbers -/

/-- What the entries of the input slots lead to. -/
theorem resolves_renumber {sources : List (UInt32 × UInt32)} {ps : List OutputRef}
    (hσ : Set.InjOn σ {n | n ∈ numbering.map Prod.fst})
    (h : List.Forall₂ (Resolves numbering) sources ps) :
    List.Forall₂ (Resolves (renumber σ numbering))
      (sources.map fun (producer, slot) => (σ producer, slot)) ps := by
  rw [List.forall₂_map_left_iff]
  refine h.imp ?_
  rintro ⟨producer, slot⟩ p ⟨hlookup, hslot⟩
  exact ⟨(lookup_renumber hσ (List.Subset.refl _) (mem_of_lookup hlookup)).trans hlookup, hslot⟩

theorem map_inputEntries (sources : List (UInt32 × UInt32)) :
    (inputEntries sources).map (fun (index, producer, slot) => (index, σ producer, slot)) =
      inputEntries (sources.map fun (producer, slot) => (σ producer, slot)) := by
  rw [inputEntries, inputEntries, List.zipIdx_map, List.map_map, List.map_map]
  rfl

/-- The entries have as many bytes with other numbers. -/
theorem exists_inputEntries_renumber {sources : List (UInt32 × UInt32)} {bytes : List UInt8}
    (h : (list 12 inputEntry).write (inputEntries sources) = .ok bytes) :
    ∃ bytes', (list 12 inputEntry).write
        (inputEntries (sources.map fun (producer, slot) => (σ producer, slot))) = .ok bytes' ∧
      bytes'.length = bytes.length := by
  refine (list_fits_iff inputEntry_fits).mpr ?_
  have hfits := (list_fits_iff inputEntry_fits).mp ⟨bytes, h, rfl⟩
  simpa [inputEntries] using hfits

/-- The bytes of a record, part by part. -/
structure RecordBytes where
  /-- Bytes of the tag. -/
  tag : List UInt8
  /-- Bytes of the number. -/
  number : List UInt8
  /-- Bytes of the name. -/
  name : List UInt8
  /-- Bytes of the input slots. -/
  inputs : List UInt8
  /-- Bytes of the rest. -/
  behind : List UInt8

/-- All bytes of a record. -/
def RecordBytes.all (b : RecordBytes) : List UInt8 :=
  b.tag ++ (b.number ++ (b.name ++ (b.inputs ++ b.behind)))

/-- The bytes are those of the parts of a record. -/
structure RecordLayout.Of (l : RecordLayout) (b : RecordBytes) : Prop where
  tag : uint16.write l.tag = .ok b.tag
  number : uint32.write l.number = .ok b.number
  name : blob.write l.name = .ok b.name
  inputs : (list 12 inputEntry).write l.inputs = .ok b.inputs
  behind : ((list 5 (uint32.seq storedInfo)).seq blob).write (l.outputs, l.body) = .ok b.behind

theorem RecordLayout.Of.write {l : RecordLayout} {b : RecordBytes} (h : l.Of b) :
    recordLayout.write l = .ok b.all :=
  seq_write_eq_ok_iff.mpr ⟨_, _, h.tag, seq_write_eq_ok_iff.mpr ⟨_, _, h.number,
    seq_write_eq_ok_iff.mpr ⟨_, _, h.name, seq_write_eq_ok_iff.mpr ⟨_, _, h.inputs, h.behind,
      rfl⟩, rfl⟩, rfl⟩, rfl⟩

/-- Such a record is read, with so many bytes behind it. Name and rest are read as they are at any
    place, and the rest with any number. -/
structure RecordRead (features : Features) (numbering : Numbering) (g : Graph) (left : Nat)
    (r : LayerRecord) (l : RecordLayout) (b : RecordBytes) : Prop where
  layout : l.Of b
  number : r.number = l.number
  tag_lt : l.tag.toNat < tagLimit
  new : numbering.lookup l.number = none
  sources : ∃ sources, l.inputs = inputEntries sources ∧
    List.Forall₂ (Resolves numbering) sources r.inputs
  name : ∀ offset rest, rest.length = b.inputs.length + b.behind.length + left →
    text.read.run ⟨offset, b.name ++ rest⟩ = .ok (r.name, ⟨offset + b.name.length, rest⟩)
  behind : ∀ start number offset rest, rest.length = left →
    (readBehindInputs features g start l.tag number r.name r.inputs).run
        ⟨offset, b.behind ++ rest⟩ =
      .ok ({ r with offset := start, number := number }, ⟨offset + b.behind.length, rest⟩)

/-- Whatever record is read, it has a layout. -/
theorem exists_recordRead {c c' : Cursor} {r : LayerRecord}
    (hrun : (readRecord features numbering g).run c = .ok (r, c')) :
    ∃ l b, RecordRead features numbering g c'.rest.length r l b ∧ c.rest = b.all ++ c'.rest := by
  obtain ⟨start, _, hstart, hrun⟩ := Read.bind_eq_ok_iff.mp hrun
  cases hstart
  obtain ⟨tag, c₁, htag, hrun⟩ := Read.bind_eq_ok_iff.mp hrun
  by_cases hlimit : tagLimit ≤ tag.toNat
  · rw [if_pos hlimit] at hrun
    cases hrun
  rw [if_neg hlimit] at hrun
  obtain ⟨numberStart, _, hnumberStart, hrun⟩ := Read.bind_eq_ok_iff.mp hrun
  cases hnumberStart
  obtain ⟨number, c₂, hnumber, hrun⟩ := Read.bind_eq_ok_iff.mp hrun
  by_cases htwice : (numbering.lookup number).isSome
  · rw [if_pos htwice] at hrun
    cases hrun
  rw [if_neg htwice] at hrun
  obtain ⟨name, c₃, hname, hrun⟩ := Read.bind_eq_ok_iff.mp hrun
  obtain ⟨count, c₄, hcount, hrun⟩ := Read.bind_eq_ok_iff.mp hrun
  obtain ⟨inputs, c₅, hinputs, hrun⟩ := Read.bind_eq_ok_iff.mp hrun
  change (readBehindInputs features g c.offset tag number name inputs).run c₅ = _ at hrun
  -- The bytes of the parts.
  obtain ⟨tagPart, htagRest, -, _, rfl, htagWrite⟩ := uint16_spelled c tag c₁ htag
  obtain ⟨numberPart, hnumberRest, -, _, rfl, hnumberWrite⟩ := uint32_spelled c₁ number c₂ hnumber
  obtain ⟨namePart, hnameRest, -, nameBytes, -, hnameWrite⟩ := text_spelled c₂ name c₃ hname
  obtain ⟨inputsPart, hinputsRest, -, sources, hresolve, hinputsWrite⟩ :=
    spells_inputs numbering c₃ inputs c₅ (Read.bind_eq_ok_iff.mpr ⟨count, c₄, hcount, hinputs⟩)
  obtain ⟨behindPart, hbehindRest, -, rfl, rfl, rfl, outputs, body, hbehindWrite⟩ :=
    spells_behindInputs c₅ r c' hrun
  -- Name and rest are read again from these bytes, because reading does not depend on the place.
  refine ⟨⟨tag, r.number, nameBytes, inputEntries sources, outputs, body⟩,
    ⟨tagPart, numberPart, namePart, inputsPart, behindPart⟩, ⟨?_, rfl, ?_, ?_, ?_, ?_, ?_⟩, ?_⟩
  · exact ⟨htagWrite, hnumberWrite, hnameWrite, hinputsWrite, hbehindWrite⟩
  · exact Nat.lt_of_not_le hlimit
  · exact Option.not_isSome_iff_eq_none.mp htwice
  · exact ⟨sources, rfl, hresolve⟩
  · intro offset rest hlength
    obtain ⟨_, hsame, -, hagain⟩ := text_plain.parallel.ok c₂ r.name c₃ hname
    obtain rfl := List.append_cancel_right (hnameRest.symm.trans hsame)
    obtain ⟨_, rfl, hrun'⟩ := hagain offset rest (by simp [hlength, hinputsRest, hbehindRest]; omega)
    exact hrun'
  · intro start number offset rest hlength
    obtain ⟨_, hsame, -, hagain⟩ := (parallel_behindInputs start number).ok c₅ r c' hrun
    obtain rfl := List.append_cancel_right (hbehindRest.symm.trans hsame)
    obtain ⟨_, ⟨-, rfl⟩, hrun'⟩ := hagain offset rest hlength
    exact hrun'
  · simp only [RecordBytes.all, htagRest, hnumberRest, hnameRest, hinputsRest, hbehindRest,
      List.append_assoc]

/-- With other numbers such a record is read in the same way. -/
theorem RecordRead.renumber {left : Nat} {r : LayerRecord} {l : RecordLayout} {b : RecordBytes}
    (h : RecordRead features numbering g left r l b)
    (hσ : Set.InjOn σ {n | n ∈ r.number :: numbering.map Prod.fst}) :
    ∃ b' : RecordBytes, (l.renumber σ).Of b' ∧ b'.all.length = b.all.length ∧
      ∀ offset rest, rest.length = left →
        (readRecord features (Container.renumber σ numbering) g).run ⟨offset, b'.all ++ rest⟩ =
          .ok ({ r with offset := offset, number := σ r.number },
            ⟨offset + b'.all.length, rest⟩) := by
  obtain ⟨sources, hsources, hresolve⟩ := h.sources
  have hinputs := h.layout.inputs
  rw [hsources] at hinputs
  obtain ⟨inputs, hwrite, hlength⟩ := exists_inputEntries_renumber (σ := σ) hinputs
  have hnumber : b.number.length = 4 := by
    have hwrite := Except.ok.inj h.layout.number
    rw [← hwrite, LittleEndian.length_encode]
  have hsub : numbering.map Prod.fst ⊆ r.number :: numbering.map Prod.fst :=
    List.subset_cons_self _ _
  have hnew : (Container.renumber σ numbering).lookup (σ r.number) = none := by
    rw [lookup_renumber hσ hsub List.mem_cons_self, h.number, h.new]
  have hresolve' := resolves_renumber (hσ.mono fun _ hn => hsub hn) hresolve
  refine ⟨⟨b.tag, LittleEndian.encode 4 (σ r.number).toNat, b.name, inputs, b.behind⟩, ?_, ?_, ?_⟩
  · refine ⟨h.layout.tag, ?_, h.layout.name, ?_, h.layout.behind⟩
    · rw [h.number]
      rfl
    · show (list 12 inputEntry).write (l.inputs.map _) = _
      rw [hsources, map_inputEntries, hwrite]
  · simp [RecordBytes.all, hlength, hnumber]
  · intro offset rest hrest
    -- Part by part, from where the part before it ends.
    have hfront := takes_inputEntries hresolve' hwrite
    simp only [RecordBytes.all, List.append_assoc]
    refine Read.bind_eq_ok_iff.mpr ⟨offset, _, Read.run_offset, ?_⟩
    refine Read.bind_eq_ok_iff.mpr ⟨_, _, uint16_plain.takes trivial h.layout.tag _ _, ?_⟩
    rw [if_neg (Nat.not_le.mpr h.tag_lt)]
    refine Read.bind_eq_ok_iff.mpr ⟨_, _, Read.run_offset, ?_⟩
    refine Read.bind_eq_ok_iff.mpr ⟨σ r.number, _, uint32_plain.takes trivial rfl _ _, ?_⟩
    rw [if_neg (by simp [hnew])]
    refine Read.bind_eq_ok_iff.mpr ⟨_, _, h.name _ _ ?_, ?_⟩
    · simp [hlength, hrest, Nat.add_assoc]
    obtain ⟨count, c₄, hcount, hread⟩ := Read.bind_eq_ok_iff.mp (hfront _ (b.behind ++ rest))
    refine Read.bind_eq_ok_iff.mpr ⟨count, c₄, hcount, ?_⟩
    refine Read.bind_eq_ok_iff.mpr ⟨_, _, hread, ?_⟩
    refine (h.behind offset (σ r.number) _ rest hrest).trans ?_
    simp [Nat.add_assoc]

/-! ### Layers with other numbers -/

variable {s s' s₁ : Loading} {supply supply₁ : GuidSupply}

/-- The numbers of the layers read so far. -/
def Loading.numbers (s : Loading) : List UInt32 := s.numbering.map Prod.fst

/-- The second loading has the same layers under other numbers. -/
structure Loading.Renumbered (σ : UInt32 → UInt32) (s s' : Loading) : Prop where
  numbering : s'.numbering = renumber σ s.numbering
  graph : s'.graph = s.graph

/-- Loading the layer of a record with other numbers. -/
theorem loadLayer_renumber (hload : (loadLayer features s).run supply = .ok s₁ supply₁) :
    ∃ l b, RecordLayout.Of l b ∧ s.cursor.rest = b.all ++ s₁.cursor.rest ∧
      s₁.numbers = l.number :: s.numbers ∧ (∀ entry ∈ l.inputs, entry.2.1 ∈ s.numbers) ∧
      ∀ σ, Set.InjOn σ {n | n ∈ s₁.numbers} →
        ∃ b' : RecordBytes, (l.renumber σ).Of b' ∧ b'.all.length = b.all.length ∧
          ∀ s' rest, s.Renumbered σ s' → s'.cursor.rest = b'.all ++ rest →
            rest.length = s₁.cursor.rest.length →
            ∃ s₁', (loadLayer features s').run supply = .ok s₁' supply₁ ∧
              s₁.Renumbered σ s₁' ∧ s₁'.cursor.rest = rest := by
  obtain ⟨⟨r, cursor⟩, t, hreads, hload⟩ := Build.bind_eq_ok_iff.mp hload
  obtain ⟨hread, rfl⟩ := Build.ofExcept_eq_ok_iff.mp hreads
  obtain ⟨⟨layer, graph⟩, t', hadds, hload⟩ := Build.bind_eq_ok_iff.mp hload
  have hadd := Build.adaptExcept_eq_ok_iff.mp hadds
  obtain ⟨rfl, rfl⟩ := Build.pure_eq_ok_iff.mp hload
  obtain ⟨l, b, hrecord, hrest⟩ := exists_recordRead hread
  refine ⟨l, b, hrecord.layout, hrest, by rw [← hrecord.number]; rfl, ?_, fun σ hσ => ?_⟩
  · -- Every source that was resolved has a number that was there.
    obtain ⟨sources, hsources, hresolve⟩ := hrecord.sources
    rw [hsources, inputEntries]
    intro entry hentry
    obtain ⟨⟨source, index⟩, hmem, rfl⟩ := List.mem_map.mp hentry
    obtain ⟨p, -, hlookup, -⟩ :=
      exists_mem_of_forall₂ hresolve.flip (List.fst_mem_of_mem_zipIdx hmem)
    exact mem_of_lookup hlookup
  · obtain ⟨b', hlayout', hlength, hread'⟩ := hrecord.renumber hσ
    refine ⟨b', hlayout', hlength, ?_⟩
    rintro ⟨⟨offset, bytes⟩, numbering, g⟩ rest ⟨rfl, rfl⟩ hcursor hleft
    obtain rfl : bytes = b'.all ++ rest := hcursor
    refine ⟨⟨⟨offset + b'.all.length, rest⟩, (σ r.number, layer) :: renumber σ s.numbering, graph⟩,
      ?_, ⟨rfl, rfl⟩, rfl⟩
    refine Build.bind_eq_ok_iff.mpr ⟨_, supply, Build.ofExcept_eq_ok_iff.mpr
      ⟨hread' offset rest hleft, rfl⟩, ?_⟩
    refine Build.bind_eq_ok_iff.mpr ⟨_, t', Build.adaptExcept_eq_ok_iff.mpr hadd, ?_⟩
    rfl

/-- Every record reads from layers with known numbers and from records in front of it. -/
def RefersBack (known : List UInt32) (records : List RecordLayout) : Prop :=
  ∀ done r after, records = done ++ r :: after → ∀ entry ∈ r.inputs,
    entry.2.1 ∈ done.map (·.number) ∨ entry.2.1 ∈ known

theorem RefersBack.cons {known : List UInt32} {r : RecordLayout} {records : List RecordLayout}
    (hr : ∀ entry ∈ r.inputs, entry.2.1 ∈ known) (h : RefersBack (r.number :: known) records) :
    RefersBack known (r :: records) := by
  intro done last after heq entry hentry
  cases done with
  | nil =>
    obtain ⟨rfl, -⟩ := List.cons.inj heq
    exact .inr (hr entry hentry)
  | cons first done =>
    obtain ⟨rfl, rfl⟩ := List.cons.inj heq
    -- A number that is known behind the first record is the one of this record or was known before.
    rcases h done last after rfl entry hentry with hdone | hknown
    · exact .inl (List.mem_cons_of_mem _ hdone)
    · rcases List.mem_cons.mp hknown with hfirst | hknown
      · rw [hfirst]
        exact .inl List.mem_cons_self
      · exact .inr hknown

/-- The layouts of records, and their bytes one after the other. -/
def RecordsOf (records : List RecordLayout) (bytes : List UInt8) : Prop :=
  ∃ parts, List.Forall₂ (fun l part => recordLayout.write l = .ok part) records parts ∧
    parts.flatten = bytes

theorem RecordsOf.cons {l : RecordLayout} {b : RecordBytes} {records : List RecordLayout}
    {bytes : List UInt8} (hl : l.Of b) (h : RecordsOf records bytes) :
    RecordsOf (l :: records) (b.all ++ bytes) := by
  obtain ⟨parts, hparts, rfl⟩ := h
  exact ⟨b.all :: parts, .cons hl.write hparts, rfl⟩

/-- Loading all records with other numbers. By induction on their number: what is behind a record
    has as many bytes with other numbers. -/
theorem loadLayers_renumber {count : Nat}
    (hload : (loadLayers features count s).run supply = .ok s₁ supply₁) :
    ∃ records bytes, records.length = count ∧ RecordsOf records bytes ∧
      s.cursor.rest = bytes ++ s₁.cursor.rest ∧
      s₁.numbers = (records.map (·.number)).reverse ++ s.numbers ∧ RefersBack s.numbers records ∧
      ∀ σ, Set.InjOn σ {n | n ∈ s₁.numbers} →
        ∃ bytes', RecordsOf (records.map (·.renumber σ)) bytes' ∧ bytes'.length = bytes.length ∧
          ∀ s' rest, s.Renumbered σ s' → s'.cursor.rest = bytes' ++ rest →
            rest.length = s₁.cursor.rest.length →
            ∃ s₁', (loadLayers features count s').run supply = .ok s₁' supply₁ ∧
              s₁.Renumbered σ s₁' ∧ s₁'.cursor.rest = rest := by
  induction count generalizing s supply with
  | zero =>
    obtain ⟨rfl, rfl⟩ := Build.pure_eq_ok_iff.mp hload
    refine ⟨[], [], rfl, ⟨[], .nil, rfl⟩, rfl, rfl, by simp [RefersBack], fun σ _ => ?_⟩
    exact ⟨[], ⟨[], .nil, rfl⟩, rfl, fun s' rest hs hrest _ => ⟨s', rfl, hs, hrest⟩⟩
  | succ count ih =>
    obtain ⟨s₂, t, hstep, hload⟩ := Build.bind_eq_ok_iff.mp hload
    obtain ⟨l, b, hl, hrest, hnumbers, hproducers, hrenumber⟩ := loadLayer_renumber hstep
    obtain ⟨records, bytes, hlength, hrecords, hrest₂, hnumbers₂, hback, hrenumber₂⟩ := ih hload
    refine ⟨l :: records, b.all ++ bytes, congrArg (· + 1) hlength, .cons hl hrecords, ?_, ?_, ?_,
      fun σ hσ => ?_⟩
    · rw [hrest, hrest₂, List.append_assoc]
    · rw [hnumbers₂, hnumbers]
      simp
    · rw [hnumbers] at hback
      exact hback.cons hproducers
    · -- Numbers that differ at the end differ before.
      have hsub : ∀ n ∈ s₂.numbers, n ∈ s₁.numbers := by
        intro n hn
        rw [hnumbers₂]
        exact List.mem_append_right _ hn
      obtain ⟨b', hl', hlength', hstep'⟩ := hrenumber σ (hσ.mono hsub)
      obtain ⟨bytes', hrecords', hlength₂', hload'⟩ := hrenumber₂ σ hσ
      refine ⟨b'.all ++ bytes', .cons hl' hrecords', by simp [hlength', hlength₂'], ?_⟩
      intro s' rest hs hcursor hleft
      rw [List.append_assoc] at hcursor
      have hroom : (bytes' ++ rest).length = s₂.cursor.rest.length := by
        rw [hrest₂, List.length_append, List.length_append, hlength₂', hleft]
      obtain ⟨s₂', hrun₂, hs₂, hcursor₂⟩ := hstep' s' (bytes' ++ rest) hs hcursor hroom
      obtain ⟨s₁', hrun₁, hs₁, hcursor₁⟩ := hload' s₂' rest hs₂ hcursor₂ hleft
      exact ⟨s₁', Build.bind_eq_ok_iff.mpr ⟨s₂', t, hrun₂, hrun₁⟩, hs₁, hcursor₁⟩

/-! ### Boundaries with other numbers -/

/-- An entry leads to the same binding with other numbers. -/
theorem boundaryBinding_renumber {offset offset' : Nat} {id : Int32} {b : BindingId}
    (h : boundaryBinding features s offset id = .ok b) (hσ : Set.InjOn σ {n | n ∈ s.numbers})
    (hbound : features.bindingIds = 0 → (σ id.toUInt32).toNat < 2 ^ 31)
    (hs : s.Renumbered σ s') :
    boundaryBinding features s' offset' (renumberEntry features.bindingIds σ id) = .ok b := by
  unfold boundaryBinding renumberEntry at *
  by_cases hold : features.bindingIds = 0
  · rw [if_neg (not_not.mpr hold)] at h ⊢
    rw [if_pos hold, hs.numbering, hs.graph]
    dsimp only at h ⊢
    -- Below `2 ^ 31` a number is an entry that is not negative, and is read back from it.
    have hint : ((σ id.toUInt32).toNat : Int) = (σ id.toUInt32).toInt32.toInt := by
      have hlt : 2 * (σ id.toUInt32).toNat < 2 ^ 32 := by
        have hlt := hbound hold
        omega
      exact (BitVec.toInt_eq_toNat_of_lt (x := (σ id.toUInt32).toBitVec) hlt).symm
    obtain ⟨hnonneg, hnumber⟩ := (toUInt32_eq_iff _ _).mpr hint
    simp only [if_neg hnonneg, hnumber]
    split at h
    · next binding hfound =>
      cases h
      obtain ⟨layer, hlookup, hbinding⟩ := Option.bind_eq_some_iff.mp hfound
      split at hlookup
      · cases hlookup
      · have hother : (renumber σ s.numbering).lookup (σ id.toUInt32) = some layer :=
          (lookup_renumber hσ (List.Subset.refl _) (mem_of_lookup hlookup)).trans hlookup
        rw [hother, Option.bind_some, hbinding]
    · cases h
  · rw [if_pos hold] at h ⊢
    rw [if_neg hold]
    exact h

/-- A list leads to the same bindings with other numbers. -/
theorem boundaryBindings_renumber {offset offset' : Nat} {ids : List Int32} {order : List BindingId}
    (h : ids.mapM (boundaryBinding features s offset) = .ok order)
    (hσ : Set.InjOn σ {n | n ∈ s.numbers})
    (hbound : features.bindingIds = 0 → ∀ id ∈ ids, (σ id.toUInt32).toNat < 2 ^ 31)
    (hs : s.Renumbered σ s') :
    (ids.map (renumberEntry features.bindingIds σ)).mapM (boundaryBinding features s' offset') =
      .ok order := by
  rw [Except.mapM_eq_ok_iff, List.forall₂_map_left_iff]
  have hids := (List.forall₂_and_left _ _).mpr ⟨fun _ hid => hid, Except.mapM_eq_ok_iff.mp h⟩
  refine hids.imp ?_
  rintro id b ⟨hid, hb⟩
  exact boundaryBinding_renumber hb hσ (fun hold => hbound hold id hid) hs

/-- A list of boundaries with other numbers. -/
theorem loadBoundary_renumber {direction : Direction}
    (hload : loadBoundary features direction s = .ok s₁) :
    ∃ ids bytes, int32s.write ids = .ok bytes ∧ s.cursor.rest = bytes ++ s₁.cursor.rest ∧
      s₁.numbering = s.numbering ∧
      ∀ σ, Set.InjOn σ {n | n ∈ s.numbers} →
        (features.bindingIds = 0 → ∀ id ∈ ids, (σ id.toUInt32).toNat < 2 ^ 31) →
        ∃ bytes', int32s.write (ids.map (renumberEntry features.bindingIds σ)) = .ok bytes' ∧
          bytes'.length = bytes.length ∧
          ∀ s' rest, s.Renumbered σ s' → s'.cursor.rest = bytes' ++ rest →
            ∃ s₁', loadBoundary features direction s' = .ok s₁' ∧ s₁.Renumbered σ s₁' ∧
              s₁'.cursor.rest = rest := by
  obtain ⟨⟨ids, cursor⟩, hread, hload⟩ := Except.bind_eq_ok_iff.mp hload
  obtain ⟨order, horder, hload⟩ := Except.bind_eq_ok_iff.mp hload
  obtain ⟨bytes, hrest, -, _, rfl, hwrite⟩ := int32s_spelled s.cursor ids cursor hread
  cases hreorder : s.graph.reorder direction order with
  | error cause =>
    simp only [hreorder] at hload
    cases hload
  | ok graph =>
    simp only [hreorder] at hload
    obtain rfl := Except.pure_eq_ok_iff.mp hload
    refine ⟨ids, bytes, hwrite, hrest, rfl, fun σ hσ hbound => ?_⟩
    -- The entries are as many as before, and each of them takes four bytes.
    obtain ⟨bytes', hwrite', hlength⟩ : int32s.Fits
        (ids.map (renumberEntry features.bindingIds σ)) bytes.length := by
      have hfits := (list_fits_iff int32_fits).mp ⟨bytes, hwrite, rfl⟩
      refine (list_fits_iff int32_fits).mpr ?_
      rwa [List.length_map]
    refine ⟨bytes', hwrite', hlength, ?_⟩
    rintro ⟨⟨offset, all⟩, numbering, g⟩ rest hs hcursor
    obtain rfl : all = bytes' ++ rest := hcursor
    refine ⟨⟨⟨offset + bytes'.length, rest⟩, numbering, graph⟩, ?_, ⟨hs.numbering, rfl⟩, rfl⟩
    refine Except.bind_eq_ok_iff.mpr ⟨_, int32s_plain.takes trivial hwrite' offset rest, ?_⟩
    refine Except.bind_eq_ok_iff.mpr ⟨order, boundaryBindings_renumber horder hσ hbound hs, ?_⟩
    obtain rfl : g = s.graph := hs.graph
    simp only [hreorder]
    rfl

/-! ### The whole container -/

/-- What comes in front of the records. -/
theorem exists_table {bytes : List UInt8} {count : Nat} {c : Cursor}
    (hrun : readPreamble.run (.start bytes) = .ok ((features, count), c)) :
    ∃ table, Features.Readable table ∧ features = Features.ofTable table ∧ count < 2 ^ 32 ∧
      count * 18 ≤ c.rest.length ∧
      WithTable table (LittleEndian.encode 4 count ++ c.rest) bytes := by
  obtain ⟨_, c₁, hheader, hrun⟩ := Read.bind_eq_ok_iff.mp hrun
  obtain ⟨f, c₂, htable, hrun⟩ := Read.bind_eq_ok_iff.mp hrun
  obtain ⟨n, c₃, hcount, hrun⟩ := Read.bind_eq_ok_iff.mp hrun
  cases hrun
  obtain ⟨header, hrest, -, rfl⟩ := spells_header _ _ _ hheader
  obtain ⟨part, hrest₁, -, table, hwrite⟩ := spells_table _ _ _ htable
  obtain ⟨_, hrest₂, -, hlt, rfl⟩ := length_spells 18 _ _ _ hcount
  -- A table that is taken has no wrong entry, since reading would have ended there.
  have hcursor : c₁ = ⟨c₁.offset, part ++ c₂.rest⟩ := by rw [← hrest₁]
  rw [hcursor] at htable
  by_cases hreadable : Features.Readable table
  · rw [Features.takes_table hreadable hwrite] at htable
    obtain ⟨rfl, -⟩ := Prod.mk.inj (Except.ok.inj htable)
    refine ⟨table, hreadable, rfl, hlt, length_room hcount, part, hwrite, ?_⟩
    change bytes = _ at hrest
    rw [hrest, hrest₁, hrest₂]
  · obtain ⟨done, e, after, rfl, hdone, hwrong⟩ := Features.exists_first hreadable
    rw [Features.run_wrong hwrite hdone hwrong] at htable
    cases htable

/-- The number of records is read behind the table. -/
theorem WithTable.exists_run_preamble {table : List (UInt16 × UInt32)} {count : Nat}
    {rest bytes : List UInt8} (h : WithTable table (LittleEndian.encode 4 count ++ rest) bytes)
    (htable : Features.Readable table) (hlt : count < 2 ^ 32) (hroom : count * 18 ≤ rest.length) :
    ∃ offset, readPreamble.run (.start bytes) =
      .ok ((Features.ofTable table, count), ⟨offset, rest⟩) := by
  obtain ⟨offset, hrun⟩ := h.run_preamble htable
  have hcount : (length 18).read.run ⟨offset, LittleEndian.encode 4 count ++ rest⟩ = _ :=
    run_length (length_write_of_lt hlt) hroom
  exact ⟨_, hrun.trans (Read.bind_eq_ok_iff.mpr ⟨count, _, hcount, rfl⟩)⟩

variable {bytes : List UInt8} {supply' : GuidSupply}

/-- The bytes of a container are those of its parts. -/
theorem Layout.of_parts {l : Layout} {count : Nat} {table records inputs outputs : List UInt8}
    (htable : (list 6 Features.entry).write l.table = .ok table)
    (hcount : l.records.length = count) (hlt : count < 2 ^ 32)
    (hrecords : RecordsOf l.records records) (hinputs : int32s.write l.inputs = .ok inputs)
    (houtputs : int32s.write l.outputs = .ok outputs) :
    l.Of (magic ++ LittleEndian.encode 4 formatVersion.toNat ++ (table ++
      (LittleEndian.encode 4 count ++ (records ++ (inputs ++ outputs))))) := by
  obtain ⟨parts, hparts, rfl⟩ := hrecords
  subst hcount
  have hlist : (list 18 recordLayout).write l.records =
      .ok (LittleEndian.encode 4 l.records.length ++ parts.flatten) :=
    list_write_eq_ok_iff.mpr ⟨parts, hparts, hlt, rfl⟩
  refine ⟨_, ?_, rfl⟩
  refine seq_write_eq_ok_iff.mpr ⟨table, _, htable, ?_, rfl⟩
  refine seq_write_eq_ok_iff.mpr ⟨_, _, hlist, ?_, (List.append_assoc _ _ _).symm⟩
  exact seq_write_eq_ok_iff.mpr ⟨inputs, outputs, hinputs, houtputs, rfl⟩

/-- What is accepted has a layout, and with other numbers it is read as the same graph. -/
theorem exists_layout_renumber (h : (Graph.deserialize bytes).run supply = .ok g supply') :
    ∃ l : Layout, l.Of bytes ∧ RefersBack [] l.records ∧
      ∀ σ, Set.InjOn σ {n | n ∈ l.records.map (·.number)} →
        (Features.version l.table 0 = 0 →
          ∀ id ∈ l.inputs ++ l.outputs, (σ id.toUInt32).toNat < 2 ^ 31) →
        ∃ bytes', (l.renumber σ).Of bytes' ∧
          (Graph.deserialize bytes').run supply = .ok g supply' := by
  obtain ⟨features, count, start, s, s₁, s₂, hpreamble, hlayers, hload₁, hload₂, hend⟩ :=
    deserialize_parts h
  obtain ⟨table, htable, rfl, hlt, hroom, part, hwrite, hbytes⟩ := exists_table hpreamble
  obtain ⟨records, middle, rfl, hrecords, hrest, hnumbers, hback, hrenumber⟩ :=
    loadLayers_renumber hlayers
  obtain ⟨inputs, front, hinputs, hrest₁, hsame₁, hrenumber₁⟩ := loadBoundary_renumber hload₁
  obtain ⟨outputs, back, houtputs, hrest₂, hsame₂, hrenumber₂⟩ := loadBoundary_renumber hload₂
  obtain ⟨rfl, hdone, hcomplete⟩ := checkEnd_eq_ok hend
  rw [hdone, List.append_nil] at hrest₂
  rw [hrest₂] at hrest₁
  change start.rest = middle ++ s.cursor.rest at hrest
  rw [hrest₁] at hrest
  refine ⟨⟨table, records, inputs, outputs⟩, ?_, hback, fun σ hσ hbound => ?_⟩
  · rw [hbytes, hrest]
    exact Layout.of_parts hwrite rfl hlt hrecords hinputs houtputs
  · have hσ₁ : Set.InjOn σ {n | n ∈ s.numbers} := by
      refine hσ.mono fun n hn => ?_
      have hn : n ∈ (records.map (·.number)).reverse ++ [] := hnumbers ▸ hn
      simpa using hn
    have hσ₂ : Set.InjOn σ {n | n ∈ s₁.numbers} := by
      rw [Loading.numbers, hsame₁]
      exact hσ₁
    obtain ⟨middle', hrecords', hlength, hrun⟩ := hrenumber σ hσ₁
    obtain ⟨front', hinputs', hlength₁, hrun₁⟩ := hrenumber₁ σ hσ₁ fun hold id hid =>
      hbound hold id (List.mem_append_left _ hid)
    obtain ⟨back', houtputs', hlength₂, hrun₂⟩ := hrenumber₂ σ hσ₂ fun hold id hid =>
      hbound hold id (List.mem_append_right _ hid)
    refine ⟨_, Layout.of_parts hwrite (List.length_map _) hlt hrecords' hinputs' houtputs', ?_⟩
    -- The records stand in front of as many bytes as before, and so does their number.
    have hleft : (front' ++ back').length = s.cursor.rest.length := by
      simp [hrest₁, hlength₁, hlength₂]
    have hroom' : records.length * 18 ≤ (middle' ++ (front' ++ back')).length := by
      rw [hrest] at hroom
      simpa [hlength, hlength₁, hlength₂] using hroom
    obtain ⟨offset, hpreamble'⟩ :=
      WithTable.exists_run_preamble ⟨part, hwrite, rfl⟩ htable hlt hroom'
    obtain ⟨s', hlayers', hs', hcursor'⟩ := hrun
      ⟨⟨offset, middle' ++ (front' ++ back')⟩, [], .empty⟩ (front' ++ back') ⟨rfl, rfl⟩ rfl hleft
    obtain ⟨s₁', hload₁', hs₁', hcursor₁'⟩ := hrun₁ s' back' hs' hcursor'
    rw [← List.append_nil back'] at hcursor₁'
    obtain ⟨s₂', hload₂', hs₂', hcursor₂'⟩ := hrun₂ s₁' [] hs₁' hcursor₁'
    have hend' : checkEnd s₂' = .ok s₂.graph := by
      have hvalid : s₂.graph.validate = .ok () := Graph.validate_eq_ok_iff.mpr hcomplete
      simp [checkEnd, hcursor₂', hs₂'.graph, hvalid]
    exact Graph.deserialize_of_parts hpreamble' hlayers' hload₁' hload₂' hend'

end Container

namespace Graph

open Container

/-- An accepted container has one layout, and with other numbers, different ones for different
    records, it gives the same graph. In old containers the numbers of boundaries must stay below
    `2 ^ 31`. A container with a record that reads from a number which no record in front of it has
    is not accepted. -/
theorem deserialize_renumber (bytes : List UInt8) (supply : GuidSupply) :
    (∀ g supply', (deserialize bytes).run supply = .ok g supply' →
      ∃ l : Layout, l.Of bytes ∧ (∀ l' : Layout, l'.Of bytes → l' = l) ∧
        ∀ σ : UInt32 → UInt32, Set.InjOn σ {n | n ∈ l.records.map (·.number)} →
          (Features.version l.table 0 = 0 →
            ∀ id ∈ l.inputs ++ l.outputs, (σ id.toUInt32).toNat < 2 ^ 31) →
          ∃ bytes', (l.renumber σ).Of bytes' ∧ (deserialize bytes').run supply = .ok g supply') ∧
    ∀ l : Layout, l.Of bytes → ∀ done r after, l.records = done ++ r :: after →
      ∀ entry ∈ r.inputs, entry.2.1 ∉ done.map (·.number) →
        ∃ e supply', (deserialize bytes).run supply = .error e supply' := by
  constructor
  · intro g supply' hrun
    obtain ⟨l, hl, -, hrenumber⟩ := exists_layout_renumber hrun
    exact ⟨l, hl, fun l' hl' => Layout.unique hl' hl, hrenumber⟩
  · intro l hl done r after hrecords entry hentry hnot
    cases hrun : (deserialize bytes).run supply with
    | error e supply' => exact ⟨e, supply', rfl⟩
    | ok g supply' =>
      obtain ⟨l', hl', hback, -⟩ := exists_layout_renumber hrun
      obtain rfl := Layout.unique hl' hl
      rcases hback done r after hrecords entry hentry with hdone | hnone
      · exact absurd hdone hnot
      · cases hnone

/-- The layout of the old container with an input and an output of the same binding. -/
def crossedLayout : Layout where
  table := []
  records := [⟨0, 5, [120], [], [(0, 1, [], [⟨0x3F800000⟩], 0, 0xFFFFFFFF, 0)], [3, 0, 0, 0]⟩,
    ⟨1, 6, [121], [(0, 5, 0)], [], [3, 0, 0, 0]⟩]
  inputs := [6]
  outputs := [5]

theorem deserialize_renumber_crossed :
    (∃ bytes g supply, (crossedLayout.renumber (11 - ·)).Of bytes ∧
      (deserialize crossed).run .initial = .ok g supply ∧
      (deserialize bytes).run .initial = .ok g supply) ∧
    ∃ bytes e supply, Layout.Of { crossedLayout with records := crossedLayout.records.reverse } bytes ∧
      (deserialize bytes).run .initial = .error e supply := by
  constructor
  · have hlayout : crossedLayout.Of crossed := ⟨_, rfl, by decide +kernel⟩
    obtain ⟨g, supply, hrun⟩ := exists_graph_crossed
    obtain ⟨l, -, hunique, hrenumber⟩ := (deserialize_renumber crossed .initial).1 g supply hrun
    obtain rfl := hunique crossedLayout hlayout
    obtain ⟨bytes, hbytes, hrun'⟩ := hrenumber (11 - ·) (by simp [crossedLayout]) fun _ => by decide
    exact ⟨bytes, g, supply, hbytes, hrun, hrun'⟩
  · obtain ⟨e, supply, hrun⟩ := (deserialize_renumber _ .initial).2
      { crossedLayout with records := crossedLayout.records.reverse } ⟨_, rfl, rfl⟩ [] _ _ rfl (0, 5, 0)
      (by simp) (by simp)
    exact ⟨_, e, supply, ⟨_, rfl, rfl⟩, hrun⟩

end Graph

end LayerGraph
