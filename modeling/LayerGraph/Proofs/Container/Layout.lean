import LayerGraph.Proofs.Container.FeatureTable

/-! # The layout of containers

  A layout has the parts of a container: the table of features, the records and the two lists of
  boundaries. Of a record it has the tag, the number, the entries of the slots and the bytes of name
  and body. Whether these say something is left open, so bytes may have a layout and be refused. But
  they have one layout only (`Layout.unique`).

  Accepted bytes have a layout. This is shown part by part: whatever is read of a part, the bytes
  are those of a part of a layout (`spells_table`, `spells_inputs`, `spells_behindInputs`).
-/

namespace LayerGraph

namespace Codec

variable {α β γ δ : Type} {c : Codec α} {d : Codec β} {c' : Codec γ} {d' : Codec δ}
variable {r : α → β → Prop} {r' : γ → δ → Prop}

/-! ### Bytes that another codec writes -/

/-- What the first codec reads are bytes that the second one writes for something related. -/
def Spelled (c : Codec α) (d : Codec β) (r : α → β → Prop) : Prop :=
  c.read.Spells fun a used => ∃ b, r a b ∧ d.write b = .ok used

theorem Spelled.mono {r' : α → β → Prop} (h : c.Spelled d r) (hr : ∀ a b, r a b → r' a b) :
    c.Spelled d r' :=
  Read.Spells.mono h fun a _ ⟨b, hab, hwrite⟩ => ⟨b, hr a b hab, hwrite⟩

theorem spelled_of_bytes {width : Nat} {write : α → Except ContainerError (List UInt8)}
    {decode : List UInt8 → α}
    (h : ∀ bytes, bytes.length = width → ∃ b, r (decode bytes) b ∧ d.write b = .ok bytes) :
    Spelled ⟨write, return decode (← Read.bytes width)⟩ d r := by
  refine Read.Spells.map ((Read.Spells.bytes width).mono ?_)
  rintro bytes _ ⟨rfl, hlength⟩
  exact h bytes hlength

theorem uint8_spelled : uint8.Spelled uint8 Eq := by
  refine spelled_of_bytes fun bytes hlength => ⟨_, rfl, ?_⟩
  obtain ⟨byte, rfl⟩ := List.length_eq_one_iff.mp hlength
  simp [uint8, LittleEndian.decode]

theorem uint16_spelled : uint16.Spelled uint16 Eq := by
  refine spelled_of_bytes fun bytes hlength => ⟨_, rfl, ?_⟩
  have hlt := LittleEndian.decode_lt bytes
  rw [hlength] at hlt
  show Except.ok (LittleEndian.encode 2 _) = _
  rw [UInt16.toNat_ofNat_of_lt' hlt, ← hlength, LittleEndian.encode_decode]

theorem uint32_spelled : uint32.Spelled uint32 Eq := by
  refine spelled_of_bytes fun bytes hlength => ⟨_, rfl, ?_⟩
  have hlt := LittleEndian.decode_lt bytes
  rw [hlength] at hlt
  show Except.ok (LittleEndian.encode 4 _) = _
  rw [UInt32.toNat_ofNat_of_lt' hlt, ← hlength, LittleEndian.encode_decode]

theorem int32_spelled : int32.Spelled int32 Eq := by
  refine spelled_of_bytes fun bytes hlength => ⟨_, rfl, ?_⟩
  have hsame : (LittleEndian.decodeInt bytes).bmod Int32.size = LittleEndian.decodeInt bytes := by
    rw [LittleEndian.decodeInt, hlength]
    exact Int.bmod_bmod
  show Except.ok (LittleEndian.encodeInt 4 _) = _
  rw [Int32.toInt_ofInt, hsame, ← hlength, LittleEndian.encodeInt_decodeInt]

theorem binary32_spelled : binary32.Spelled binary32 Eq := by
  refine spelled_of_bytes fun bytes hlength => ⟨_, rfl, ?_⟩
  have hlt := LittleEndian.decode_lt bytes
  rw [hlength] at hlt
  have hsame : LittleEndian.decode bytes % 2 ^ 32 = LittleEndian.decode bytes :=
    Nat.mod_eq_of_lt hlt
  show Except.ok (LittleEndian.encode 4 (BitVec.ofNat 32 _).toNat) = _
  rw [BitVec.toNat_ofNat, hsame, ← hlength, LittleEndian.encode_decode]

theorem Spelled.imap (h : c.Spelled d r) {ofRaw : α → γ} {toRaw : γ → α} :
    (c.imap ofRaw toRaw).Spelled d fun _ _ => True :=
  Read.Spells.map (Spelled.mono h fun _ _ _ => trivial)

theorem Spelled.refine (h : c.Spelled d r) {ofRaw : α → Except ContainerFault γ} {toRaw : γ → α} :
    (c.refine ofRaw toRaw).Spelled d fun _ _ => True := by
  refine Read.Spells.offset fun start => Read.Spells.bind h ?_
  rintro a used ⟨b, -, hwrite⟩
  split
  · exact .pure ⟨b, trivial, by rwa [List.append_nil]⟩
  · exact .refuse

theorem Spelled.seq (h : c.Spelled d r) (h' : c'.Spelled d' r') :
    (c.seq c').Spelled (d.seq d') fun a b => r a.1 b.1 ∧ r' a.2 b.2 := by
  refine Read.Spells.bind h ?_
  rintro a used ⟨b, hab, hwrite⟩
  refine Read.Spells.map (Read.Spells.mono h' ?_)
  rintro a' used' ⟨b', hab', hwrite'⟩
  exact ⟨(b, b'), ⟨hab, hab'⟩, seq_write_eq_ok_iff.mpr ⟨used, used', hwrite, hwrite', rfl⟩⟩

theorem length_spells (itemSize : Nat) : (length itemSize).read.Spells fun count used =>
    count < 2 ^ 32 ∧ used = LittleEndian.encode 4 count := by
  refine Read.Spells.offset fun start => Read.Spells.bind uint32_spelled ?_
  rintro count used ⟨_, rfl, hwrite⟩
  cases hwrite
  refine Read.Spells.get fun c => Read.Spells.check fun _ => .pure ⟨count.toNat_lt, ?_⟩
  rw [List.append_nil]

/-- The items of a list that are read one after the other. -/
theorem exists_items {as : List α} {parts : List (List UInt8)}
    (h : List.Forall₂ (fun a part => ∃ b, r a b ∧ d.write b = .ok part) as parts) :
    ∃ bs, List.Forall₂ r as bs ∧ List.Forall₂ (fun b part => d.write b = .ok part) bs parts := by
  obtain ⟨bs, has, hparts⟩ := forall₂_comp_iff.mpr h
  exact ⟨bs, has, hparts.flip⟩

theorem Spelled.list (h : c.Spelled d r) (itemSize : Nat) :
    (list itemSize c).Spelled (list itemSize d) (List.Forall₂ r) := by
  refine Read.Spells.bind (length_spells itemSize) ?_
  rintro count _ ⟨hlt, rfl⟩
  refine (Read.Spells.times h count).mono ?_
  rintro as _ ⟨rfl, parts, hparts, rfl⟩
  obtain ⟨bs, has, hbs⟩ := exists_items hparts
  rw [has.length_eq] at hlt ⊢
  exact ⟨bs, has, list_write_eq_ok_iff.mpr ⟨parts, hbs, hlt, rfl⟩⟩

theorem blob_spelled : blob.Spelled blob Eq := by
  refine Read.Spells.bind (length_spells 1) ?_
  rintro count _ ⟨hlt, rfl⟩
  refine (Read.Spells.bytes count).mono ?_
  rintro bytes _ ⟨rfl, rfl⟩
  exact ⟨bytes, rfl, blob_write_eq_ok_iff.mpr ⟨hlt, rfl⟩⟩

theorem int32s_spelled : int32s.Spelled int32s Eq :=
  (int32_spelled.list 4).mono fun _ _ h => by rwa [List.forall₂_eq_eq_eq] at h

theorem text_spelled : text.Spelled blob fun _ _ => True := blob_spelled.refine

end Codec

namespace Container

open Codec

variable {features : Features} {g : Graph}

/-! ### Layouts -/

/-- A descriptor as it is stored. -/
abbrev StoredInfo :=
  UInt8 × List (UInt8 × UInt32) × List Binary32 × Int32 × UInt32 × UInt8

/-- Descriptors as they are stored, whether they are consistent or not. -/
def storedInfo : Codec StoredInfo :=
  uint8.seq <| (list 5 (uint8.seq uint32)).seq <| (list 4 binary32).seq <| int32.seq <|
    uint32.seq uint8

/-- The parts of a record. -/
structure RecordLayout where
  /-- Tag of the kind. -/
  tag : UInt16
  /-- Number of the layer. -/
  number : UInt32
  /-- Bytes of the name. -/
  name : List UInt8
  /-- For each input slot its position, the number of a layer and the slot there. -/
  inputs : List (UInt32 × UInt32 × UInt32)
  /-- For each output slot its position and its descriptor. -/
  outputs : List (UInt32 × StoredInfo)
  /-- Bytes of the body. -/
  body : List UInt8

/-- The parts of records, one after the other. -/
def recordLayout : Codec RecordLayout :=
  (uint16.seq <| uint32.seq <| blob.seq <| (list 12 inputEntry).seq <|
    (list 5 (uint32.seq storedInfo)).seq blob).imap
    (fun (tag, number, name, inputs, outputs, body) => ⟨tag, number, name, inputs, outputs, body⟩)
    (fun r => (r.tag, r.number, r.name, r.inputs, r.outputs, r.body))

/-- The parts of a container. -/
structure Layout where
  /-- The table of features. -/
  table : List (UInt16 × UInt32)
  /-- The records. -/
  records : List RecordLayout
  /-- The list of inputs. -/
  inputs : List Int32
  /-- The list of outputs. -/
  outputs : List Int32

/-- The parts of containers behind the header. -/
def layout : Codec Layout :=
  ((list 6 Features.entry).seq <| (list 18 recordLayout).seq <| int32s.seq int32s).imap
    (fun (table, records, inputs, outputs) => ⟨table, records, inputs, outputs⟩)
    (fun l => (l.table, l.records, l.inputs, l.outputs))

/-- The bytes are a container with these parts. -/
def Layout.Of (l : Layout) (bytes : List UInt8) : Prop :=
  ∃ part, layout.write l = .ok part ∧
    bytes = magic ++ LittleEndian.encode 4 formatVersion.toNat ++ part

theorem storedInfo_plain : storedInfo.Plain 18 :=
  uint8_plain.seq <| ((uint8_plain.seq uint32_plain).list (Nat.le_refl 5)).seq <|
    (binary32_plain.list (Nat.le_refl 4)).seq <| int32_plain.seq <| uint32_plain.seq uint8_plain

theorem recordLayout_plain : recordLayout.Plain 22 := by
  refine Plain.imap ?_ (fun _ => rfl) fun _ => rfl
  exact uint16_plain.seq <| uint32_plain.seq <| blob_plain.seq <|
    (inputEntry_plain.list (Nat.le_refl 12)).seq <|
      ((uint32_plain.seq storedInfo_plain).list (by decide)).seq blob_plain

theorem layout_plain : layout.Plain 16 := by
  refine Plain.imap ?_ (fun _ => rfl) fun _ => rfl
  exact (entry_plain.list (Nat.le_refl 6)).seq <| (recordLayout_plain.list (by decide)).seq <|
    int32s_plain.seq int32s_plain

/-- Bytes have one layout at most. -/
theorem Layout.unique {l l' : Layout} {bytes : List UInt8} (h : l.Of bytes) (h' : l'.Of bytes) :
    l = l' := by
  obtain ⟨part, hwrite, rfl⟩ := h
  obtain ⟨part', hwrite', hsame⟩ := h'
  obtain rfl := List.append_cancel_left hsame
  -- The bytes are read as either of them.
  have hread := layout_plain.takes trivial hwrite 0 []
  rw [layout_plain.takes trivial hwrite' 0 []] at hread
  cases hread
  rfl

/-! ### What is read has a layout -/

theorem spells_header : readHeader.Spells fun _ used =>
    used = magic ++ LittleEndian.encode 4 formatVersion.toNat := by
  refine (Read.Spells.bytes _).bind ?_
  rintro mark _ ⟨rfl, -⟩
  refine Read.Spells.check fun hmark => ?_
  obtain rfl := not_not.mp hmark
  refine Read.Spells.offset fun start => Read.Spells.bind uint32_spelled ?_
  rintro version used ⟨_, rfl, hwrite⟩
  cases hwrite
  split
  · exact .throw
  · next hversion =>
    obtain rfl := not_not.mp hversion
    exact .pure (by rw [List.append_nil])

theorem entry_spelled : Features.entry.Spelled Features.entry Eq :=
  (uint16_spelled.seq uint32_spelled).mono fun _ _ h => Prod.ext h.1 h.2

theorem spells_entries (count : Nat) (seen : List UInt16) (f : Features) :
    (Features.readEntries count seen f).Spells fun _ used =>
      ∃ table parts, table.length = count ∧ Features.Parts table parts ∧ parts.flatten = used := by
  induction count generalizing seen f with
  | zero => exact .pure ⟨[], [], rfl, .nil, rfl⟩
  | succ count ih =>
    have hentry : (Features.readEntry seen f).Spells fun _ used =>
        ∃ e, Features.entry.write e = .ok used := by
      refine Read.Spells.offset fun start => Read.Spells.bind entry_spelled ?_
      rintro e used ⟨_, rfl, hwrite⟩
      refine Read.Spells.check fun _ => Read.Spells.check fun _ => .pure ⟨e, ?_⟩
      rwa [List.append_nil]
    refine hentry.bind ?_
    rintro ⟨seen', f'⟩ used ⟨e, hwrite⟩
    refine (ih seen' f').mono ?_
    rintro f'' _ ⟨table, parts, hlength, hparts, rfl⟩
    exact ⟨e :: table, used :: parts, congrArg (· + 1) hlength, .cons hwrite hparts, rfl⟩

theorem spells_table : Features.read.Spells fun _ used =>
    ∃ table, (list 6 Features.entry).write table = .ok used := by
  refine (length_spells 6).bind ?_
  rintro count _ ⟨hlt, rfl⟩
  refine (spells_entries count [] {}).mono ?_
  rintro f _ ⟨table, parts, rfl, hparts, rfl⟩
  exact ⟨table, list_write_eq_ok_iff.mpr ⟨parts, hparts, hlt, rfl⟩⟩

theorem inputEntry_spelled : inputEntry.Spelled inputEntry Eq :=
  (uint32_spelled.seq (uint32_spelled.seq uint32_spelled)).mono
    fun _ _ h => Prod.ext h.1 (Prod.ext h.2.1 h.2.2)

/-- The entries of input slots are in their order, and lead to layers. -/
theorem spells_inputEntries (numbering : Numbering) (position count : Nat) :
    (readInputs numbering position count).Spells fun ps used =>
      ∃ sources parts, sources.length = count ∧ List.Forall₂ (Resolves numbering) sources ps ∧
        (sources.zipIdx position).mapM (fun (s, i) => inputEntry.write (.ofNat i, s)) = .ok parts ∧
        parts.flatten = used := by
  induction count generalizing position with
  | zero => exact .pure ⟨[], [], rfl, .nil, rfl, rfl⟩
  | succ count ih =>
    refine Read.Spells.offset fun start => Read.Spells.bind inputEntry_spelled ?_
    rintro ⟨index, producer, slot⟩ used ⟨_, rfl, hwrite⟩
    refine Read.Spells.check fun hposition => ?_
    obtain rfl := not_not.mp hposition
    split
    · next layer hlookup =>
      refine Read.Spells.map ((ih (index.toNat + 1)).mono ?_)
      rintro ps _ ⟨sources, parts, rfl, hresolve, hparts, rfl⟩
      have hhead : inputEntry.write (UInt32.ofNat index.toNat, producer, slot) = .ok used := by
        rw [UInt32.ofNat_toNat, hwrite]
      refine ⟨(producer, slot) :: sources, used :: parts, rfl, .cons ⟨hlookup, rfl⟩ hresolve, ?_,
        rfl⟩
      rw [List.zipIdx_cons, List.mapM_cons, hparts]
      exact Except.bind_eq_ok_iff.mpr ⟨used, hhead, rfl⟩
    · exact .throw

/-- The entries of input slots that are read in their order. -/
def inputEntries (sources : List (UInt32 × UInt32)) : List (UInt32 × UInt32 × UInt32) :=
  sources.zipIdx.map fun (source, index) => (.ofNat index, source)

theorem write_inputEntries_iff {sources : List (UInt32 × UInt32)} {bytes : List UInt8} :
    (list 12 inputEntry).write (inputEntries sources) = .ok bytes ↔
      ∃ parts, sources.zipIdx.mapM (fun (s, i) => inputEntry.write (.ofNat i, s)) = .ok parts ∧
        sources.length < 2 ^ 32 ∧ bytes = LittleEndian.encode 4 sources.length ++ parts.flatten := by
  rw [list_write_eq_ok_iff, inputEntries, List.length_map, List.length_zipIdx]
  simp only [List.forall₂_map_left_iff, Except.mapM_eq_ok_iff]

/-- Entries that are read are in their order, and lead to layers. -/
theorem spells_inputs (numbering : Numbering) :
    ((length 12).read >>= readInputs numbering 0).Spells fun ps used =>
      ∃ sources, List.Forall₂ (Resolves numbering) sources ps ∧
        (list 12 inputEntry).write (inputEntries sources) = .ok used := by
  refine (length_spells 12).bind ?_
  rintro count _ ⟨hlt, rfl⟩
  refine (spells_inputEntries numbering 0 count).mono ?_
  rintro ps _ ⟨sources, parts, rfl, hresolve, hparts, rfl⟩
  exact ⟨sources, hresolve, write_inputEntries_iff.mpr ⟨parts, hparts, hlt, rfl⟩⟩

/-- Such entries are read as what they lead to. -/
theorem takes_inputEntries {numbering : Numbering} {sources : List (UInt32 × UInt32)}
    {ps : List OutputRef} {bytes : List UInt8}
    (hresolve : List.Forall₂ (Resolves numbering) sources ps)
    (hwrite : (list 12 inputEntry).write (inputEntries sources) = .ok bytes) :
    ((length 12).read >>= readInputs numbering 0).Takes bytes ps := by
  obtain ⟨parts, hparts, hlt, rfl⟩ := write_inputEntries_iff.mp hwrite
  have hroom := length_flatten_le (Except.mapM_eq_ok_iff.mp hparts)
    fun _ _ => inputEntry_plain.least
  rw [List.length_zipIdx] at hroom
  exact length_takes (length_write_of_lt hlt) hroom (takes_inputs hresolve (by omega) hparts)

theorem elementType_spelled : elementType.Spelled uint8 fun _ _ => True := uint8_spelled.refine

theorem bool_spelled : bool.Spelled uint8 fun _ _ => True := uint8_spelled.refine

theorem info_spelled : Codec.info.Spelled storedInfo fun _ _ => True := by
  have hdim : dim.Spelled (uint8.seq uint32) fun _ _ => True :=
    (bool_spelled.seq uint32_spelled).imap
  have hraw := elementType_spelled.seq <| (hdim.list 5).seq <| (binary32_spelled.list 4).seq <|
    int32_spelled.seq <| uint32_spelled.seq bool_spelled
  exact Spelled.refine hraw.imap

theorem spells_outputEntries (position count : Nat) :
    (readOutputs position count).Spells fun _ used =>
      ∃ entries parts, entries.length = count ∧
        List.Forall₂ (fun e part => (uint32.seq storedInfo).write e = .ok part) entries parts ∧
        parts.flatten = used := by
  induction count generalizing position with
  | zero => exact .pure ⟨[], [], rfl, .nil, rfl⟩
  | succ count ih =>
    refine Read.Spells.offset fun start => Read.Spells.bind uint32_spelled ?_
    rintro index used ⟨_, rfl, hwrite⟩
    refine Read.Spells.check fun _ => Read.Spells.bind info_spelled ?_
    rintro info used' ⟨stored, -, hwrite'⟩
    refine Read.Spells.map ((ih (position + 1)).mono ?_)
    rintro infos _ ⟨entries, parts, hlength, hparts, rfl⟩
    refine ⟨(index, stored) :: entries, (used ++ used') :: parts, congrArg (· + 1) hlength,
      .cons (seq_write_eq_ok_iff.mpr ⟨used, used', hwrite, hwrite', rfl⟩) hparts, ?_⟩
    rw [List.flatten_cons, List.append_assoc]

/-- A body has the length in front of it. -/
theorem spells_kind {oldLayout : Bool} {firstInput : Option TensorInfo} {start : Nat} {tag : UInt16}
    {number : UInt32} :
    (readKind oldLayout firstInput start tag number).Spells fun _ used =>
      ∃ body, blob.write body = .ok used := by
  refine (length_spells 1).bind ?_
  rintro length _ ⟨hlt, rfl⟩
  intro c kind c' hrun
  obtain ⟨offset, c₁, hoffset, hrun⟩ := Read.bind_eq_ok_iff.mp hrun
  cases hoffset
  split at hrun
  · next body hbody =>
    obtain ⟨kind', c₂, hkind, hrun⟩ := Read.bind_eq_ok_iff.mp hrun
    obtain ⟨stop, c₃, hstop, hrun⟩ := Read.bind_eq_ok_iff.mp hrun
    cases hstop
    obtain ⟨used, hrest, hused, -⟩ := (bodyReader_of_tag hbody).parallel.ok c kind' c₂ hkind
    split at hrun
    · obtain ⟨_, _, -, hrun⟩ := Read.bind_eq_ok_iff.mp hrun
      obtain ⟨_, _, hrun, -⟩ := Read.bind_eq_ok_iff.mp hrun
      cases hrun
    · next hend =>
      cases hrun
      -- The body ends where its length says, so this is the number of bytes that were used.
      have hlength : length = used.length := by
        have hend := not_not.mp hend
        omega
      subst hlength
      exact ⟨used, hrest, hused, used, blob_write_eq_ok_iff.mpr ⟨hlt, rfl⟩⟩
  · cases hrun

/-- What is left of a record behind its input slots. -/
theorem spells_behindInputs {start : Nat} {tag : UInt16} {number : UInt32} {name : String}
    {inputs : List OutputRef} :
    (readBehindInputs features g start tag number name inputs).Spells fun r used =>
      r.number = number ∧ r.name = name ∧ r.inputs = inputs ∧
        ∃ outputs body, ((list 5 (uint32.seq storedInfo)).seq blob).write (outputs, body) =
          .ok used := by
  refine (length_spells 5).bind ?_
  rintro count _ ⟨hlt, rfl⟩
  refine (spells_outputEntries 0 count).bind ?_
  rintro infos _ ⟨entries, parts, rfl, hparts, rfl⟩
  refine spells_kind.bind ?_
  rintro kind used ⟨body, hbody⟩
  have houtputs : (list 5 (uint32.seq storedInfo)).write entries =
      .ok (LittleEndian.encode 4 entries.length ++ parts.flatten) :=
    list_write_eq_ok_iff.mpr ⟨parts, hparts, hlt, rfl⟩
  refine Read.Spells.check fun _ => .pure ⟨rfl, rfl, rfl, entries, body, ?_⟩
  refine seq_write_eq_ok_iff.mpr ⟨_, used, houtputs, hbody, ?_⟩
  rw [List.append_nil, List.append_assoc]

end Container

end LayerGraph
