import LayerGraph.Proofs.Container.Adding

/-! # Records of layers

  The bytes of a record depend on the number of the layer, its name and kind, the numbers of what
  it reads, and its descriptors (`writeRecord`). Main statements: such bytes are read as this
  record (`takes_record`), and whatever record is read can be written (`yields_record`) and begins
  in the bytes (`stays_record`).
-/

namespace LayerGraph

namespace Container

open Codec

/-! ### Writing -/

/-- Writes a record. For each input slot it has the number of a layer and the slot there. -/
def writeRecord (number : UInt32) (name : String) (kind : LayerKind)
    (sources : List (UInt32 × UInt32)) (infos : List TensorInfo) :
    Except ContainerError (List UInt8) := do
  let tag ← Codec.uint16.write kind.tag
  let number ← Codec.uint32.write number
  let name ← Codec.text.write name
  let inputCount ← (Codec.length 12).write sources.length
  let inputs ← sources.zipIdx.mapM fun (source, index) => inputEntry.write (.ofNat index, source)
  let outputCount ← (Codec.length 5).write infos.length
  let outputs ← infos.zipIdx.mapM fun (info, index) => outputEntry.write (.ofNat index, info)
  let body ← Codec.blob.write (← kind.writeBody)
  return tag ++ number ++ name ++ inputCount ++ inputs.flatten ++ outputCount ++ outputs.flatten
    ++ body

/-- What a record says of a slot that is read. -/
def rawSource (order : List LayerId) (p : OutputRef) : UInt32 × UInt32 :=
  (serial order p.layer, .ofNat p.index)

/-- The slots that a layer reads are written as they are numbered. -/
theorem mapM_writeInput {order : List LayerId} {l : Layer} (sources : List OutputRef)
    (position : Nat) :
    ((sources.map some).zipIdx position).mapM (fun (s, i) => writeInput order l i s) =
      ((sources.map (rawSource order)).zipIdx position).mapM
        fun (s, i) => inputEntry.write (.ofNat i, s) := by
  induction sources generalizing position with
  | nil => rfl
  | cons p sources ih =>
    simp only [List.map_cons, List.zipIdx_cons, List.mapM_cons, ih]
    rfl

/-- The slots of a complete layer are written by their descriptors. -/
theorem mapM_writeOutput {l : Layer} {slots : List OutputSlot} {infos : List TensorInfo}
    (h : slots.map (·.info) = infos.map some) (position : Nat) :
    (slots.zipIdx position).mapM (fun (s, i) => writeOutput l i s) =
      (infos.zipIdx position).mapM fun (info, i) => outputEntry.write (.ofNat i, info) := by
  induction slots generalizing position infos with
  | nil =>
    rw [List.map_nil, eq_comm, List.map_eq_nil_iff] at h
    rw [h]
    rfl
  | cons slot slots ih =>
    cases infos with
    | nil => cases h
    | cons info infos =>
      rw [List.map_cons, List.map_cons, List.cons.injEq] at h
      have hslot : writeOutput l position slot = outputEntry.write (.ofNat position, info) := by
        simp only [writeOutput, h.1]
      simp only [List.zipIdx_cons, List.mapM_cons, hslot, ih h.2 (position + 1)]

/-- A complete layer is written by its content. -/
theorem writeLayer_eq_writeRecord {order : List LayerId} {id : LayerId} {l : Layer}
    {sources : List OutputRef} {infos : List TensorInfo}
    (hinputs : l.content.inputs = sources.map some) (hinfos : l.content.infos = infos.map some) :
    writeLayer order id l =
      writeRecord (serial order id) l.name l.kind (sources.map (rawSource order)) infos := by
  have hlen : l.outputs.length = infos.length := by
    have h := congrArg List.length hinfos
    simpa [Layer.content] using h
  have hinputs : l.inputs = sources.map some := hinputs
  simp only [writeLayer, writeRecord, hinputs, hlen, List.length_map, mapM_writeInput,
    mapM_writeOutput hinfos]

/-- The parts of a record that is written. -/
theorem writeRecord_eq_ok_iff {number : UInt32} {name : String} {kind : LayerKind}
    {sources : List (UInt32 × UInt32)} {infos : List TensorInfo} {bytes : List UInt8} :
    writeRecord number name kind sources infos = .ok bytes ↔
      ∃ nameBytes inputs outputs bodyBytes body,
        Codec.text.write name = .ok nameBytes ∧ sources.length < 2 ^ 32 ∧
        sources.zipIdx.mapM (fun (s, i) => inputEntry.write (.ofNat i, s)) = .ok inputs ∧
        infos.length < 2 ^ 32 ∧
        infos.zipIdx.mapM (fun (info, i) => outputEntry.write (.ofNat i, info)) = .ok outputs ∧
        kind.writeBody = .ok bodyBytes ∧ Codec.blob.write bodyBytes = .ok body ∧
        bytes = LittleEndian.encode 2 kind.tag.toNat ++ (LittleEndian.encode 4 number.toNat ++
          (nameBytes ++ (LittleEndian.encode 4 sources.length ++ (inputs.flatten ++
            (LittleEndian.encode 4 infos.length ++ (outputs.flatten ++ body)))))) := by
  have htag : Codec.uint16.write kind.tag = .ok (LittleEndian.encode 2 kind.tag.toNat) := rfl
  have hnumber : Codec.uint32.write number = .ok (LittleEndian.encode 4 number.toNat) := rfl
  simp only [writeRecord, htag, hnumber, Except.bind_eq_ok_iff, Except.pure_eq_ok_iff,
    Except.ok.injEq, Codec.length_write_eq_ok_iff, eq_comm (b := bytes), List.append_assoc]
  constructor
  · rintro ⟨_, rfl, _, rfl, nameBytes, hname, _, ⟨hsources, rfl⟩, inputs, hinputs, _, ⟨hinfos, rfl⟩,
      outputs, houtputs, bodyBytes, hbodyBytes, body, hbody, h⟩
    exact ⟨nameBytes, inputs, outputs, bodyBytes, body, hname, hsources, hinputs, hinfos, houtputs,
      hbodyBytes, hbody, h⟩
  · rintro ⟨nameBytes, inputs, outputs, bodyBytes, body, hname, hsources, hinputs, hinfos, houtputs,
      hbodyBytes, hbody, h⟩
    exact ⟨_, rfl, _, rfl, nameBytes, hname, _, ⟨hsources, rfl⟩, inputs, hinputs, _, ⟨hinfos, rfl⟩,
      outputs, houtputs, bodyBytes, hbodyBytes, body, hbody, h⟩

/-! ### Slots -/

theorem inputEntry_plain : inputEntry.Plain 12 :=
  uint32_plain.seq (uint32_plain.seq uint32_plain)

theorem inputEntry_fits (e : UInt32 × UInt32 × UInt32) : inputEntry.Fits e 12 :=
  seq_fits_iff.mpr ⟨4, 8, uint32_fits _,
    seq_fits_iff.mpr ⟨4, 4, uint32_fits _, uint32_fits _, rfl⟩, rfl⟩

theorem outputEntry_lawful : outputEntry.Lawful (fun (_, info) => info.Consistent) 22 :=
  (Lawful.seq uint32_plain info_lawful).congr fun _ => by simp

/-- A source of a record that leads to a slot of a layer. -/
def Resolves (numbering : Numbering) (source : UInt32 × UInt32) (p : OutputRef) : Prop :=
  numbering.lookup source.1 = some p.layer ∧ source.2.toNat = p.index

/-- The entries of input slots are read in their order, and lead to the layers they name. -/
theorem takes_inputs {numbering : Numbering} {sources : List (UInt32 × UInt32)}
    {ps : List OutputRef} {parts : List (List UInt8)} {position : Nat}
    (hresolve : List.Forall₂ (Resolves numbering) sources ps)
    (hposition : position + sources.length ≤ 2 ^ 32)
    (hwrite : (sources.zipIdx position).mapM (fun (s, i) => inputEntry.write (.ofNat i, s)) =
      .ok parts) :
    (readInputs numbering position sources.length).Takes parts.flatten ps := by
  induction hresolve generalizing position parts with
  | nil =>
    cases hwrite
    exact Read.Takes.pure
  | @cons source p sources ps hhead _ ih =>
    rw [List.zipIdx_cons, List.mapM_cons, Except.bind_eq_ok_iff] at hwrite
    obtain ⟨part, hpart, hwrite⟩ := hwrite
    obtain ⟨parts, hparts, h⟩ := Except.bind_eq_ok_iff.mp hwrite
    rw [← Except.pure_eq_ok_iff.mp h]
    rw [List.length_cons] at hposition
    refine Read.Takes.offset fun start => (inputEntry_plain.takes trivial hpart).bind ?_
    have hlt : position < 2 ^ 32 := by omega
    -- The position is stored in 32 bits, and it fits.
    have hindex : (UInt32.ofNat position).toNat = position := UInt32.toNat_ofNat_of_lt' hlt
    refine Read.Takes.check (not_not.mpr hindex) ?_
    have hlookup : numbering.lookup source.1 = some p.layer := hhead.1
    simp only [hlookup]
    refine (ih (by omega) hparts).then ?_
    rw [hhead.2]
    exact Read.Takes.pure

/-- The entries of output slots are read in their order. -/
theorem takes_outputs {infos : List TensorInfo} {parts : List (List UInt8)} {position : Nat}
    (hinfos : ∀ info ∈ infos, info.Consistent) (hposition : position + infos.length ≤ 2 ^ 32)
    (hwrite : (infos.zipIdx position).mapM (fun (info, i) => outputEntry.write (.ofNat i, info)) =
      .ok parts) :
    (readOutputs position infos.length).Takes parts.flatten infos := by
  induction infos generalizing position parts with
  | nil =>
    cases hwrite
    exact Read.Takes.pure
  | cons info infos ih =>
    rw [List.zipIdx_cons, List.mapM_cons, Except.bind_eq_ok_iff] at hwrite
    obtain ⟨part, hpart, hwrite⟩ := hwrite
    obtain ⟨parts, hparts, h⟩ := Except.bind_eq_ok_iff.mp hwrite
    rw [← Except.pure_eq_ok_iff.mp h]
    obtain ⟨xs, ys, hxs, hys, rfl⟩ := seq_write_eq_ok_iff.mp hpart
    obtain ⟨hinfo, hinfos⟩ := List.forall_mem_cons.mp hinfos
    rw [List.length_cons] at hposition
    rw [List.flatten_cons, List.append_assoc]
    refine Read.Takes.offset fun start => (uint32_plain.takes trivial hxs).bind ?_
    have hlt : position < 2 ^ 32 := by omega
    have hindex : (UInt32.ofNat position).toNat = position := UInt32.toNat_ofNat_of_lt' hlt
    refine Read.Takes.check (not_not.mpr hindex) ?_
    exact (info_lawful.takes hinfo hys).bind (ih hinfos (by omega) hparts).map

/-! ### Bodies -/

/-- The body of a storable kind is read up to its end. -/
theorem takes_kind {kind : LayerKind} (hkind : kind.Storable) {bodyBytes body : List UInt8}
    (hwrite : kind.writeBody = .ok bodyBytes) (hbody : Codec.blob.write bodyBytes = .ok body)
    (firstInput : Option TensorInfo) (start : Nat) (number : UInt32) :
    (readKind false firstInput start kind.tag number).Takes body kind := by
  obtain ⟨hlt, rfl⟩ := blob_write_eq_ok_iff.mp hbody
  obtain ⟨read, hread, htakes⟩ := takes_body hkind hwrite firstInput
  refine length_takes (length_write_of_lt hlt) (by simp) ?_
  -- The end is measured from where the body begins, so the cursor is followed here.
  intro offset rest
  refine Read.bind_eq_ok_iff.mpr ⟨offset, _, Read.run_offset, ?_⟩
  simp only [hread]
  refine Read.bind_eq_ok_iff.mpr ⟨kind, _, htakes offset rest, ?_⟩
  refine Read.bind_eq_ok_iff.mpr ⟨_, _, Read.run_offset, ?_⟩
  simp

theorem tag_lt (kind : LayerKind) : kind.tag.toNat < tagLimit := by
  cases kind <;> (simp only [LayerKind.tag]; decide)

/-- What is written for a record is read as this record. -/
theorem takes_record {features : Features} {numbering : Numbering} {g : Graph} {number : UInt32}
    {name : String} {kind : LayerKind} {sources : List (UInt32 × UInt32)} {ps : List OutputRef}
    {infos : List TensorInfo} {bytes : List UInt8}
    (hwrite : writeRecord number name kind sources infos = .ok bytes)
    (hfeatures : features.weightsLayout ≠ 0) (hnew : numbering.lookup number = none)
    (hresolve : List.Forall₂ (Resolves numbering) sources ps)
    (hinfos : ∀ info ∈ infos, info.Consistent) (hkind : kind.Storable)
    (hslots : kind.inputCount = ps.length ∧ kind.outputCount = infos.length)
    (offset : Nat) (rest : List UInt8) :
    (readRecord features numbering g).run ⟨offset, bytes ++ rest⟩ =
      .ok (⟨offset, number, name, kind, ps, infos⟩, ⟨offset + bytes.length, rest⟩) := by
  obtain ⟨nameBytes, inputs, outputs, bodyBytes, body, hname, hsources, hinputs, houtputsLt,
    houtputs, hbodyBytes, hbody, rfl⟩ := writeRecord_eq_ok_iff.mp hwrite
  refine Read.bind_eq_ok_iff.mpr ⟨offset, _, Read.run_offset, ?_⟩
  suffices h : Read.Takes _ _ _ from h offset rest
  refine (uint16_plain.takes trivial rfl).bind ?_
  refine Read.Takes.check (Nat.not_le.mpr (tag_lt kind)) ?_
  refine Read.Takes.offset fun numberStart => (uint32_plain.takes trivial rfl).bind ?_
  refine Read.Takes.check (by simp [hnew]) ?_
  refine (text_plain.takes trivial hname).bind ?_
  -- The lengths announced for inputs and outputs have to fit into the bytes behind them.
  have hroom := length_flatten_le (Except.mapM_eq_ok_iff.mp hinputs)
    fun _ _ => inputEntry_plain.least
  have hroom' := length_flatten_le (Except.mapM_eq_ok_iff.mp houtputs)
    fun _ _ => outputEntry_lawful.least
  rw [List.length_zipIdx] at hroom hroom'
  refine length_takes (length_write_of_lt hsources) (by simp only [List.length_append]; omega) ?_
  refine (takes_inputs hresolve (by omega) hinputs).bind ?_
  refine length_takes (length_write_of_lt houtputsLt) (by simp only [List.length_append]; omega) ?_
  refine (takes_outputs hinfos (by omega) houtputs).bind ?_
  have hold : decide (features.weightsLayout = 0) = false := decide_eq_false hfeatures
  rw [hold]
  refine (takes_kind hkind hbodyBytes hbody _ offset number).then ?_
  refine Read.Takes.check ?_ Read.Takes.pure
  simp [hslots]

/-! ### Records that are refused -/

theorem refuses_outputs {infos : List TensorInfo} {parts : List (List UInt8)} {position : Nat}
    (hscaled : ∀ info ∈ infos, info.Scaled) (hbad : ¬ ∀ info ∈ infos, info.Consistent)
    (hposition : position + infos.length ≤ 2 ^ 32)
    (hwrite : (infos.zipIdx position).mapM (fun (info, i) => outputEntry.write (.ofNat i, info)) =
      .ok parts) :
    (readOutputs position infos.length).Refuses parts.flatten := by
  induction infos generalizing position parts with
  | nil => exact absurd nofun hbad
  | cons info infos ih =>
    rw [List.zipIdx_cons, List.mapM_cons, Except.bind_eq_ok_iff] at hwrite
    obtain ⟨part, hpart, hwrite⟩ := hwrite
    obtain ⟨parts, hparts, h⟩ := Except.bind_eq_ok_iff.mp hwrite
    rw [← Except.pure_eq_ok_iff.mp h]
    obtain ⟨xs, ys, hxs, hys, rfl⟩ := seq_write_eq_ok_iff.mp hpart
    obtain ⟨hinfo, hscaled⟩ := List.forall_mem_cons.mp hscaled
    rw [List.length_cons] at hposition
    rw [List.flatten_cons, List.append_assoc]
    refine Read.Refuses.offset fun start => (uint32_plain.takes trivial hxs).bind_refuses ?_
    have hlt : position < 2 ^ 32 := by omega
    have hindex : (UInt32.ofNat position).toNat = position := UInt32.toNat_ofNat_of_lt' hlt
    refine Read.Refuses.check (not_not.mpr hindex) ?_
    -- The first descriptor that is not consistent is where reading stops.
    by_cases hconsistent : info.Consistent
    · have hrest : ¬ ∀ info ∈ infos, info.Consistent := fun hall =>
        hbad (List.forall_mem_cons.mpr ⟨hconsistent, hall⟩)
      exact (info_lawful.takes hconsistent hys).bind_refuses
        (ih hscaled hrest (by omega) hparts).bind
    · exact (info_strict hinfo hconsistent hys).bind.append

theorem refuses_kind {kind : LayerKind} (hscaled : ∀ t ∈ kind.constants, t.info.Scaled)
    (hbad : ¬ ∀ t ∈ kind.constants, t.info.Consistent) {bodyBytes body : List UInt8}
    (hwrite : kind.writeBody = .ok bodyBytes) (hbody : Codec.blob.write bodyBytes = .ok body)
    (firstInput : Option TensorInfo) (start : Nat) (number : UInt32) :
    (readKind false firstInput start kind.tag number).Refuses body := by
  obtain ⟨hlt, rfl⟩ := blob_write_eq_ok_iff.mp hbody
  obtain ⟨read, hread, hrefuses⟩ := refuses_body hscaled hbad hwrite firstInput
  refine length_refuses (length_write_of_lt hlt) (by simp) ?_
  refine Read.Refuses.offset fun offset => ?_
  simp only [hread]
  exact hrefuses.bind

/-- What is written for a record with a descriptor that is not consistent is refused. -/
theorem refuses_record {features : Features} {numbering : Numbering} {g : Graph} {number : UInt32}
    {name : String} {kind : LayerKind} {sources : List (UInt32 × UInt32)} {ps : List OutputRef}
    {infos : List TensorInfo} {bytes : List UInt8}
    (hwrite : writeRecord number name kind sources infos = .ok bytes)
    (hfeatures : features.weightsLayout ≠ 0) (hnew : numbering.lookup number = none)
    (hresolve : List.Forall₂ (Resolves numbering) sources ps)
    (hinfos : ∀ info ∈ infos, info.Scaled) (hkind : ∀ t ∈ kind.constants, t.info.Scaled)
    (hbad : ¬ ((∀ info ∈ infos, info.Consistent) ∧ ∀ t ∈ kind.constants, t.info.Consistent)) :
    (readRecord features numbering g).Refuses bytes := by
  obtain ⟨nameBytes, inputs, outputs, bodyBytes, body, hname, hsources, hinputs, houtputsLt,
    houtputs, hbodyBytes, hbody, rfl⟩ := writeRecord_eq_ok_iff.mp hwrite
  refine Read.Refuses.offset fun start => (uint16_plain.takes trivial rfl).bind_refuses ?_
  refine Read.Refuses.check (Nat.not_le.mpr (tag_lt kind)) ?_
  refine Read.Refuses.offset fun numberStart => (uint32_plain.takes trivial rfl).bind_refuses ?_
  refine Read.Refuses.check (by simp [hnew]) ?_
  refine (text_plain.takes trivial hname).bind_refuses ?_
  have hroom := length_flatten_le (Except.mapM_eq_ok_iff.mp hinputs)
    fun _ _ => inputEntry_plain.least
  have hroom' := length_flatten_le (Except.mapM_eq_ok_iff.mp houtputs)
    fun _ _ => outputEntry_lawful.least
  rw [List.length_zipIdx] at hroom hroom'
  refine length_refuses (length_write_of_lt hsources) (by simp only [List.length_append]; omega) ?_
  refine (takes_inputs hresolve (by omega) hinputs).bind_refuses ?_
  refine length_refuses (length_write_of_lt houtputsLt)
    (by simp only [List.length_append]; omega) ?_
  -- Either a descriptor of an output is refused, or all are read and a constant is.
  by_cases hconsistent : ∀ info ∈ infos, info.Consistent
  · refine (takes_outputs hconsistent (by omega) houtputs).bind_refuses ?_
    have hold : decide (features.weightsLayout = 0) = false := decide_eq_false hfeatures
    rw [hold]
    have hconstants : ¬ ∀ t ∈ kind.constants, t.info.Consistent := fun hall =>
      hbad ⟨hconsistent, hall⟩
    exact (refuses_kind hkind hconstants hbodyBytes hbody _ start number).bind
  · exact (refuses_outputs hinfos hconsistent (by omega) houtputs).bind.append

/-! ### Records that are read -/

/-- A body is read up to its end, so its size is the length in front of it. -/
theorem yields_kind {oldLayout : Bool} {firstInput : Option TensorInfo} {start : Nat} {tag : UInt16}
    {number : UInt32} :
    (readKind oldLayout firstInput start tag number).Yields fun kind _ =>
      ∃ n < 2 ^ 32, kind.LoadedIn oldLayout n := by
  refine (length_yields 1).bind ?_
  rintro length _ ⟨hlt, rfl⟩
  intro c kind c' hrun
  obtain ⟨offset, c₁, hoffset, hrun⟩ := Read.bind_eq_ok_iff.mp hrun
  cases hoffset
  split at hrun
  · next body hbody =>
    obtain ⟨kind', c₂, hkind, hrun⟩ := Read.bind_eq_ok_iff.mp hrun
    obtain ⟨stop, c₃, hstop, hrun⟩ := Read.bind_eq_ok_iff.mp hrun
    cases hstop
    obtain ⟨used, hrest, hused, hloaded⟩ := (bodyReader_of_tag hbody).yields c kind' c₂ hkind
    split at hrun
    · obtain ⟨_, _, -, hrun⟩ := Read.bind_eq_ok_iff.mp hrun
      obtain ⟨_, _, hrun, -⟩ := Read.bind_eq_ok_iff.mp hrun
      cases hrun
    · next hend =>
      cases hrun
      -- The body ended where its length says.
      have hlength : used.length = length := by
        have hend := not_not.mp hend
        omega
      exact ⟨used, hrest, hused, used.length, hlength ▸ hlt, hloaded⟩
  · cases hrun

theorem yields_inputs {numbering : Numbering} (position count : Nat) :
    (readInputs numbering position count).Yields fun ps _ =>
      ps.length = count ∧ ∀ p ∈ ps, ∃ number, numbering.lookup number = some p.layer := by
  induction count generalizing position with
  | zero => exact .pure ⟨rfl, by simp⟩
  | succ count ih =>
    refine Read.Yields.offset fun start => inputEntry_plain.yields.bind ?_
    rintro ⟨index, producer, slot⟩ n -
    refine Read.Yields.check fun _ => ?_
    split
    · next layer hlookup =>
      refine Read.Yields.map ((ih (position + 1)).mono ?_)
      rintro ps m ⟨rfl, hps⟩
      exact ⟨rfl, List.forall_mem_cons.mpr ⟨⟨producer, hlookup⟩, hps⟩⟩
    · exact .throw

theorem yields_outputs (position count : Nat) :
    (readOutputs position count).Yields fun infos _ =>
      infos.length = count ∧ ∀ info ∈ infos, info.Consistent ∧ ∃ n, Codec.info.Fits info n := by
  induction count generalizing position with
  | zero => exact .pure ⟨rfl, by simp⟩
  | succ count ih =>
    refine Read.Yields.offset fun start => uint32_plain.yields.bind ?_
    rintro index n -
    refine Read.Yields.check fun _ => info_lawful.yields.bind ?_
    rintro info m ⟨hinfo, hfits⟩
    refine Read.Yields.map ((ih (position + 1)).mono ?_)
    rintro infos k ⟨rfl, hinfos⟩
    exact ⟨rfl, List.forall_mem_cons.mpr ⟨⟨hinfo, m, hfits⟩, hinfos⟩⟩

/-- What is known of a record from a container. -/
structure RecordLoaded (oldLayout : Bool) (numbering : Numbering) (r : LayerRecord) : Prop where
  new : numbering.lookup r.number = none
  name : ∃ n, Codec.text.Fits r.name n
  inputs_lt : r.inputs.length < 2 ^ 32
  inputs : ∀ p ∈ r.inputs, ∃ number, numbering.lookup number = some p.layer
  outputs_lt : r.outputs.length < 2 ^ 32
  outputs : ∀ info ∈ r.outputs, info.Consistent ∧ ∃ n, Codec.info.Fits info n
  kind : ∃ n < 2 ^ 32, r.kind.LoadedIn oldLayout n
  slots : r.HasSlots

/-- Whatever record is read can be written again. -/
theorem yields_record {features : Features} {numbering : Numbering} {g : Graph} :
    (readRecord features numbering g).Yields fun r _ =>
      RecordLoaded (decide (features.weightsLayout = 0)) numbering r := by
  refine Read.Yields.offset fun start => uint16_plain.yields.bind ?_
  rintro tag _ -
  refine Read.Yields.check fun _ => Read.Yields.offset fun numberStart => ?_
  refine uint32_plain.yields.bind ?_
  rintro number _ -
  refine Read.Yields.check fun hnew => text_plain.yields.bind ?_
  rintro name n ⟨-, hname⟩
  refine (length_yields 12).bind ?_
  rintro inputCount _ ⟨hinputCount, rfl⟩
  refine (yields_inputs 0 inputCount).bind ?_
  rintro inputs _ ⟨rfl, hinputs⟩
  refine (length_yields 5).bind ?_
  rintro outputCount _ ⟨houtputCount, rfl⟩
  refine (yields_outputs 0 outputCount).bind ?_
  rintro outputs _ ⟨rfl, houtputs⟩
  refine yields_kind.bind ?_
  rintro kind _ hkind
  refine Read.Yields.check fun hslots => .pure ?_
  rw [not_or, not_not, not_not] at hslots
  exact ⟨Option.not_isSome_iff_eq_none.mp hnew, ⟨n, hname⟩, hinputCount, hinputs, houtputCount,
    houtputs, hkind, hslots⟩

/-! ### Places in records -/

theorem stays_inputs (numbering : Numbering) (position count : Nat) (bytes : List UInt8) :
    (readInputs numbering position count).StaysIn bytes fun _ => True := by
  induction count generalizing position with
  | zero => exact .pure trivial
  | succ count ih =>
    refine Read.StaysIn.offset fun start hstart => ?_
    refine (inputEntry_plain.stays bytes).bind fun entry _ => ?_
    refine Read.StaysIn.check hstart ?_
    split
    · exact (ih (position + 1)).map
    · exact .throw hstart

theorem stays_outputs (position count : Nat) (bytes : List UInt8) :
    (readOutputs position count).StaysIn bytes fun _ => True := by
  induction count generalizing position with
  | zero => exact .pure trivial
  | succ count ih =>
    refine Read.StaysIn.offset fun start hstart => (uint32_plain.stays bytes).bind fun index _ => ?_
    refine Read.StaysIn.check hstart ?_
    exact (info_lawful.stays bytes).bind fun info _ => (ih (position + 1)).map

theorem stays_kind {oldLayout : Bool} {firstInput : Option TensorInfo} {start : Nat} {tag : UInt16}
    {number : UInt32} {bytes : List UInt8} (hstart : start ≤ bytes.length) :
    (readKind oldLayout firstInput start tag number).StaysIn bytes fun _ => True := by
  unfold readKind
  intro c hc
  apply (length_stays 1 bytes).bind_run (q := fun _ => True) hc
  intro length c₁ hlength hc₁ _
  -- The length was checked against what is left, so the end of the body is in the bytes.
  have hstop : c₁.offset + length ≤ bytes.length := by
    have hroom := length_room hlength
    have hin := hc₁.length
    omega
  rw [Read.run_bind_of_ok Read.run_offset]
  suffices h : Read.StaysIn _ bytes fun _ => True from h c₁ hc₁
  split
  · next body hbody =>
    refine ((bodyReader_of_tag hbody).stays bytes).bind fun kind _ => ?_
    refine Read.StaysIn.offset fun stop _ => ?_
    split
    · exact Read.StaysIn.offset fun _ _ =>
        (Read.StaysIn.refuse (p := fun _ => False) hstop).bind fun _ h => h.elim
    · exact .pure trivial
  · exact .throw hstart

/-- Whatever record is read, it begins in the bytes. -/
theorem stays_record (features : Features) (numbering : Numbering) (g : Graph)
    (bytes : List UInt8) :
    (readRecord features numbering g).StaysIn bytes fun r => r.offset ≤ bytes.length := by
  refine Read.StaysIn.offset fun start hstart => (uint16_plain.stays bytes).bind fun tag _ => ?_
  refine Read.StaysIn.check hstart ?_
  refine Read.StaysIn.offset fun numberStart hnumber => ?_
  refine (uint32_plain.stays bytes).bind fun number _ => ?_
  refine Read.StaysIn.check hnumber ?_
  refine (text_plain.stays bytes).bind fun name _ => ?_
  refine (length_stays 12 bytes).bind fun inputCount _ => ?_
  refine (stays_inputs numbering 0 inputCount bytes).bind fun inputs _ => ?_
  refine (length_stays 5 bytes).bind fun outputCount _ => ?_
  refine (stays_outputs 0 outputCount bytes).bind fun outputs _ => ?_
  refine (stays_kind hstart).bind fun kind _ => ?_
  exact Read.StaysIn.check hstart (.pure hstart)

/-! ### Bytes behind records -/

theorem steady_inputs (numbering : Numbering) (position count : Nat) :
    (readInputs numbering position count).Steady := by
  induction count generalizing position with
  | zero => exact .pure
  | succ count ih =>
    refine Read.Steady.offset fun start => inputEntry_plain.steady.bind fun entry => ?_
    refine Read.Steady.check ?_
    split
    · exact (ih (position + 1)).map
    · exact .throw

theorem steady_outputs (position count : Nat) : (readOutputs position count).Steady := by
  induction count generalizing position with
  | zero => exact .pure
  | succ count ih =>
    refine Read.Steady.offset fun start => uint32_plain.steady.bind fun index => ?_
    refine Read.Steady.check (info_lawful.steady.bind fun info => ?_)
    exact (ih (position + 1)).map

theorem steady_kind {oldLayout : Bool} {firstInput : Option TensorInfo} {start : Nat}
    {tag : UInt16} {number : UInt32} :
    (readKind oldLayout firstInput start tag number).Steady := by
  refine (length_steady 1).bind fun length => Read.Steady.offset fun offset => ?_
  split
  · next body hbody =>
    refine (bodyReader_of_tag hbody).steady.bind fun kind => Read.Steady.offset fun stop => ?_
    split
    · exact Read.Steady.offset fun _ => Read.Steady.refuse.bind fun _ => .pure
    · exact .pure
  · exact .throw

/-- Whatever record is read, bytes behind it do not matter. -/
theorem steady_record (features : Features) (numbering : Numbering) (g : Graph) :
    (readRecord features numbering g).Steady := by
  refine Read.Steady.offset fun start => uint16_plain.steady.bind fun tag => ?_
  refine Read.Steady.check (Read.Steady.offset fun numberStart => ?_)
  refine uint32_plain.steady.bind fun number => ?_
  refine Read.Steady.check (text_plain.steady.bind fun name => ?_)
  refine (length_steady 12).bind fun inputCount => ?_
  refine (steady_inputs numbering 0 inputCount).bind fun inputs => ?_
  refine (length_steady 5).bind fun outputCount => ?_
  refine (steady_outputs 0 outputCount).bind fun outputs => ?_
  refine steady_kind.bind fun kind => ?_
  exact Read.Steady.check .pure

/-! ### Records at another place -/

theorem parallel_inputs (numbering : Numbering) (position count : Nat) :
    Read.Parallel Eq (readInputs numbering position count)
      (readInputs numbering position count) := by
  induction count generalizing position with
  | zero => exact .pure rfl
  | succ count ih =>
    refine Read.Parallel.offset fun start start' => inputEntry_plain.parallel.bind_eq fun entry => ?_
    refine Read.Parallel.check Iff.rfl rfl ?_
    dsimp only
    cases numbering.lookup entry.2.1 with
    | some layer => exact (ih (position + 1)).map
    | none => exact .throw rfl

theorem parallel_outputs (position count : Nat) :
    Read.Parallel Eq (readOutputs position count) (readOutputs position count) := by
  induction count generalizing position with
  | zero => exact .pure rfl
  | succ count ih =>
    refine Read.Parallel.offset fun start start' => uint32_plain.parallel.bind_eq fun index => ?_
    refine Read.Parallel.check Iff.rfl rfl (info_lawful.parallel.bind_eq fun info => ?_)
    exact (ih (position + 1)).map

/-- Checks that a body, which was read between two places, has the given length. -/
def checkBody (length : Nat) (number : UInt32) : Nat × LayerKind × Nat → Read LayerKind
  | (begin, kind, stop) => do
    if stop ≠ begin + length then
      Read.refuse (begin + length) (.bodyEnd kind.name number (← Read.offset))
    return kind

/-- A body ends where its length says at the other place, too. Places and numbers are only named in
    errors. -/
theorem parallel_kind {oldLayout : Bool} {firstInput : Option TensorInfo} {start start' : Nat}
    {tag : UInt16} {number number' : UInt32} :
    Read.Parallel Eq (readKind oldLayout firstInput start tag number)
      (readKind oldLayout firstInput start' tag number') := by
  refine (length_parallel 1).bind_eq fun length => ?_
  cases hbody : readBody? oldLayout firstInput tag with
  | none => exact Read.Parallel.offset fun _ _ => .throw rfl
  | some body =>
    have hchecked : Read.Parallel Eq (Read.between body >>= checkBody length number)
        (Read.between body >>= checkBody length number') := by
      refine (bodyReader_of_tag hbody).parallel.between.bind ?_
      rintro ⟨begin, kind, _⟩ ⟨begin', _, _⟩ ⟨rfl, count, rfl, rfl⟩
      by_cases hend : count = length
      · subst hend
        simpa [checkBody] using Read.Parallel.pure rfl
      · simp only [checkBody, ne_eq, Nat.add_left_cancel_iff, hend, not_false_eq_true, if_true]
        exact Read.Parallel.offset fun _ _ => Read.Parallel.refuse.bind_eq fun _ => .pure rfl
    simpa [Read.between, checkBody] using hchecked

/-- What is left to read of a record behind its input slots. -/
def readBehindInputs (features : Features) (g : Graph) (start : Nat) (tag : UInt16)
    (number : UInt32) (name : String) (inputs : List OutputRef) : Read LayerRecord := do
  let outputs ← readOutputs 0 (← (Codec.length 5).read)
  let firstInput := inputs.head?.bind g.info?
  let kind ← readKind (features.weightsLayout = 0) firstInput start tag number
  if kind.inputCount ≠ inputs.length ∨ kind.outputCount ≠ outputs.length then
    Read.refuse start (.slotCount kind.name number inputs.length outputs.length
      kind.inputCount kind.outputCount)
  return ⟨start, number, name, kind, inputs, outputs⟩

/-- The rest of a record does not depend on its place, nor on its number. -/
theorem parallel_behindInputs {features : Features} {g : Graph} {start : Nat} {tag : UInt16}
    {number : UInt32} {name : String} {inputs : List OutputRef} (start' : Nat) (number' : UInt32) :
    Read.Parallel
      (fun r r' => r.number = number ∧ r' = { r with offset := start', number := number' })
      (readBehindInputs features g start tag number name inputs)
      (readBehindInputs features g start' tag number' name inputs) := by
  refine (length_parallel 5).bind_eq fun outputCount => ?_
  refine (parallel_outputs 0 outputCount).bind_eq fun outputs => ?_
  refine parallel_kind.bind_eq fun kind => ?_
  exact Read.Parallel.check Iff.rfl rfl (.pure ⟨rfl, rfl⟩)

/-- A record is read alike at another place, but for this. -/
theorem parallel_record (features : Features) (numbering : Numbering) (g : Graph) :
    Read.Parallel (fun r r' => r' = { r with offset := r'.offset })
      (readRecord features numbering g) (readRecord features numbering g) := by
  refine Read.Parallel.offset fun start start' => uint16_plain.parallel.bind_eq fun tag => ?_
  refine Read.Parallel.check Iff.rfl rfl (Read.Parallel.offset fun numberStart numberStart' => ?_)
  refine uint32_plain.parallel.bind_eq fun number => ?_
  refine Read.Parallel.check Iff.rfl rfl (text_plain.parallel.bind_eq fun name => ?_)
  refine (length_parallel 12).bind_eq fun inputCount => ?_
  refine (parallel_inputs numbering 0 inputCount).bind_eq fun inputs => ?_
  refine (parallel_behindInputs start' number).mono ?_
  rintro r _ ⟨rfl, rfl⟩
  rfl

end Container

end LayerGraph
