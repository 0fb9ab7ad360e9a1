import LayerGraph.Proofs.Container.Records
import LayerGraph.Proofs.Graph.Alike

/-! # What is written for a graph

  A container is taken apart into the bytes in front of the records, the records, and the lists of
  bindings (`serialize_eq_ok_iff`). It depends on the contents of the layers and on the boundaries
  only, so alike graphs have the same container (`Alike.serialize`). A graph that is not complete
  is refused for the first layer that lacks something, which only its identity tells from the one of
  an alike graph (`Alike.serialize_anonymous`).
-/

namespace LayerGraph

/-! ### What can be read back -/

/-- A layer that can be read back. -/
structure LayerContent.Storable (c : LayerContent) : Prop where
  /-- The descriptors of the outputs are consistent. -/
  infos : ∀ info, some info ∈ c.infos → info.Consistent
  /-- So are those of constants, and a splitter has as many sizes as origins. -/
  kind : c.kind.Storable

instance (c : LayerContent) : Decidable c.Storable :=
  decidable_of_iff ((∀ source ∈ c.infos, ∀ info ∈ source, info.Consistent) ∧ c.kind.Storable)
    ⟨fun h => ⟨fun info hinfo => h.1 _ hinfo info rfl, h.2⟩,
      fun h => ⟨fun _ hsource info hinfo => h.infos info (hinfo ▸ hsource), h.kind⟩⟩

/-- A layer that can be read back as far as the numbers of scales go. -/
structure LayerContent.Scaled (c : LayerContent) : Prop where
  infos : ∀ info, some info ∈ c.infos → info.Scaled
  constants : ∀ t ∈ c.kind.constants, t.info.Scaled
  evenParts : c.kind.EvenParts

namespace Graph

/-- A graph whose layers can be read back. -/
def Storable (g : Graph) : Prop := ∀ id c, g.content? id = some c → c.Storable

instance (g : Graph) : Decidable g.Storable :=
  decidable_of_iff (∀ l ∈ g.layers, l.content.Storable)
    (forall_content?_iff LayerContent.Storable).symm

/-- A graph whose layers can be read back as far as the numbers of scales go. -/
def Scaled (g : Graph) : Prop := ∀ id c, g.content? id = some c → c.Scaled

end Graph

namespace Container

/-! ### In front of the records -/

/-- Writes the mark, the versions and the number of records. -/
def writePreamble (count : Nat) : Except ContainerError (List UInt8) := do
  let version ← Codec.uint32.write formatVersion
  let features ← Features.current.write
  let count ← (Codec.length 18).write count
  return magic ++ version ++ features ++ count

theorem writePreamble_eq_ok_iff {count : Nat} {front : List UInt8} :
    writePreamble count = .ok front ↔
      ∃ features, Features.current.write = .ok features ∧ count < 2 ^ 32 ∧
        front = (magic ++ LittleEndian.encode 4 formatVersion.toNat) ++
          (features ++ LittleEndian.encode 4 count) := by
  have hversion : Codec.uint32.write formatVersion =
      .ok (LittleEndian.encode 4 formatVersion.toNat) := rfl
  simp only [writePreamble, hversion, Except.bind_eq_ok_iff, Except.pure_eq_ok_iff,
    Except.ok.injEq, Codec.length_write_eq_ok_iff, List.append_assoc, eq_comm (b := front)]
  constructor
  · rintro ⟨_, rfl, features, hfeatures, _, ⟨hlt, rfl⟩, h⟩
    exact ⟨features, hfeatures, hlt, h⟩
  · rintro ⟨features, hfeatures, hlt, h⟩
    exact ⟨_, rfl, features, hfeatures, _, ⟨hlt, rfl⟩, h⟩

/-- The table of features can be written. -/
theorem exists_writePreamble {count : Nat} (h : count < 2 ^ 32) :
    ∃ front, writePreamble count = .ok front := by
  have hfeatures : ∃ features, Features.current.write = .ok features := ⟨_, rfl⟩
  obtain ⟨features, hfeatures⟩ := hfeatures
  exact ⟨_, writePreamble_eq_ok_iff.mpr ⟨features, hfeatures, h, rfl⟩⟩

theorem entry_plain : Features.entry.Plain 6 := Codec.uint16_plain.seq Codec.uint32_plain

/-! ### The records -/

/-- The bytes are the record of a layer. -/
def RecordOf (g : Graph) (order : List LayerId) (id : LayerId) (bytes : List UInt8) : Prop :=
  ∃ (c : LayerContent) (sources : List OutputRef) (infos : List TensorInfo),
    g.content? id = some c ∧ c.inputs = sources.map some ∧ c.infos = infos.map some ∧
      writeRecord (serial order id) c.name c.kind (sources.map (rawSource order)) infos = .ok bytes

theorem RecordOf.least {g : Graph} {order : List LayerId} {id : LayerId} {bytes : List UInt8}
    (h : RecordOf g order id bytes) : 18 ≤ bytes.length := by
  obtain ⟨c, sources, infos, -, -, -, hwrite⟩ := h
  obtain ⟨name, inputs, outputs, bodyBytes, body, hname, -, -, -, -, -, hbody, rfl⟩ :=
    writeRecord_eq_ok_iff.mp hwrite
  have hname := Codec.text_plain.least hname
  have hbody := Codec.blob_plain.least hbody
  simp only [List.length_append, LittleEndian.length_encode]
  omega

end Container

namespace Graph

open Container

variable {g g' : Graph} {bytes : List UInt8}

theorem Complete.recordOf_iff (hg : g.Complete) {order : List LayerId} {id : LayerId} {l : Layer}
    (hl : g.layers[id]? = some l) :
    writeLayer order id l = .ok bytes ↔ RecordOf g order id bytes := by
  have hc : g.content? id = some l.content := by rw [content?, hl, Option.map_some]
  constructor
  · intro h
    obtain ⟨sources, infos, hsources, hinfos⟩ := hg.slots hc
    rw [writeLayer_eq_writeRecord hsources hinfos] at h
    exact ⟨l.content, sources, infos, hc, hsources, hinfos, h⟩
  · rintro ⟨c, sources, infos, hc', hsources, hinfos, h⟩
    rw [hc] at hc'
    cases hc'
    rw [writeLayer_eq_writeRecord hsources hinfos]
    exact h

/-- The records stand in topological order. -/
theorem Complete.records_iff (hg : g.Complete) {order ids : List LayerId}
    {parts : List (List UInt8)} (hids : ∀ id ∈ ids, id < g.layers.length) :
    (ids.filterMap fun id => g.layers[id]?.map fun l => (id, l)).mapM
      (fun (id, l) => writeLayer order id l) = .ok parts ↔
        List.Forall₂ (RecordOf g order) ids parts := by
  rw [Except.mapM_eq_ok_iff]
  induction ids generalizing parts with
  | nil => simp
  | cons id ids ih =>
    obtain ⟨hid, hids⟩ := List.forall_mem_cons.mp hids
    have hl : g.layers[id]? = some g.layers[id] := List.getElem?_eq_getElem hid
    simp only [List.filterMap_cons, hl, Option.map_some]
    rw [List.forall₂_cons_left_iff, List.forall₂_cons_left_iff]
    simp only [ih hids, hg.recordOf_iff hl]

theorem Coherent.writtenBindings_eq (hg : g.Coherent) (direction : Direction) :
    g.writtenBindings direction = g.bindings direction := by
  have hsome : ∀ id ∈ g.boundary direction, ∃ binding, g.binding? id = some binding :=
    fun id => hg.exists_binding
  rw [writtenBindings, bindings]
  generalize g.boundary direction = ids at hsome
  induction ids with
  | nil => rfl
  | cons id ids ih =>
    obtain ⟨⟨binding, hbinding⟩, hids⟩ := List.forall_mem_cons.mp hsome
    rw [List.map_cons, List.filterMap_cons_some hbinding, hbinding, ih hids, Option.getD_some]

/-- The parts of a container that is written. -/
theorem Coherent.serialize_eq_ok_iff (hg : g.Coherent) :
    g.serialize = .ok bytes ↔
      g.Complete ∧ ∃ front parts inputs outputs,
        writePreamble g.layers.length = .ok front ∧
        List.Forall₂ (RecordOf g g.topologicalOrder) g.topologicalOrder parts ∧
        Codec.int32s.write (g.bindings .input) = .ok inputs ∧
        Codec.int32s.write (g.bindings .output) = .ok outputs ∧
        bytes = front ++ (parts.flatten ++ (inputs ++ outputs)) := by
  have hids : ∀ id ∈ g.topologicalOrder, id < g.layers.length :=
    fun id => hg.linked.mem_topologicalOrder_iff.mp
  simp only [serialize, writePreamble, orderedLayers, Except.bind_eq_ok_iff, Except.pure_eq_ok_iff,
    Except.mapError_eq_ok_iff, hg.writtenBindings_eq, hg.linked.length_topologicalOrder,
    eq_comm (b := bytes)]
  constructor
  · rintro ⟨_, hvalid, version, hversion, features, hfeatures, count, hcount, parts, hparts,
      inputs, hinputs, outputs, houtputs, h⟩
    have hcomplete := validate_eq_ok_iff.mp hvalid
    refine ⟨hcomplete, _, parts, inputs, outputs, ⟨version, hversion, features, hfeatures, count,
      hcount, rfl⟩, (hcomplete.records_iff hids).mp hparts, hinputs, houtputs, ?_⟩
    simpa only [List.append_assoc] using h
  · rintro ⟨hcomplete, _, parts, inputs, outputs, ⟨version, hversion, features, hfeatures, count,
      hcount, rfl⟩, hparts, hinputs, houtputs, h⟩
    refine ⟨(), validate_eq_ok_iff.mpr hcomplete, version, hversion, features, hfeatures, count,
      hcount, parts, (hcomplete.records_iff hids).mpr hparts, inputs, hinputs, outputs, houtputs, ?_⟩
    simpa only [List.append_assoc] using h

/-! ### What is refused -/

/-- The error without the identity of the layer that lacks something. -/
def anonymousError : ContainerError → ContainerError
  | .incompleteGraph (.unconnectedInput _ name index) =>
    .incompleteGraph (.unconnectedInput ⟨0⟩ name index)
  | .incompleteGraph (.missingTensorInfo _ name index) =>
    .incompleteGraph (.missingTensorInfo ⟨0⟩ name index)
  | e => e

/-- What a layer lacks, as far as it is seen in its content. -/
def lacks (c : LayerContent) : Except ContainerError Unit :=
  match c.inputs.findIdx? Option.isNone, c.infos.findIdx? Option.isNone with
  | some index, _ => .error (.incompleteGraph (.unconnectedInput ⟨0⟩ c.name index))
  | none, some index => .error (.incompleteGraph (.missingTensorInfo ⟨0⟩ c.name index))
  | none, none => .ok ()

/-- The first layer that lacks something is reported. -/
theorem validate_anonymous (g : Graph) :
    g.validate.mapError (anonymousError ∘ .incompleteGraph) = g.contents.forM lacks := by
  refine Except.mapError_forM (fun l => ?_) g.layers
  have hinputs : l.content.inputs = l.inputs := rfl
  have hinfos : l.content.infos.findIdx? Option.isNone = l.outputs.findIdx? (·.info.isNone) := by
    show (l.outputs.map (·.info)).findIdx? _ = _
    rw [List.findIdx?_map]
    rfl
  unfold lacks
  rw [hinfos, hinputs]
  cases l.inputs.findIdx? Option.isNone with
  | some index => rfl
  | none =>
    cases l.outputs.findIdx? (·.info.isNone) with
    | some index => rfl
    | none => rfl

/-- What is written for a graph that lacks nothing. -/
def writeComplete (g : Graph) : Except ContainerError (List UInt8) := do
  let order := g.topologicalOrder
  let version ← Codec.uint32.write Container.formatVersion
  let features ← Features.current.write
  let count ← (Codec.length 18).write order.length
  let layers ← g.orderedLayers.mapM fun (id, l) => Container.writeLayer order id l
  let inputs ← Codec.int32s.write (g.writtenBindings .input)
  let outputs ← Codec.int32s.write (g.writtenBindings .output)
  return Container.magic ++ version ++ features ++ count ++ layers.flatten ++ inputs ++ outputs

theorem serialize_eq (g : Graph) :
    g.serialize = (do g.validate.mapError .incompleteGraph; g.writeComplete) := rfl

/-- The records of alike graphs are written in the same way. -/
theorem Alike.mapM_writeLayer (h : Alike g g') (hcomplete : g.Complete) {order ids : List LayerId}
    (hids : ∀ id ∈ ids, id < g.layers.length) :
    (ids.filterMap fun id => g'.layers[id]?.map fun l => (id, l)).mapM
        (fun (id, l) => writeLayer order id l) =
      (ids.filterMap fun id => g.layers[id]?.map fun l => (id, l)).mapM
        (fun (id, l) => writeLayer order id l) := by
  induction ids with
  | nil => rfl
  | cons id ids ih =>
    obtain ⟨hid, hids⟩ := List.forall_mem_cons.mp hids
    have hid' : id < g'.layers.length := by
      rw [h.length]
      exact hid
    have hl : g.layers[id]? = some g.layers[id] := List.getElem?_eq_getElem hid
    have hl' : g'.layers[id]? = some g'.layers[id] := List.getElem?_eq_getElem hid'
    have hcontent : g.content? id = some g.layers[id].content := by
      rw [Graph.content?, hl, Option.map_some]
    have hcontent' : g'.layers[id].content = g.layers[id].content := by
      have hsame := h.content? id
      rw [hcontent, Graph.content?, hl', Option.map_some] at hsame
      exact Option.some.inj hsame
    obtain ⟨sources, infos, hsources, hinfos⟩ := hcomplete.slots hcontent
    have hname : g'.layers[id].name = g.layers[id].name := congrArg LayerContent.name hcontent'
    have hkind : g'.layers[id].kind = g.layers[id].kind := congrArg LayerContent.kind hcontent'
    -- A record tells the content of a layer and its place in the order, and these agree.
    have hwrite : writeLayer order id g'.layers[id] = writeLayer order id g.layers[id] := by
      rw [writeLayer_eq_writeRecord hsources hinfos,
        writeLayer_eq_writeRecord (hcontent' ▸ hsources) (hcontent' ▸ hinfos), hname, hkind]
    rw [List.filterMap_cons_some (by rw [hl']; rfl), List.filterMap_cons_some (by rw [hl]; rfl),
      List.mapM_cons, List.mapM_cons, ih hids]
    dsimp only
    rw [hwrite]

/-- Alike graphs that lack nothing are written from the same contents. -/
theorem Alike.writeComplete (h : Alike g g') (hg : g.Coherent) (hg' : g'.Coherent)
    (hcomplete : g.Complete) : g'.writeComplete = g.writeComplete := by
  have hids : ∀ id ∈ g.topologicalOrder, id < g.layers.length :=
    fun id => hg.linked.mem_topologicalOrder_iff.mp
  simp only [Graph.writeComplete, orderedLayers, h.topologicalOrder hg hg',
    h.mapM_writeLayer hcomplete hids, hg.writtenBindings_eq, hg'.writtenBindings_eq, h.bindings]

/-- Alike graphs are written as the same bytes, or refused for the same reason. -/
theorem Alike.serialize_anonymous (h : Alike g g') (hg : g.Coherent) (hg' : g'.Coherent) :
    g'.serialize.mapError anonymousError = g.serialize.mapError anonymousError := by
  have hcontents : g'.contents = g.contents := by
    refine List.ext_getElem? fun id => ?_
    rw [getElem?_contents, getElem?_contents, h.content?]
  have hparts (g : Graph) : g.serialize.mapError anonymousError =
      (g.contents.forM lacks >>= fun _ => g.writeComplete.mapError anonymousError) := by
    rw [serialize_eq, Except.mapError_bind, Except.mapError_mapError, validate_anonymous]
  rw [hparts, hparts, hcontents]
  cases hlacks : g.contents.forM lacks with
  | error e => rfl
  | ok =>
    have hcomplete : g.Complete := by
      rw [← validate_anonymous] at hlacks
      exact validate_eq_ok_iff.mp (Except.mapError_eq_ok_iff.mp hlacks)
    rw [h.writeComplete hg hg' hcomplete]

/-- Alike graphs have the same container. -/
theorem Alike.serialize (h : Alike g g') (hg : g.Coherent) (hg' : g'.Coherent)
    (hbytes : g.serialize = .ok bytes) : g'.serialize = .ok bytes := by
  have hsame := h.serialize_anonymous hg hg'
  rw [hbytes] at hsame
  exact Except.mapError_eq_ok_iff.mp hsame

/-- Complete graphs that are alike are refused for the very same reason, if they are. -/
theorem Alike.serialize_of_complete (h : Alike g g') (hg : g.Coherent) (hg' : g'.Coherent)
    (hcomplete : g.Complete) : g'.serialize = g.serialize := by
  rw [serialize_eq, serialize_eq, validate_eq_ok_iff.mpr hcomplete,
    validate_eq_ok_iff.mpr (h.complete hcomplete), h.writeComplete hg hg' hcomplete]

end Graph

end LayerGraph
