import LayerGraph.Container.Writer

/-! # Reading containers

  Records are read one after another, and each is added to the graph before the next is
  read, so a record can only read from layers that are already there. The graph that comes
  out is complete.
-/

namespace LayerGraph

namespace Container

/-! ### Header -/

/-- Reads what comes before the table of features. -/
def readHeader : Read Unit := do
  let mark ← Read.bytes magic.length
  if mark ≠ magic then Read.refuse 0 (.badMagic mark)
  let start ← Read.offset
  let version ← Codec.uint32.read
  if version ≠ formatVersion then throw (.unsupported start (.format version))

/-! ### Records -/

/-- The layers read so far, by their numbers in the container. -/
abbrev Numbering := List (UInt32 × LayerId)

/-- A record of a layer. -/
structure LayerRecord where
  /-- Offset of the record. -/
  offset : Nat
  /-- Number of the layer. -/
  number : UInt32
  /-- Name of the layer. -/
  name : String
  /-- Kind of the layer. -/
  kind : LayerKind
  /-- What its input slots read. -/
  inputs : List OutputRef
  /-- Descriptors of its output slots. -/
  outputs : List TensorInfo

/-- Reads so many input slots, the first of which has the given position. -/
def readInputs (numbering : Numbering) : (position count : Nat) → Read (List OutputRef)
  | _, 0 => return []
  | position, count + 1 => do
    let start ← Read.offset
    let (index, producer, slot) ← inputEntry.read
    if index.toNat ≠ position then Read.refuse start (.inputOrder index position)
    let some layer := numbering.lookup producer | throw (.danglingReference start producer)
    let rest ← readInputs numbering (position + 1) count
    return ⟨layer, slot.toNat⟩ :: rest

/-- Reads so many output slots, the first of which has the given position. -/
def readOutputs : (position count : Nat) → Read (List TensorInfo)
  | _, 0 => return []
  | position, count + 1 => do
    let start ← Read.offset
    let index ← Codec.uint32.read
    if index.toNat ≠ position then Read.refuse start (.outputOrder index position)
    let info ← Codec.info.read
    let rest ← readOutputs (position + 1) count
    return info :: rest

/-- Number of the last tag, plus one. -/
def tagLimit : Nat := 50

/-- Reads a body of the given length. -/
def readKind (oldLayout : Bool) (firstInput : Option TensorInfo) (start : Nat) (tag : UInt16)
    (number : UInt32) : Read LayerKind := do
  let length ← (Codec.length 1).read
  let stop := (← Read.offset) + length
  let some body := readBody? oldLayout firstInput tag | throw (.unsupported start (.kind tag))
  let kind ← body
  if (← Read.offset) ≠ stop then
    Read.refuse stop (.bodyEnd kind.name number (← Read.offset))
  return kind

/-- Reads the record of a layer. -/
def readRecord (features : Features) (numbering : Numbering) (g : Graph) : Read LayerRecord := do
  let start ← Read.offset
  let tag ← Codec.uint16.read
  if tagLimit ≤ tag.toNat then throw (.unsupported start (.kind tag))
  let numberStart ← Read.offset
  let number ← Codec.uint32.read
  if (numbering.lookup number).isSome then Read.refuse numberStart (.idTwice number)
  let name ← Codec.text.read
  let inputs ← readInputs numbering 0 (← (Codec.length 12).read)
  let outputs ← readOutputs 0 (← (Codec.length 5).read)
  let firstInput := inputs.head?.bind g.info?
  let kind ← readKind (features.weightsLayout = 0) firstInput start tag number
  if kind.inputCount ≠ inputs.length ∨ kind.outputCount ≠ outputs.length then
    Read.refuse start (.slotCount kind.name number inputs.length outputs.length
      kind.inputCount kind.outputCount)
  return ⟨start, number, name, kind, inputs, outputs⟩

/-! ### Adding layers -/

/-- A graph on the way from a container. -/
structure Loading where
  /-- The place reached. -/
  cursor : Cursor
  /-- The layers read so far. -/
  numbering : Numbering
  /-- The graph of those layers. -/
  graph : Graph

/-- Runs a change of a graph whose refusal is a fault of the bytes at an offset. -/
def atOffset {α : Type} (offset : Nat) (change : Build GraphError α) : Build ContainerError α :=
  change.adaptExcept fun cause => .format offset (.graph cause)

/-- Adds the layer of a record. -/
def addRecord (g : Graph) (r : LayerRecord) : Build GraphError (LayerId × Graph) := do
  let (layer, g) ← g.insert r.kind r.name
  let g ← r.inputs.zipIdx.foldlM (fun g (source, index) =>
    Build.ofExcept (g.connect source ⟨layer, index⟩)) g
  let g ← r.outputs.zipIdx.foldlM (fun g (info, index) =>
    Build.ofExcept (g.setInfo ⟨layer, index⟩ info)) g
  return (layer, g)

/-- Reads a record and adds its layer. -/
def loadLayer (features : Features) (s : Loading) : Build ContainerError Loading := do
  let (r, cursor) ← Build.ofExcept ((readRecord features s.numbering s.graph).run s.cursor)
  let (layer, graph) ← atOffset r.offset (addRecord s.graph r)
  return ⟨cursor, (r.number, layer) :: s.numbering, graph⟩

/-- Reads so many records. -/
def loadLayers (features : Features) : Nat → Loading → Build ContainerError Loading
  | 0, s => return s
  | count + 1, s => do loadLayers features count (← loadLayer features s)

/-! ### Boundaries -/

/-- The binding that an entry of a list of boundaries names. In old containers the entry is
    the number of a layer. -/
def boundaryBinding (features : Features) (s : Loading) (offset : Nat) (id : Int32) :
    Except ContainerError BindingId :=
  if features.bindingIds ≠ 0 then .ok id
  else
    let layer := if id < 0 then none else s.numbering.lookup id.toUInt32
    match layer.bind s.graph.binding? with
    | some binding => .ok binding
    | none => .error (.format offset (.notBoundary id))

/-- Reads the list of the boundaries of one side and puts them in its order. -/
def loadBoundary (features : Features) (direction : Direction) (s : Loading) :
    Except ContainerError Loading := do
  let start := s.cursor.offset
  let (ids, cursor) ← Codec.int32s.read.run s.cursor
  let order ← ids.mapM (boundaryBinding features s start)
  match s.graph.reorder direction order with
  | .ok g => return { s with cursor := cursor, graph := g }
  | .error cause => throw (.format start (.graph cause))

/-- Checks that nothing is left to read and that the graph is complete. -/
def checkEnd (s : Loading) : Except ContainerError Graph :=
  if s.cursor.rest.isEmpty then
    match s.graph.validate with
    | .ok _ => .ok s.graph
    | .error cause => .error (.format s.cursor.offset (.graph cause))
  else .error (.format s.cursor.offset (.trailing s.cursor.rest.length))

/-- Reads the versions and the number of records. -/
def readPreamble : Read (Features × Nat) := do
  readHeader
  let features ← Features.read
  let count ← (Codec.length 18).read
  return (features, count)

end Container

/-- The graph that a container holds. -/
def Graph.deserialize (bytes : List UInt8) : Build ContainerError Graph := do
  let ((features, count), cursor) ← Build.ofExcept (Container.readPreamble.run (.start bytes))
  let s ← Container.loadLayers features count ⟨cursor, [], .empty⟩
  let s ← Build.ofExcept (Container.loadBoundary features .input s)
  let s ← Build.ofExcept (Container.loadBoundary features .output s)
  Build.ofExcept (Container.checkEnd s)

end LayerGraph
