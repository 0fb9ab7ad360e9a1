import LayerGraph.Container.Features
import LayerGraph.Container.Kinds
import LayerGraph.Graph.Order

/-! # Writing containers

  A container holds four bytes that mark it, the version of the format, the table of
  features, a record for each layer, and the bindings of the inputs and of the outputs.
  Layers are written in topological order and numbered in that order, so every layer comes
  after those it reads from.
-/

namespace LayerGraph

namespace Container

/-- The bytes that mark a container. -/
def magic : List UInt8 := [0x4E, 0x4E, 0x49, 0x52]

/-- The version of the format. -/
def formatVersion : UInt32 := 1

/-! ### Records -/

/-- What a record says of an input slot: its position, and the layer and the slot that it
    reads from. -/
def inputEntry : Codec (UInt32 × UInt32 × UInt32) :=
  Codec.uint32.seq (Codec.uint32.seq Codec.uint32)

/-- What a record says of an output slot: its position and its descriptor. -/
def outputEntry : Codec (UInt32 × TensorInfo) := Codec.uint32.seq Codec.info

/-- Number of a layer in a container: its place in the order that layers are written in. -/
def serial (order : List LayerId) (id : LayerId) : UInt32 := .ofNat (order.idxOf id)

/-- Writes an input slot. -/
def writeInput (order : List LayerId) (l : Layer) (index : Nat) (source : Option OutputRef) :
    Except ContainerError (List UInt8) :=
  match source with
  | some p => inputEntry.write (.ofNat index, serial order p.layer, .ofNat p.index)
  | none => .error (.incompleteGraph (.unconnectedInput l.guid l.name index))

/-- Writes an output slot. -/
def writeOutput (l : Layer) (index : Nat) (slot : OutputSlot) :
    Except ContainerError (List UInt8) :=
  match slot.info with
  | some info => outputEntry.write (.ofNat index, info)
  | none => .error (.incompleteGraph (.missingTensorInfo l.guid l.name index))

/-- Writes the record of a layer. -/
def writeLayer (order : List LayerId) (id : LayerId) (l : Layer) :
    Except ContainerError (List UInt8) := do
  let tag ← Codec.uint16.write l.kind.tag
  let number ← Codec.uint32.write (serial order id)
  let name ← Codec.text.write l.name
  let inputCount ← (Codec.length 12).write l.inputs.length
  let inputs ← l.inputs.zipIdx.mapM fun (source, index) => writeInput order l index source
  let outputCount ← (Codec.length 5).write l.outputs.length
  let outputs ← l.outputs.zipIdx.mapM fun (slot, index) => writeOutput l index slot
  let body ← Codec.blob.write (← l.kind.writeBody)
  return tag ++ number ++ name ++ inputCount ++ inputs.flatten ++ outputCount ++ outputs.flatten
    ++ body

end Container

/-! ### Containers -/

namespace Graph

/-- What a container says of one side: the binding of every entry of its list, in order. An
    entry that names no boundary layer counts as bound to zero, so that the list keeps its
    length. -/
def writtenBindings (g : Graph) (direction : Direction) : List BindingId :=
  (g.boundary direction).map fun id => (g.binding? id).getD 0

/-- The container of a complete graph. -/
def serialize (g : Graph) : Except ContainerError (List UInt8) := do
  g.validate.mapError .incompleteGraph
  let order := g.topologicalOrder
  let version ← Codec.uint32.write Container.formatVersion
  let features ← Features.current.write
  let count ← (Codec.length 18).write order.length
  let layers ← g.orderedLayers.mapM fun (id, l) => Container.writeLayer order id l
  let inputs ← Codec.int32s.write (g.writtenBindings .input)
  let outputs ← Codec.int32s.write (g.writtenBindings .output)
  return Container.magic ++ version ++ features ++ count ++ layers.flatten ++ inputs ++ outputs

/-- The container of a complete graph, for a sink that takes so many bytes at most. -/
def serializeInto (g : Graph) (capacity : Nat) : Except ContainerError (List UInt8) := do
  let bytes ← g.serialize
  if capacity < bytes.length then throw .sinkFull
  return bytes

end Graph

end LayerGraph
