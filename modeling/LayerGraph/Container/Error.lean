import LayerGraph.Graph.Error
import LayerGraph.Text.Utf8

/-! # What can be wrong with a container -/

namespace LayerGraph

/-- What is wrong with the bytes of a container. -/
inductive ContainerFault where
  /-- They end too early. -/
  | endOfBuffer
  /-- A length that the bytes behind it cannot have. -/
  | overrun (length : Nat)
  /-- A byte that is no truth value. -/
  | notBoolean (byte : UInt8)
  /-- A byte that stands for no value of a type. -/
  | notTag (byte : UInt8) (title : String)
  /-- A name that is no text. -/
  | text (cause : Utf8.DecodeError)
  /-- The first bytes are not those of a container. -/
  | badMagic (bytes : List UInt8)
  /-- A feature that is listed before. -/
  | featureTwice (feature : UInt16)
  /-- A layer number that is used before. -/
  | idTwice (id : UInt32)
  /-- Input slots that do not come in their order. -/
  | inputOrder (index : UInt32) (position : Nat)
  /-- Output slots that do not come in their order. -/
  | outputOrder (index : UInt32) (position : Nat)
  /-- Parameters that end somewhere else than their length says. -/
  | bodyEnd (kind : String) (id : UInt32) (stop : Nat)
  /-- Numbers of slots other than those of the kind. -/
  | slotCount (kind : String) (id : UInt32) (inputs outputs expectedInputs expectedOutputs : Nat)
  /-- A boundary that is no input or output. -/
  | notBoundary (id : Int32)
  /-- Bytes behind the end. -/
  | trailing (count : Nat)
  /-- A quantization without a scale. -/
  | noScale
  /-- One scale with an axis. -/
  | singleScale (axis : UInt32)
  /-- Several scales without an axis. -/
  | noAxis (scales : Nat)
  /-- Old depthwise weights for an input whose number of channels is not known. -/
  | unknownChannels
  /-- A tensor was refused. -/
  | tensor (cause : TensorError)
  /-- A layer was refused. -/
  | graph (cause : GraphError)
deriving DecidableEq, Repr

/-- Describes the fault. -/
def ContainerFault.message : ContainerFault → String
  | endOfBuffer => "unexpected end of buffer"
  | overrun length => s!"length {length} overruns the buffer"
  | notBoolean byte => s!"{byte} is not a boolean"
  | notTag byte title => s!"{byte} is not a valid {title}"
  | text cause => cause.message
  | badMagic bytes => "bad magic " ++ listText (bytes.map toString)
  | featureTwice feature => s!"feature {feature} listed twice"
  | idTwice id => s!"layer id {id} defined twice"
  | inputOrder index position => s!"input slot {index} listed at position {position}"
  | outputOrder index position => s!"output slot {index} listed at position {position}"
  | bodyEnd kind id stop => s!"{kind} body of layer {id} ends at byte {stop}"
  | slotCount kind id inputs outputs expectedInputs expectedOutputs =>
    s!"{kind} layer {id} has {inputs} inputs and {outputs} outputs, "
      ++ s!"expected {expectedInputs} and {expectedOutputs}"
  | notBoundary id => "layer " ++ toString id.toInt ++ " is not a boundary layer"
  | trailing count => s!"{count} trailing bytes"
  | noScale => "tensor without quantization scale"
  | singleScale axis => s!"single scale with quantization axis {axis} is ambiguous"
  | noAxis scales => s!"{scales} scales without a quantization axis"
  | unknownChannels => "depthwise input channels are unknown"
  | tensor cause => cause.message
  | graph cause => cause.message

/-- Parts of containers that are made in versions. -/
inductive Versioned where
  /-- The container as a whole. -/
  | format (version : UInt32)
  /-- A feature. -/
  | feature (id : UInt16) (version : UInt32)
  /-- A kind of layers. -/
  | kind (tag : UInt16)
deriving DecidableEq, Repr

/-- Names the part. -/
def Versioned.message : Versioned → String
  | format version => s!"format version {version}"
  | feature id version => s!"feature {id} version {version}"
  | kind tag => s!"layer kind tag {tag}"

/-- Why a graph is not written, or a container not read. -/
inductive ContainerError where
  /-- The bytes from the offset on are not what they should be. -/
  | format (offset : Nat) (fault : ContainerFault)
  /-- A version that is not known. -/
  | unsupported (offset : Nat) (what : Versioned)
  /-- A layer reads from one that does not come before it. -/
  | danglingReference (offset : Nat) (producer : UInt32)
  /-- Cells of another width than the element type has. -/
  | cellWidth (offset : Nat) (elementType : ElementType) (width : UInt8)
  /-- The graph to be written is not complete. -/
  | incompleteGraph (cause : GraphError)
  /-- A length to be written is beyond 32 bits. -/
  | lengthTooLarge (length : Nat)
  /-- The bytes do not fit where they are written to. -/
  | sinkFull
deriving DecidableEq, Repr

/-- Describes the error. -/
def ContainerError.message : ContainerError → String
  | format offset fault => s!"malformed container at byte {offset}: " ++ fault.message
  | unsupported offset what => "unsupported " ++ what.message ++ s!" at byte {offset}"
  | danglingReference offset producer =>
    s!"layer record at byte {offset} refers to undefined layer {producer}"
  | cellWidth offset t width =>
    s!"constant at byte {offset} declares " ++ t.name ++ s!" but stores {width} byte cells"
  | incompleteGraph cause => "graph is not complete: " ++ cause.message
  | lengthTooLarge length => s!"length {length} does not fit in 32 bits"
  | sinkFull => "failed to write whole buffer"

end LayerGraph
