import LayerGraph.Graph.Error
import LayerGraph.Numeric.Notation

/-! # What can go wrong while quantizing -/

namespace LayerGraph

/-- Reasons why a graph, a constant or a range cannot be quantized. -/
inductive QuantizationError where
  /-- The kind of the layer has no quantized form. -/
  | unimplemented (layer : LayerGuid) (name kind : String)
  /-- A layer comes before one that it reads. -/
  | missingProducer (layer producer : LayerGuid)
  /-- Nothing is known about the values of an output. -/
  | missingRange (layer : LayerGuid) (slot : Nat)
  /-- The two ends are no range. -/
  | invalidRange (min max : Binary32)
  /-- A second range for one output. -/
  | rangeAlreadyRecorded (layer : LayerGuid) (slot : Nat)
  /-- The product of two scales is no scale. -/
  | invalidBiasScale (inputScale weightScale : Binary32)
  /-- No layer has the name. -/
  | unknownLayerName (name : String)
  /-- No scheme has the name. -/
  | unknownScheme (name : String)
  /-- A constant was refused. -/
  | tensor (cause : TensorError)
  /-- A change of a graph was refused. -/
  | graph (cause : GraphError)
  /-- A number that does not fit. It is not reported: the program stops. -/
  | overflow (operation : Overflow)
deriving DecidableEq, Repr

namespace QuantizationError

/-- Describes the error. -/
def message : QuantizationError → String
  | unimplemented layer name kind =>
    "layer " ++ layer.text ++ " '" ++ name ++ "' of kind " ++ kind ++ " cannot be quantized"
  | missingProducer layer producer =>
    "producer " ++ producer.text ++ " of layer " ++ layer.text ++ " has not been quantized yet"
  | missingRange layer slot => s!"no range recorded for output slot {slot} of layer " ++ layer.text
  | invalidRange min max =>
    "range [" ++ min.plainText ++ ", " ++ max.plainText ++ "] cannot be quantized"
  | rangeAlreadyRecorded layer slot =>
    s!"a range is already recorded for output slot {slot} of layer " ++ layer.text
  | invalidBiasScale inputScale weightScale =>
    "bias scale from input scale " ++ inputScale.plainText ++ " and weight scale "
      ++ weightScale.plainText ++ " is not usable"
  | unknownLayerName name => "no layer named '" ++ name ++ "' in the graph"
  | unknownScheme name => "unknown quantization scheme '" ++ name ++ "'"
  | tensor cause => cause.message
  | graph cause => cause.message
  | overflow operation => operation.message

end QuantizationError

end LayerGraph
