import LayerGraph.Graph.Layer

/-! # What can be wrong with a graph -/

namespace LayerGraph

/-- The two sides of a layer or of a graph. -/
inductive Direction where
  /-- Where tensors are read. -/
  | input
  /-- Where tensors are written. -/
  | output
deriving DecidableEq, Repr

/-- Name of the side. -/
def Direction.name : Direction → String
  | input => "input"
  | output => "output"

/-- Reasons to refuse a change of a graph, or to call a graph incomplete. -/
inductive GraphError where
  /-- There is no such layer. -/
  | unknownLayer (layer : LayerId)
  /-- The layer has no such slot. -/
  | invalidSlot (layer : LayerGuid) (direction : Direction) (index : Nat)
  /-- The input slot already reads a tensor. -/
  | alreadyConnected (layer : LayerGuid) (index : Nat)
  /-- The layer written from can be reached from the layer read by. -/
  | cycle (producer consumer : LayerGuid)
  /-- Two inputs or two outputs would have the same binding. -/
  | duplicateBinding (direction : Direction) (binding : BindingId)
  /-- No input, or no output, has the binding. -/
  | unknownBinding (direction : Direction) (binding : BindingId)
  /-- An input slot reads no tensor. -/
  | unconnectedInput (layer : LayerGuid) (name : String) (index : Nat)
  /-- An output slot has no descriptor. -/
  | missingTensorInfo (layer : LayerGuid) (name : String) (index : Nat)
deriving DecidableEq, Repr

namespace GraphError

/-- Describes the error. -/
def message : GraphError → String
  | unknownLayer layer => s!"layer {layer} does not exist in this graph"
  | invalidSlot layer direction index =>
    "layer " ++ layer.text ++ " has no " ++ direction.name ++ s!" slot {index}"
  | alreadyConnected layer index =>
    s!"input slot {index} of layer " ++ layer.text ++ " is already connected"
  | cycle producer consumer =>
    "connecting layer " ++ producer.text ++ " to layer " ++ consumer.text ++ " would create a cycle"
  | duplicateBinding direction binding =>
    direction.name ++ " binding id " ++ toString binding.toInt ++ " is already in use"
  | unknownBinding direction binding =>
    "no " ++ direction.name ++ " layer is bound to id " ++ toString binding.toInt
  | unconnectedInput layer name index =>
    s!"input slot {index} of layer " ++ layer.text ++ " '" ++ name ++ "' is not connected"
  | missingTensorInfo layer name index =>
    s!"output slot {index} of layer " ++ layer.text ++ " '" ++ name ++ "' has no tensor info"

end GraphError

end LayerGraph
