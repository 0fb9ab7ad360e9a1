import LayerGraph.Lowering.Operation

/-! # Plans

  A plan says which layers represent an operator, before any graph is touched. One layer,
  the primary one, has the kind of the operator. It may be fed through reshapes, and
  followed by a fused activation.
-/

namespace LayerGraph

/-- A layer to be made, with the descriptors of what it reads and writes. -/
structure PlannedLayer where
  /-- Operation of the layer. -/
  kind : LayerKind
  /-- Name of the layer. -/
  name : String
  /-- Descriptors of what it reads. -/
  inputs : List TensorInfo
  /-- Descriptors of what it writes. -/
  outputs : List TensorInfo
deriving DecidableEq

/-- What an input slot of the primary layer reads. -/
inductive SlotSource where
  /-- A tensor of the model. -/
  | tensor (index : Nat)
  /-- The output of a reshape of the plan. -/
  | reshape (index : Nat)
deriving DecidableEq, Repr

/-- The layers that represent an operator. -/
structure Plan where
  /-- Reshapes that feed the primary layer, each with the tensor it reads. -/
  reshapes : List (Nat × PlannedLayer) := []
  /-- The layer with the kind of the operator. -/
  primary : PlannedLayer
  /-- What the primary layer reads. -/
  inputs : List SlotSource
  /-- Layers of one input that follow the primary layer in a chain. -/
  tail : List PlannedLayer := []
  /-- The tensors written by the last layer of the chain. -/
  outputs : List Nat
deriving DecidableEq

namespace Plan

/-- The layers in the order they are made. -/
def layers (plan : Plan) : List PlannedLayer :=
  plan.reshapes.map (·.2) ++ plan.primary :: plan.tail

/-- The tensor that a slot reads directly. -/
def directTensor? : SlotSource → Option Nat
  | .tensor t => some t
  | .reshape _ => none

/-- The tensors that the plan reads, each once. -/
def consumed (plan : Plan) : List Nat :=
  (plan.reshapes.map (·.1) ++ plan.inputs.filterMap directTensor?).eraseDups

/-- Feeds an input slot of the primary layer through a reshape of a tensor to a shape. -/
def reshapeInput (plan : Plan) (slot tensor : Nat) (info : TensorInfo) (target : List UInt32) :
    Plan :=
  let reshaped := info.withShape (.ofDims target)
  let layer : PlannedLayer :=
    ⟨.reshape target, "Reshape:for:" ++ plan.primary.name, [info], [reshaped]⟩
  { plan with
    reshapes := plan.reshapes ++ [(tensor, layer)]
    primary := { plan.primary with inputs := plan.primary.inputs.set slot reshaped }
    inputs := plan.inputs.set slot (.reshape plan.reshapes.length) }

end Plan

namespace Operation

variable (op : Operation)

/-- The plan of one layer that reads the given tensors and writes every output. -/
def layer (kind : LayerKind) (name : String) (connected : List Nat) : Planning Plan := do
  let inputs ← connected.mapM op.info
  let outputs ← op.outputs.mapM op.info
  return {
    primary := ⟨kind, name, inputs, outputs⟩
    inputs := connected.map .tensor
    outputs := op.outputs }

/-- The plan of a layer that reads the one input of an operator and writes its one output. -/
def single (kind : LayerKind) (label : String) : Planning Plan := do
  op.checkArity (.exactly 1) (.exactly 1)
  op.layer kind (op.layerName label) op.inputs

/-- The layer that computes a fused activation, and the end of its name. -/
def fusedLayer? (function : FusedActivation) :
    Except Unsupported (Option (ActivationParams × String)) :=
  match function with
  | .none => .ok none
  | .relu => .ok (some ({ function := .reLu }, "RELU"))
  | .relu6 => .ok (some ({ function := .boundedReLu, a := 6 }, "RELU6"))
  | .reluN1To1 => .ok (some ({ function := .boundedReLu, a := 1, b := .ofInt (-1) }, "RELU_N1_TO_1"))
  | .tanh => .ok (some ({ function := .tanH, a := 1, b := 1 }, "TANH"))
  | .signBit => .error (.fusedActivation .signBit)

/-- The plan with the fused activation of the operator behind its last layer. -/
def fuse (plan : Plan) : Planning Plan :=
  match fusedLayer? op.options.fusedActivation with
  | .error reason => op.unsupported reason
  | .ok none => .ok plan
  | .ok (some (params, suffix)) =>
    let last := plan.tail.getLastD plan.primary
    let flow := last.outputs.take 1
    .ok { plan with
      tail := plan.tail ++ [⟨.activation params, last.name ++ ":" ++ suffix, flow, flow⟩] }

end Operation

end LayerGraph
