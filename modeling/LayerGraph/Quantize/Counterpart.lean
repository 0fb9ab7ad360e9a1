import LayerGraph.Graph.Order
import LayerGraph.Quantize.Ranges

/-! # Quantized graphs

  A graph is quantized by making a new one, producers first. Each layer has a counterpart
  with quantized constants, and its outputs have the parameters of their ranges. Exact
  tensors stay as they are. Where the boundary keeps its type, inputs are followed by a
  quantizing layer and outputs come behind a dequantizing one.

  A table from the identities of layers to those of their counterparts is filled on the way.
  By it a layer finds the output slots that stand for what it reads.
-/

namespace LayerGraph

/-- How a graph is quantized. -/
structure QuantizerOptions where
  /-- How values are stored. -/
  scheme : Scheme := .standard
  /-- Whether floating point inputs and outputs stay floating point. -/
  preserveType : Bool := false
deriving DecidableEq, Repr

namespace Quantizer

/-- A quantized graph on the way. -/
structure Progress where
  /-- The quantized layers so far. -/
  target : Graph
  /-- For the identity of each layer so far, the identity of the layer whose outputs stand for
      its outputs. -/
  counterparts : List (LayerGuid × LayerGuid)

/-- Position of the layer whose outputs stand for those of the layer of an identity. -/
def Progress.place? (p : Progress) (guid : LayerGuid) : Option LayerId :=
  (p.counterparts.lookup guid).bind p.target.findGuid?

/-- Identity of the layer at a position, where there is one. -/
def identity (g : Graph) (id : LayerId) (fallback : LayerGuid) : LayerGuid :=
  (g.layers[id]?.map (·.guid)).getD fallback

/-- What does not change while a graph is quantized. -/
structure Setting where
  /-- The graph. -/
  graph : Graph
  /-- The ranges of its output slots. -/
  ranges : RangeTable
  /-- How it is quantized. -/
  options : QuantizerOptions

/-- Runs a change of the quantized graph. -/
def change {α : Type} (change : Build GraphError α) : Build QuantizationError α :=
  change.adaptExcept .graph

variable (s : Setting)

/-! ### Descriptors -/

/-- The output slot of the quantized graph that stands for what an input slot reads. -/
def quantizedInput (p : Progress) (l : Layer) (index : Nat) (source : Option OutputRef) :
    Except QuantizationError OutputRef :=
  match source with
  | none => .error (.graph (.unconnectedInput l.guid l.name index))
  | some source =>
    let producer := identity s.graph source.layer l.guid
    match p.place? producer with
    | some layer => .ok ⟨layer, source.index⟩
    | none => .error (.missingProducer l.guid producer)

/-- Descriptor of an output slot. -/
def sourceInfo (l : Layer) (index : Nat) : Except QuantizationError TensorInfo :=
  match (l.outputs[index]?).bind (·.info) with
  | some info => .ok info
  | none => .error (.graph (.missingTensorInfo l.guid l.name index))

/-- Descriptor of the counterpart of an output slot. -/
def quantizedInfo (l : Layer) (index : Nat) : Except QuantizationError TensorInfo := do
  let info ← sourceInfo l index
  if info.elementType.isExact then return info
  let some range := s.ranges.range? l.guid index | throw (.missingRange l.guid index)
  let scheme := s.options.scheme
  let (scale, offset) ←
    scheme.compute (range.min.convert .binary64) (range.max.convert .binary64)
  return (TensorInfo.quantized info.shape scheme.elementType scale offset).withConstant
    info.isConstant

/-! ### Kinds -/

/-- Scale of what the first input of a layer reads in the quantized graph. -/
def inputScale (p : Progress) (l : Layer) (inputs : List OutputRef) :
    Except QuantizationError Binary32 :=
  match inputs with
  | [] => .error (.missingProducer l.guid l.guid)
  | first :: _ => .ok (((p.target.info? first).map (·.scale)).getD .zero)

/-- Quantized weights, and the bias at the scale of the products. -/
def quantizedWeights (p : Progress) (l : Layer) (inputs : List OutputRef) (weights : Constant)
    (biases : Option Constant) : Except QuantizationError (Constant × Option Constant) := do
  let weights ← s.options.scheme.quantizeConstant weights
  match biases with
  | none => return (weights, none)
  | some bias => do
    let scale ← inputScale p l inputs
    return (weights, some (← quantizeBias bias scale weights.info.scale))

/-- The kind of the counterpart of a layer inside the graph. -/
def quantizedKind (p : Progress) (l : Layer) (inputs : List OutputRef) :
    Except QuantizationError LayerKind := do
  let scheme := s.options.scheme
  match l.kind with
  | .constant tensor => return .constant (← scheme.quantizeConstant tensor)
  | .convolution params weights biases =>
    let (weights, biases) ← quantizedWeights s p l inputs weights biases
    return .convolution params weights biases
  | .depthwiseConvolution params weights biases =>
    let (weights, biases) ← quantizedWeights s p l inputs weights biases
    return .depthwiseConvolution params weights biases
  | .fullyConnected params weights biases =>
    let (weights, biases) ← quantizedWeights s p l inputs weights biases
    return .fullyConnected params weights biases
  | .transposeConvolution params weights biases =>
    let (weights, biases) ← quantizedWeights s p l inputs weights biases
    return .transposeConvolution params weights biases
  | .batchNormalization params mean variance beta gamma =>
    let mean ← scheme.quantizeConstant mean
    let variance ← scheme.quantizeConstant variance
    let beta ← scheme.quantizeConstant beta
    let gamma ← scheme.quantizeConstant gamma
    return .batchNormalization params mean variance beta gamma
  | .input _ | .output _ | .cast | .dequantize | .logicalBinary _ | .quantize | .rank
  | .standIn _ => throw (.unimplemented l.guid l.name l.kind.name)
  | kind => return kind

/-! ### Layers -/

/-- Adds a layer that reads the given slots. -/
def addConnected (g : Graph) (kind : LayerKind) (name : String) (inputs : List OutputRef) :
    Build QuantizationError (LayerId × Graph) := do
  let (layer, g) ← change (g.insert kind name)
  let g ← inputs.zipIdx.foldlM (fun g (source, index) =>
    change (.ofExcept (g.connect source ⟨layer, index⟩))) g
  return (layer, g)

/-- Sets the descriptor of an output slot. -/
def setInfo (g : Graph) (slot : OutputRef) (info : TensorInfo) : Build QuantizationError Graph :=
  change (.ofExcept (g.setInfo slot info))

/-- Adds the counterpart of an input, and the layer that stands for it. -/
def addInput (p : Progress) (l : Layer) (binding : BindingId) :
    Build QuantizationError (LayerId × Graph) := do
  let (input, g) ← addConnected p.target (.input binding) l.name []
  let described ← Build.ofExcept (sourceInfo l 0)
  let quantized ← Build.ofExcept (quantizedInfo s l 0)
  if s.options.preserveType && described.elementType.isFloat then
    let g ← setInfo g ⟨input, 0⟩ described
    let (quantize, g) ← addConnected g .quantize (l.name ++ ":Quantize") [⟨input, 0⟩]
    return (quantize, ← setInfo g ⟨quantize, 0⟩ quantized)
  else return (input, ← setInfo g ⟨input, 0⟩ quantized)

/-- Adds the counterpart of an output. -/
def addOutput (p : Progress) (id : LayerId) (l : Layer) (binding : BindingId)
    (inputs : List OutputRef) : Build QuantizationError (LayerId × Graph) := do
  let [source] := inputs | throw (.graph (.unconnectedInput l.guid l.name 0))
  match (s.graph.inputInfo? ⟨id, 0⟩).filter (·.elementType.isFloat) with
  | some described =>
    if s.options.preserveType then
      let (dequantize, g) ← addConnected p.target .dequantize (l.name ++ ":Dequantize") [source]
      let g ← setInfo g ⟨dequantize, 0⟩ described
      addConnected g (.output binding) l.name [⟨dequantize, 0⟩]
    else addConnected p.target (.output binding) l.name [source]
  | none => addConnected p.target (.output binding) l.name [source]

/-- Descriptor of an output slot of the counterpart of a layer inside the graph. That of a
    constant is the descriptor of its values. -/
def interiorInfo (l : Layer) (kind : LayerKind) (index : Nat) :
    Except QuantizationError TensorInfo :=
  match kind with
  | .constant tensor => .ok tensor.info
  | _ => quantizedInfo s l index

/-- Adds the counterpart of a layer inside the graph. -/
def addInterior (p : Progress) (l : Layer) (inputs : List OutputRef) :
    Build QuantizationError (LayerId × Graph) := do
  let kind ← Build.ofExcept (quantizedKind s p l inputs)
  let (layer, g) ← addConnected p.target kind l.name inputs
  let g ← (List.range l.outputs.length).foldlM (fun g index => do
    setInfo g ⟨layer, index⟩ (← Build.ofExcept (interiorInfo s l kind index))) g
  return (layer, g)

/-- Adds the counterpart of a layer. -/
def visit (p : Progress) (id : LayerId) (l : Layer) : Build QuantizationError Progress := do
  let inputs ← Build.ofExcept <| l.inputs.zipIdx.mapM fun (source, index) =>
    quantizedInput s p l index source
  let (layer, target) ← match l.kind with
    | .input binding => addInput s p l binding
    | .output binding => addOutput s p id l binding inputs
    | _ => addInterior s p l inputs
  return ⟨target, (l.guid, identity target layer l.guid) :: p.counterparts⟩

end Quantizer

/-- The quantized form of a complete graph, with the boundaries in the same order. -/
def Graph.quantize (g : Graph) (ranges : RangeTable) (options : QuantizerOptions) :
    Build QuantizationError Graph := do
  Quantizer.change (.ofExcept g.validate)
  let s : Quantizer.Setting := ⟨g, ranges, options⟩
  let p ← g.orderedLayers.foldlM (fun p (id, l) => Quantizer.visit s p id l) ⟨.empty, []⟩
  let target ← Quantizer.change (.ofExcept (p.target.reorder .input (g.bindings .input)))
  Quantizer.change (.ofExcept (target.reorder .output (g.bindings .output)))

end LayerGraph
