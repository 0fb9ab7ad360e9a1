import LayerGraph.Graph.Parameters

/-! # Kinds of layers

  A kind is an operation with its parameters and the constants it owns. The kind decides
  how many inputs and outputs a layer has.
-/

namespace LayerGraph

/-- The number by which a caller names an input or an output of a graph. -/
abbrev BindingId := Int32

/-- The operations of a graph. -/
inductive LayerKind where
  /-- Where a tensor enters the graph. -/
  | input (binding : BindingId)
  /-- Where a tensor leaves the graph. -/
  | output (binding : BindingId)
  /-- A function of every element. -/
  | activation (params : ActivationParams)
  /-- Sum of two tensors. -/
  | addition
  /-- Index of the extreme element. -/
  | argMinMax (params : ArgMinMaxParams)
  /-- Normalization by stored statistics. -/
  | batchNormalization (params : BatchNormalizationParams) (mean variance beta gamma : Constant)
  /-- Blocks of images built from batches. -/
  | batchToSpace (params : BlockBatchParams)
  /-- Change of the element type. -/
  | cast
  /-- Comparison of two tensors. -/
  | comparison (operation : ComparisonOperation)
  /-- Tensors joined along a dimension. -/
  | concat (params : ConcatParams)
  /-- A tensor that never changes. -/
  | constant (tensor : Constant)
  /-- Convolution of images. -/
  | convolution (params : ConvolutionParams) (weights : Constant) (biases : Option Constant)
  /-- Blocks of images built from channels. -/
  | depthToSpace (params : BlockDepthParams)
  /-- Convolution of every channel on its own, with weights `[M, I, H, W]`. -/
  | depthwiseConvolution (params : ConvolutionParams) (weights : Constant)
      (biases : Option Constant)
  /-- Stored integers to the real numbers they stand for. -/
  | dequantize
  /-- Quotient of two tensors. -/
  | division
  /-- An operation on every element. -/
  | elementwiseUnary (operation : UnaryOperation)
  /-- A tensor of one value, of the shape given by the input. -/
  | fill (value : Binary32)
  /-- The greatest integer not above every element. -/
  | floor
  /-- All inputs weighed for each output. -/
  | fullyConnected (params : FullyConnectedParams) (weights : Constant)
      (biases : Option Constant)
  /-- Slices picked by index. -/
  | gather (axis : Int32)
  /-- Normalization of every image by its own statistics. -/
  | instanceNormalization (params : InstanceNormalizationParams)
  /-- Normalization by the Euclidean norm. -/
  | l2Normalization (params : L2NormalizationParams)
  /-- Operation on two truth values. -/
  | logicalBinary (operation : LogicalBinaryOperation)
  /-- Logarithm of the softmax. -/
  | logSoftmax (params : SoftmaxParams)
  /-- The larger of two elements. -/
  | maximum
  /-- Mean along dimensions. -/
  | mean (params : MeanParams)
  /-- The smaller of two elements. -/
  | minimum
  /-- Product of two tensors. -/
  | multiplication
  /-- Normalization by neighbouring values. -/
  | normalization (params : NormalizationParams)
  /-- Elements added around a tensor. -/
  | pad (params : PadParams)
  /-- Dimensions moved: source dimension `i` goes to `mappings[i]`. -/
  | permute (mappings : Permutation)
  /-- Windows of images reduced to one element. -/
  | pooling (params : PoolingParams)
  /-- Negative elements multiplied by a second tensor. -/
  | prelu
  /-- Real numbers to the stored integers that stand for them. -/
  | quantize
  /-- Number of dimensions. -/
  | rank
  /-- Dimensions reduced. -/
  | reduce (params : ReduceParams)
  /-- The same elements in another shape. -/
  | reshape (target : List UInt32)
  /-- Images resampled. -/
  | resize (params : ResizeParams)
  /-- A box cut out. -/
  | slice (params : SliceParams)
  /-- Exponentials that sum to one. -/
  | softmax (params : SoftmaxParams)
  /-- Blocks of images taken apart into batches. -/
  | spaceToBatch (params : BlockBatchParams)
  /-- Blocks of images taken apart into channels. -/
  | spaceToDepth (params : BlockDepthParams)
  /-- A tensor taken apart. -/
  | splitter (params : SplitterParams)
  /-- Tensors stacked along a new dimension. -/
  | stack (params : StackParams)
  /-- An operation that has no kind. -/
  | standIn (params : StandInParams)
  /-- Every so many elements of a box. -/
  | stridedSlice (params : StridedSliceParams)
  /-- Difference of two tensors. -/
  | subtraction
  /-- Dimensions moved: destination dimension `i` reads `mappings[i]`. -/
  | transpose (mappings : Permutation)
  /-- Convolution run backwards. -/
  | transposeConvolution (params : TransposeConvolutionParams) (weights : Constant)
      (biases : Option Constant)
deriving DecidableEq

namespace LayerKind

/-- Name of the kind. -/
def name : LayerKind → String
  | input _ => "Input"
  | output _ => "Output"
  | activation _ => "Activation"
  | addition => "Addition"
  | argMinMax _ => "ArgMinMax"
  | batchNormalization .. => "BatchNormalization"
  | batchToSpace _ => "BatchToSpaceNd"
  | cast => "Cast"
  | comparison _ => "Comparison"
  | concat _ => "Concat"
  | constant _ => "Constant"
  | convolution .. => "Convolution2d"
  | depthToSpace _ => "DepthToSpace"
  | depthwiseConvolution .. => "DepthwiseConvolution2d"
  | dequantize => "Dequantize"
  | division => "Division"
  | elementwiseUnary _ => "ElementwiseUnary"
  | fill _ => "Fill"
  | floor => "Floor"
  | fullyConnected .. => "FullyConnected"
  | gather _ => "Gather"
  | instanceNormalization _ => "InstanceNormalization"
  | l2Normalization _ => "L2Normalization"
  | logicalBinary _ => "LogicalBinary"
  | logSoftmax _ => "LogSoftmax"
  | maximum => "Maximum"
  | mean _ => "Mean"
  | minimum => "Minimum"
  | multiplication => "Multiplication"
  | normalization _ => "Normalization"
  | pad _ => "Pad"
  | permute _ => "Permute"
  | pooling _ => "Pooling2d"
  | prelu => "Prelu"
  | quantize => "Quantize"
  | rank => "Rank"
  | reduce _ => "Reduce"
  | reshape _ => "Reshape"
  | resize _ => "Resize"
  | slice _ => "Slice"
  | softmax _ => "Softmax"
  | spaceToBatch _ => "SpaceToBatchNd"
  | spaceToDepth _ => "SpaceToDepth"
  | splitter _ => "Splitter"
  | stack _ => "Stack"
  | standIn _ => "StandIn"
  | stridedSlice _ => "StridedSlice"
  | subtraction => "Subtraction"
  | transpose _ => "Transpose"
  | transposeConvolution .. => "TransposeConvolution2d"

/-- Number of inputs. -/
def inputCount : LayerKind → Nat
  | input _ | constant _ => 0
  | addition | comparison _ | division | gather _ | logicalBinary _ | maximum | minimum
  | multiplication | prelu | subtraction => 2
  | concat params => params.origins.length
  | stack params => params.count.toNat
  | standIn params => params.inputs.toNat
  | _ => 1

/-- Number of outputs. -/
def outputCount : LayerKind → Nat
  | output _ => 0
  | splitter params => params.origins.length
  | standIn params => params.outputs.toNat
  | _ => 1

/-- The binding of an input or an output. -/
def binding? : LayerKind → Option BindingId
  | input binding | output binding => some binding
  | _ => none

/-- The constants owned by the layer, in a fixed order. -/
def constants : LayerKind → List Constant
  | constant tensor => [tensor]
  | batchNormalization _ m v b g => [m, v, b, g]
  | convolution _ weights biases | depthwiseConvolution _ weights biases
  | fullyConnected _ weights biases | transposeConvolution _ weights biases =>
    weights :: biases.toList
  | _ => []

end LayerKind

end LayerGraph
