import LayerGraph.Container.Parameters
import LayerGraph.Tensor.DepthwiseLayout

/-! # Kinds of layers in containers

  A kind is stored as a tag and a body with its parameters and constants. In old containers
  depthwise weights have the layout `[1, H, W, I * M]`; reading brings them to the layout
  that layers keep.
-/

namespace LayerGraph

/-! ### Writing -/

/-- The number that stands for the kind of a layer. -/
def LayerKind.tag : LayerKind → UInt16
  | input _ => 0
  | output _ => 1
  | activation _ => 2
  | addition => 3
  | argMinMax _ => 4
  | batchNormalization .. => 5
  | batchToSpace _ => 6
  | cast => 7
  | comparison _ => 8
  | concat _ => 9
  | constant _ => 10
  | convolution .. => 11
  | depthToSpace _ => 12
  | depthwiseConvolution .. => 13
  | dequantize => 14
  | division => 15
  | elementwiseUnary _ => 16
  | fill _ => 17
  | floor => 18
  | fullyConnected .. => 19
  | gather _ => 20
  | instanceNormalization _ => 21
  | l2Normalization _ => 22
  | logicalBinary _ => 23
  | logSoftmax _ => 24
  | maximum => 25
  | mean _ => 26
  | minimum => 27
  | multiplication => 28
  | normalization _ => 29
  | pad _ => 30
  | permute _ => 31
  | pooling _ => 32
  | prelu => 33
  | quantize => 34
  | rank => 35
  | reduce _ => 36
  | reshape _ => 37
  | resize _ => 38
  | slice _ => 39
  | softmax _ => 40
  | spaceToBatch _ => 41
  | spaceToDepth _ => 42
  | splitter _ => 43
  | stack _ => 44
  | standIn _ => 45
  | stridedSlice _ => 46
  | subtraction => 47
  | transpose _ => 48
  | transposeConvolution .. => 49

namespace Codec

/-- Parameters with weights and an optional bias. -/
def weighted {α : Type} (params : Codec α) : Codec (α × Constant × Option Constant) :=
  params.seq (constant.seq (optional constant))

/-- Parameters with four statistics. -/
def statistics : Codec (BatchNormalizationParams × Constant × Constant × Constant × Constant) :=
  batchNormalization.seq <| constant.seq <| constant.seq <| constant.seq constant

end Codec

/-- The body of a kind. -/
def LayerKind.writeBody : LayerKind → Except ContainerError (List UInt8)
  | input binding | output binding => Codec.int32.write binding
  | activation p => Codec.activation.write p
  | argMinMax p => Codec.argMinMax.write p
  | batchNormalization p m v b g => Codec.statistics.write (p, m, v, b, g)
  | batchToSpace p | spaceToBatch p => Codec.blockBatch.write p
  | comparison operation => Codec.choice.write operation
  | concat p => Codec.concat.write p
  | constant tensor => Codec.constant.write tensor
  | convolution p w b | depthwiseConvolution p w b =>
    (Codec.weighted Codec.convolution).write (p, w, b)
  | depthToSpace p | spaceToDepth p => Codec.blockDepth.write p
  | elementwiseUnary operation => Codec.choice.write operation
  | fill value => Codec.binary32.write value
  | fullyConnected p w b => (Codec.weighted Codec.fullyConnected).write (p, w, b)
  | gather axis => Codec.int32.write axis
  | instanceNormalization p => Codec.instanceNormalization.write p
  | l2Normalization p => Codec.l2Normalization.write p
  | logicalBinary operation => Codec.choice.write operation
  | logSoftmax p | softmax p => Codec.softmax.write p
  | mean p => Codec.mean.write p
  | normalization p => Codec.normalization.write p
  | pad p => Codec.pad.write p
  | permute mappings | transpose mappings => Codec.permutation.write mappings
  | pooling p => Codec.pooling.write p
  | reduce p => Codec.reduce.write p
  | reshape target => Codec.uint32s.write target
  | resize p => Codec.resize.write p
  | slice p => Codec.slice.write p
  | splitter p => Codec.splitter.write p
  | stack p => Codec.stack.write p
  | standIn p => Codec.standIn.write p
  | stridedSlice p => Codec.stridedSlice.write p
  | transposeConvolution p w b => (Codec.weighted Codec.transposeConvolution).write (p, w, b)
  | addition | cast | dequantize | division | floor | maximum | minimum | multiplication
  | prelu | quantize | rank | subtraction => .ok []

/-! ### Reading -/

/-- Number of channels of the image that a depthwise convolution reads. -/
def inputChannels? (layout : DataLayout) (firstInput : Option TensorInfo) : Option UInt32 :=
  let dimension := match layout with
    | .nhwc => 3
    | .nchw => 1
  firstInput.bind fun info => info.shape.dim? dimension

/-- Reads the weights of a depthwise convolution in the old layout. -/
def readOldDepthwiseWeights (layout : DataLayout) (firstInput : Option TensorInfo) :
    Read Constant := do
  let start ← Read.offset
  let stored ← Codec.constant.read
  let some channels := inputChannels? layout firstInput | Read.refuse start .unknownChannels
  match stored.depthwiseToMihw channels with
  | .ok weights => return weights
  | .error cause => Read.refuse start (.tensor cause)

/-- Reads a depthwise convolution. -/
def readDepthwise (oldLayout : Bool) (firstInput : Option TensorInfo) : Read LayerKind := do
  let p ← Codec.convolution.read
  let weights ←
    if oldLayout then readOldDepthwiseWeights p.layout firstInput else Codec.constant.read
  let biases ← (Codec.optional Codec.constant).read
  return .depthwiseConvolution p weights biases

/-- Reads a layer with weights. -/
def readWeighted {α : Type} (params : Codec α)
    (kind : α → Constant → Option Constant → LayerKind) : Read LayerKind := do
  let (p, weights, biases) ← (Codec.weighted params).read
  return kind p weights biases

/-- Reads a layer by the codec of its parameters. -/
def readParams {α : Type} (params : Codec α) (kind : α → LayerKind) : Read LayerKind := do
  return kind (← params.read)

/-- How the body behind a tag is read, if the tag stands for a kind. Old depthwise weights
    are read with the help of the descriptor of the first input. -/
def readBody? (oldLayout : Bool) (firstInput : Option TensorInfo) (tag : UInt16) :
    Option (Read LayerKind) :=
  match tag.toNat with
  | 0 => some (readParams Codec.int32 .input)
  | 1 => some (readParams Codec.int32 .output)
  | 2 => some (readParams Codec.activation .activation)
  | 3 => some (pure .addition)
  | 4 => some (readParams Codec.argMinMax .argMinMax)
  | 5 => some (readParams Codec.statistics fun (p, m, v, b, g) => .batchNormalization p m v b g)
  | 6 => some (readParams Codec.blockBatch .batchToSpace)
  | 7 => some (pure .cast)
  | 8 => some (readParams Codec.choice .comparison)
  | 9 => some (readParams Codec.concat .concat)
  | 10 => some (readParams Codec.constant .constant)
  | 11 => some (readWeighted Codec.convolution .convolution)
  | 12 => some (readParams Codec.blockDepth .depthToSpace)
  | 13 => some (readDepthwise oldLayout firstInput)
  | 14 => some (pure .dequantize)
  | 15 => some (pure .division)
  | 16 => some (readParams Codec.choice .elementwiseUnary)
  | 17 => some (readParams Codec.binary32 .fill)
  | 18 => some (pure .floor)
  | 19 => some (readWeighted Codec.fullyConnected .fullyConnected)
  | 20 => some (readParams Codec.int32 .gather)
  | 21 => some (readParams Codec.instanceNormalization .instanceNormalization)
  | 22 => some (readParams Codec.l2Normalization .l2Normalization)
  | 23 => some (readParams Codec.choice .logicalBinary)
  | 24 => some (readParams Codec.softmax .logSoftmax)
  | 25 => some (pure .maximum)
  | 26 => some (readParams Codec.mean .mean)
  | 27 => some (pure .minimum)
  | 28 => some (pure .multiplication)
  | 29 => some (readParams Codec.normalization .normalization)
  | 30 => some (readParams Codec.pad .pad)
  | 31 => some (readParams Codec.permutation .permute)
  | 32 => some (readParams Codec.pooling .pooling)
  | 33 => some (pure .prelu)
  | 34 => some (pure .quantize)
  | 35 => some (pure .rank)
  | 36 => some (readParams Codec.reduce .reduce)
  | 37 => some (readParams Codec.uint32s .reshape)
  | 38 => some (readParams Codec.resize .resize)
  | 39 => some (readParams Codec.slice .slice)
  | 40 => some (readParams Codec.softmax .softmax)
  | 41 => some (readParams Codec.blockBatch .spaceToBatch)
  | 42 => some (readParams Codec.blockDepth .spaceToDepth)
  | 43 => some (readParams Codec.splitter .splitter)
  | 44 => some (readParams Codec.stack .stack)
  | 45 => some (readParams Codec.standIn .standIn)
  | 46 => some (readParams Codec.stridedSlice .stridedSlice)
  | 47 => some (pure .subtraction)
  | 48 => some (readParams Codec.permutation .transpose)
  | 49 => some (readWeighted Codec.transposeConvolution .transposeConvolution)
  | _ => none

end LayerGraph
