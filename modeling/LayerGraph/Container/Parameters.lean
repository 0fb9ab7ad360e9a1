import LayerGraph.Container.Tensors
import LayerGraph.Graph.LayerKind

/-! # Parameters in containers

  One codec for each record of parameters, its fields one after another.
-/

namespace LayerGraph

namespace Codec

/-! ### Elementwise layers -/

/-- Parameters of activations. -/
def activation : Codec ActivationParams :=
  (choice.seq <| binary32.seq binary32).imap
    (fun (function, a, b) => ⟨function, a, b⟩) (fun p => (p.function, p.a, p.b))

/-- Parameters of softmaxes. -/
def softmax : Codec SoftmaxParams :=
  (binary32.seq int32).imap (fun (beta, axis) => ⟨beta, axis⟩) (fun p => (p.beta, p.axis))

/-! ### Reductions -/

/-- Parameters of searches for extreme elements. -/
def argMinMax : Codec ArgMinMaxParams :=
  (choice.seq <| int32.seq elementType).imap
    (fun (function, axis, outputType) => ⟨function, axis, outputType⟩)
    (fun p => (p.function, p.axis, p.outputType))

/-- Parameters of means. -/
def mean : Codec MeanParams :=
  (uint32s.seq bool).imap (fun (axes, keepDims) => ⟨axes, keepDims⟩)
    (fun p => (p.axes, p.keepDims))

/-- Parameters of reductions. -/
def reduce : Codec ReduceParams :=
  (bool.seq <| uint32s.seq choice).imap
    (fun (keepDims, axes, operation) => ⟨keepDims, axes, operation⟩)
    (fun p => (p.keepDims, p.axes, p.operation))

/-! ### Normalizations -/

/-- Parameters of normalizations by stored statistics. -/
def batchNormalization : Codec BatchNormalizationParams :=
  (binary32.seq choice).imap (fun (epsilon, layout) => ⟨epsilon, layout⟩)
    (fun p => (p.epsilon, p.layout))

/-- Parameters of normalizations of every image. -/
def instanceNormalization : Codec InstanceNormalizationParams :=
  (binary32.seq <| binary32.seq <| binary32.seq choice).imap
    (fun (gamma, beta, epsilon, layout) => ⟨gamma, beta, epsilon, layout⟩)
    (fun p => (p.gamma, p.beta, p.epsilon, p.layout))

/-- Parameters of normalizations by the Euclidean norm. -/
def l2Normalization : Codec L2NormalizationParams :=
  (binary32.seq choice).imap (fun (epsilon, layout) => ⟨epsilon, layout⟩)
    (fun p => (p.epsilon, p.layout))

/-- Parameters of normalizations by neighbouring values. -/
def normalization : Codec NormalizationParams :=
  (choice.seq <| choice.seq <| uint32.seq <| binary32.seq <| binary32.seq <|
    binary32.seq choice).imap
    (fun (channel, method, size, alpha, beta, k, layout) =>
      ⟨channel, method, size, alpha, beta, k, layout⟩)
    (fun p => (p.channel, p.method, p.size, p.alpha, p.beta, p.k, p.layout))

/-! ### Images -/

/-- Margins. -/
def margins : Codec Margins :=
  (uint32.seq <| uint32.seq <| uint32.seq uint32).imap
    (fun (left, right, top, bottom) => ⟨left, right, top, bottom⟩)
    (fun m => (m.left, m.right, m.top, m.bottom))

/-- Parameters of convolutions. -/
def convolution : Codec ConvolutionParams :=
  (margins.seq <| uint32.seq <| uint32.seq <| uint32.seq <| uint32.seq <| bool.seq choice).imap
    (fun (margins, strideX, strideY, dilationX, dilationY, hasBias, layout) =>
      ⟨margins, strideX, strideY, dilationX, dilationY, hasBias, layout⟩)
    (fun p => (p.margins, p.strideX, p.strideY, p.dilationX, p.dilationY, p.hasBias, p.layout))

/-- Parameters of transposed convolutions. -/
def transposeConvolution : Codec TransposeConvolutionParams :=
  (margins.seq <| uint32.seq <| uint32.seq <| bool.seq <| choice.seq <| bool.seq uint32s).imap
    (fun (margins, strideX, strideY, hasBias, layout, hasOutputShape, outputShape) =>
      ⟨margins, strideX, strideY, hasBias, layout, hasOutputShape, outputShape⟩)
    (fun p => (p.margins, p.strideX, p.strideY, p.hasBias, p.layout, p.hasOutputShape,
      p.outputShape))

/-- Parameters of poolings. -/
def pooling : Codec PoolingParams :=
  (choice.seq <| margins.seq <| uint32.seq <| uint32.seq <| uint32.seq <| uint32.seq <|
    choice.seq <| choice.seq choice).imap
    (fun (algorithm, margins, width, height, strideX, strideY, rounding, method, layout) =>
      ⟨algorithm, margins, width, height, strideX, strideY, rounding, method, layout⟩)
    (fun p => (p.algorithm, p.margins, p.width, p.height, p.strideX, p.strideY, p.rounding,
      p.paddingMethod, p.layout))

/-- Parameters of resamplings. -/
def resize : Codec ResizeParams :=
  (uint32.seq <| uint32.seq <| choice.seq <| choice.seq <| bool.seq bool).imap
    (fun (width, height, method, layout, alignCorners, halfPixelCenters) =>
      ⟨width, height, method, layout, alignCorners, halfPixelCenters⟩)
    (fun p => (p.width, p.height, p.method, p.layout, p.alignCorners, p.halfPixelCenters))

/-- Parameters of exchanges of blocks and batches. -/
def blockBatch : Codec BlockBatchParams :=
  (uint32s.seq <| pairs.seq choice).imap
    (fun (blockShape, borders, layout) => ⟨blockShape, borders, layout⟩)
    (fun p => (p.blockShape, p.borders, p.layout))

/-- Parameters of exchanges of blocks and channels. -/
def blockDepth : Codec BlockDepthParams :=
  (uint32.seq choice).imap (fun (blockSize, layout) => ⟨blockSize, layout⟩)
    (fun p => (p.blockSize, p.layout))

/-! ### Layers with weights -/

/-- Parameters of layers that weigh all inputs. -/
def fullyConnected : Codec FullyConnectedParams :=
  (bool.seq bool).imap (fun (hasBias, transposeWeights) => ⟨hasBias, transposeWeights⟩)
    (fun p => (p.hasBias, p.transposeWeights))

/-! ### Movements of data -/

/-- Parameters of joins. -/
def concat : Codec ConcatParams :=
  (uint32.seq (list 4 uint32s)).imap (fun (axis, origins) => ⟨axis, origins⟩)
    (fun p => (p.axis, p.origins))

/-- The origin and the size of a part. -/
def part : Codec (List UInt32 × List UInt32) := uint32s.seq uint32s

/-- Parameters of splitters: the number of origins, and each origin with its size. -/
def splitter : Codec SplitterParams where
  write p := do
    let count ← (length 8).write p.origins.length
    return count ++ (← (p.origins.zip p.sizes).mapM part.write).flatten
  read := do
    let parts ← (list 8 part).read
    return ⟨parts.map (·.1), parts.map (·.2)⟩

/-- Parameters of paddings. -/
def pad : Codec PadParams :=
  (pairs.seq <| binary32.seq choice).imap (fun (pads, value, mode) => ⟨pads, value, mode⟩)
    (fun p => (p.pads, p.value, p.mode))

/-- Parameters of boxes. -/
def slice : Codec SliceParams :=
  (uint32s.seq uint32s).imap (fun (start, size) => ⟨start, size⟩) (fun p => (p.start, p.size))

/-- Parameters of boxes with strides. -/
def stridedSlice : Codec StridedSliceParams :=
  (int32s.seq <| int32s.seq <| int32s.seq <| int32.seq <| int32.seq <| int32.seq <|
    int32.seq <| int32.seq choice).imap
    (fun (start, stop, stride, startMask, stopMask, shrinkMask, ellipsisMask, newAxisMask,
        layout) =>
      ⟨start, stop, stride, startMask, stopMask, shrinkMask, ellipsisMask, newAxisMask, layout⟩)
    (fun p => (p.start, p.stop, p.stride, p.startMask, p.stopMask, p.shrinkMask,
      p.ellipsisMask, p.newAxisMask, p.layout))

/-- Parameters of stackings. -/
def stack : Codec StackParams :=
  (uint32.seq <| uint32.seq uint32s).imap
    (fun (axis, count, inputShape) => ⟨axis, count, inputShape⟩)
    (fun p => (p.axis, p.count, p.inputShape))

/-- Slots of layers that stand in. -/
def standIn : Codec StandInParams :=
  (uint32.seq uint32).imap (fun (inputs, outputs) => ⟨inputs, outputs⟩)
    (fun p => (p.inputs, p.outputs))

end Codec

end LayerGraph
