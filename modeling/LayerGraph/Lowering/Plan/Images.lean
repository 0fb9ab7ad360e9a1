import LayerGraph.Tensor.DepthwiseLayout
import LayerGraph.Lowering.Window
import LayerGraph.Lowering.Plan

/-! # Plans of image operators

  Pooling, convolutions and resampling. Images have their channels last.
-/

namespace LayerGraph

namespace Operation

variable (op : Operation)

/-- Columns or rows of a window, from one window to the next, and from one element of a
    window to the next. -/
structure Window where
  /-- Number of elements. -/
  kernel : UInt32
  /-- Distance of windows. -/
  stride : UInt32
  /-- Distance of elements. -/
  dilation : UInt32

/-- Padding of one dimension of a tensor, of the given size. -/
def paddingOf (tensor : Nat) (size : UInt32) (w : Window) : Planning (UInt32 × UInt32) :=
  match padding? size w.kernel w.stride w.dilation op.options.padding with
  | some pads => .ok pads
  | none => op.invalid tensor (.windowOverflow w.kernel w.stride w.dilation)

/-- Padding of the rows and then of the columns of an image. -/
def marginsOf (tensor : Nat) (image : Dims4) (rows columns : Window) : Planning Margins := do
  let (top, bottom) ← op.paddingOf tensor image.height rows
  let (left, right) ← op.paddingOf tensor image.width columns
  return ⟨left, right, top, bottom⟩

/-- Windows of an image reduced to one element. -/
def planPooling (algorithm : PoolingAlgorithm) (label : String) : Planning Plan := do
  op.checkArity (.exactly 1) (.exactly 1)
  let o := op.options
  let image ← op.dims4 (op.input 0)
  let margins ← op.marginsOf (op.input 0) image
    ⟨o.filterHeight, o.strideH, 1⟩ ⟨o.filterWidth, o.strideW, 1⟩
  let params : PoolingParams :=
    { algorithm := algorithm, margins := margins, width := o.filterWidth
      height := o.filterHeight, strideX := o.strideW, strideY := o.strideH }
  op.layer (.pooling params) (op.layerName label) op.inputs

/-- Parameters of a convolution of an image with a kernel. A third input is the bias. -/
def convolutionParams (image kernel : Dims4) : Planning ConvolutionParams := do
  let o := op.options
  let margins ← op.marginsOf (op.input 0) image
    ⟨kernel.height, o.strideH, o.dilationH⟩ ⟨kernel.width, o.strideW, o.dilationW⟩
  return {
    margins := margins, strideX := o.strideW, strideY := o.strideH
    dilationX := o.dilationW, dilationY := o.dilationH, hasBias := op.inputs.length = 3 }

/-- Convolution of an image, weights and an optional bias. -/
def planConvolution : Planning Plan := do
  op.checkArity (.between 2 3) (.exactly 1)
  let image ← op.dims4 (op.input 0)
  let kernel ← op.dims4 (op.input 1)
  let params ← op.convolutionParams image kernel
  let weights ← op.constant (op.input 1)
  let biases ← op.optionalConstant 2
  op.layer (.convolution params weights biases) (op.layerName "Conv2D") [op.input 0]

/-- Convolution of every channel on its own. The scales of weights that are quantized per
    channel would run over two dimensions of the layer's weights, so there must be one
    scale. -/
def planDepthwiseConvolution : Planning Plan := do
  op.checkArity (.between 2 3) (.exactly 1)
  let image ← op.dims4 (op.input 0)
  let kernel ← op.dims4 (op.input 1)
  let stored ← op.constant (op.input 1)
  if stored.info.isPerAxis then op.unsupported .perAxisDepthwise
  let weights ← match stored.depthwiseToMihw image.inner with
    | .ok weights => pure weights
    | .error cause => op.invalid (op.input 1) (.tensor cause)
  let params ← op.convolutionParams image kernel
  let biases ← op.optionalConstant 2
  op.layer (.depthwiseConvolution params weights biases) (op.layerName "DepthwiseConv2D")
    [op.input 0]

/-- Convolution run backwards. The inputs are the shape of the result, the weights, the
    data and an optional bias; the layer reads the data alone. -/
def planTransposeConvolution : Planning Plan := do
  op.checkArity (.between 3 4) (.exactly 1)
  let o := op.options
  let outputShape ← op.sizes (op.input 0)
  let image ← op.dims4 (op.input 2)
  let kernel ← op.dims4 (op.input 1)
  let margins ← op.marginsOf (op.input 2) image
    ⟨kernel.height, o.strideH, 1⟩ ⟨kernel.width, o.strideW, 1⟩
  let biases ← op.optionalConstant 3
  let weights ← op.constant (op.input 1)
  let params : TransposeConvolutionParams :=
    { margins := margins, strideX := o.strideW, strideY := o.strideH, hasBias := biases.isSome
      hasOutputShape := true, outputShape := outputShape }
  op.layer (.transposeConvolution params weights biases) (op.layerName "TransposeConv")
    [op.input 2]

/-- Images resampled to given rows and columns. -/
def planResize (method : ResizeMethod) (label : String) : Planning Plan := do
  op.checkArity (.exactly 2) (.exactly 1)
  let size ← op.sizes (op.input 1)
  match size with
  | [height, width] =>
    let params : ResizeParams :=
      { width := width, height := height, method := method
        alignCorners := op.options.alignCorners
        halfPixelCenters := op.options.halfPixelCenters }
    op.layer (.resize params) (op.layerName ("Resize:" ++ label)) [op.input 0]
  | _ => op.invalid (op.input 1) .notImageSize

/-- Image blocks exchanged with channels, in the direction that the kind says. -/
def planBlockDepth (kind : BlockDepthParams → LayerKind) (label : String) : Planning Plan := do
  let size := op.options.blockSize
  if size = 0 then op.invalid (op.inputs.headD 0) .emptyBlock
  op.single (kind { blockSize := size }) label

/-- Image blocks exchanged with batches, in the direction that the kind says. -/
def planBlockBatch (kind : BlockBatchParams → LayerKind) (label : String) : Planning Plan := do
  op.checkArity (.exactly 3) (.exactly 1)
  let blockShape ← op.sizes (op.input 1)
  let borders ← op.pairs (op.input 2)
  op.layer (kind { blockShape := blockShape, borders := borders }) (op.layerName label)
    [op.input 0]

end Operation

end LayerGraph
