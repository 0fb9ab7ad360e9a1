import LayerGraph.Graph.Choices
import LayerGraph.Tensor.Permutation

/-! # Parameters of layers

  One record for each kind of layer that has more than one parameter. The default of each
  field is the value of a layer that nothing else was said about.
-/

namespace LayerGraph

/-! ### Shared parts -/

/-- Number of elements added at each side of an image. -/
structure Margins where
  /-- Before the first column. -/
  left : UInt32 := 0
  /-- Behind the last column. -/
  right : UInt32 := 0
  /-- Before the first row. -/
  top : UInt32 := 0
  /-- Behind the last row. -/
  bottom : UInt32 := 0
deriving DecidableEq, Repr

/-- The small number that keeps a norm from being zero. -/
def defaultEpsilon : Binary32 := .ofDecimal false ⟨1, -12⟩

/-! ### Elementwise layers -/

/-- Parameters of an activation. -/
structure ActivationParams where
  /-- The function. -/
  function : ActivationFunction := .sigmoid
  /-- Upper bound of the bounded function, and the factor of those that have one. -/
  a : Binary32 := .zero
  /-- Lower bound of the bounded function, and the second factor. -/
  b : Binary32 := .zero
deriving DecidableEq, Repr

/-- Parameters of a softmax or of its logarithm. -/
structure SoftmaxParams where
  /-- Factor of the exponents. -/
  beta : Binary32 := 1
  /-- The dimension that sums to one, counted from the end when negative. -/
  axis : Int32 := -1
deriving DecidableEq, Repr

/-! ### Reductions -/

/-- Parameters of the search for the index of an extreme element. -/
structure ArgMinMaxParams where
  /-- Which extreme is sought. -/
  function : ArgMinMaxFunction := .max
  /-- The dimension searched, counted from the end when negative. -/
  axis : Int32 := -1
  /-- Type of the indices. -/
  outputType : ElementType := .signed32
deriving DecidableEq, Repr

/-- Parameters of a mean. -/
structure MeanParams where
  /-- The dimensions taken together. -/
  axes : List UInt32 := []
  /-- Whether they stay, with size one. -/
  keepDims : Bool := false
deriving DecidableEq, Repr

/-- Parameters of a reduction. -/
structure ReduceParams where
  /-- Whether the reduced dimensions stay, with size one. -/
  keepDims : Bool := false
  /-- The dimensions reduced. -/
  axes : List UInt32 := []
  /-- What they are reduced to. -/
  operation : ReduceOperation := .sum
deriving DecidableEq, Repr

/-! ### Normalizations -/

/-- Parameters of a normalization by stored statistics. -/
structure BatchNormalizationParams where
  /-- Number added to the variance. -/
  epsilon : Binary32 := .zero
  /-- Order of the dimensions. -/
  layout : DataLayout := .nhwc
deriving DecidableEq, Repr

/-- Parameters of a normalization of every image by its own statistics. -/
structure InstanceNormalizationParams where
  /-- Factor of the result. -/
  gamma : Binary32 := 1
  /-- Number added to the result. -/
  beta : Binary32 := .zero
  /-- Number added to the variance. -/
  epsilon : Binary32 := defaultEpsilon
  /-- Order of the dimensions. -/
  layout : DataLayout := .nchw
deriving DecidableEq, Repr

/-- Parameters of a normalization by the Euclidean norm. -/
structure L2NormalizationParams where
  /-- Least norm that is divided by. -/
  epsilon : Binary32 := defaultEpsilon
  /-- Order of the dimensions. -/
  layout : DataLayout := .nhwc
deriving DecidableEq, Repr

/-- Parameters of a normalization by neighbouring values. -/
structure NormalizationParams where
  /-- Which neighbours. -/
  channel : NormalizationChannel := .across
  /-- Which quantity of theirs. -/
  method : NormalizationMethod := .localBrightness
  /-- Number of neighbours. -/
  size : UInt32 := 0
  /-- Factor of the quantity. -/
  alpha : Binary32 := .zero
  /-- Exponent of the divisor. -/
  beta : Binary32 := .zero
  /-- Number added to the divisor. -/
  k : Binary32 := .zero
  /-- Order of the dimensions. -/
  layout : DataLayout := .nhwc
deriving DecidableEq, Repr

/-! ### Images -/

/-- Parameters of a convolution, depthwise or not. -/
structure ConvolutionParams where
  /-- Elements added around the image. -/
  margins : Margins := {}
  /-- Columns from one window to the next. -/
  strideX : UInt32 := 1
  /-- Rows from one window to the next. -/
  strideY : UInt32 := 1
  /-- Columns from one element of a window to the next. -/
  dilationX : UInt32 := 1
  /-- Rows from one element of a window to the next. -/
  dilationY : UInt32 := 1
  /-- Whether a bias is added. -/
  hasBias : Bool := false
  /-- Order of the dimensions. -/
  layout : DataLayout := .nhwc
deriving DecidableEq, Repr

/-- Parameters of a transposed convolution. -/
structure TransposeConvolutionParams where
  /-- Elements removed around the result. -/
  margins : Margins := {}
  /-- Columns from one window to the next. -/
  strideX : UInt32 := 1
  /-- Rows from one window to the next. -/
  strideY : UInt32 := 1
  /-- Whether a bias is added. -/
  hasBias : Bool := false
  /-- Order of the dimensions. -/
  layout : DataLayout := .nhwc
  /-- Whether the shape of the result is given. -/
  hasOutputShape : Bool := false
  /-- The shape of the result, when it is given. -/
  outputShape : List UInt32 := []
deriving DecidableEq, Repr

/-- Parameters of a pooling. -/
structure PoolingParams where
  /-- What a window is reduced to. -/
  algorithm : PoolingAlgorithm := .max
  /-- Elements added around the image. -/
  margins : Margins := {}
  /-- Columns of a window. -/
  width : UInt32 := 0
  /-- Rows of a window. -/
  height : UInt32 := 0
  /-- Columns from one window to the next. -/
  strideX : UInt32 := 0
  /-- Rows from one window to the next. -/
  strideY : UInt32 := 0
  /-- How the number of windows is rounded. -/
  rounding : OutputShapeRounding := .floor
  /-- How added elements count. -/
  paddingMethod : PaddingMethod := .exclude
  /-- Order of the dimensions. -/
  layout : DataLayout := .nhwc
deriving DecidableEq, Repr

/-- Parameters of a resampling. -/
structure ResizeParams where
  /-- Columns of the result. -/
  width : UInt32 := 0
  /-- Rows of the result. -/
  height : UInt32 := 0
  /-- How elements are resampled. -/
  method : ResizeMethod := .bilinear
  /-- Order of the dimensions. -/
  layout : DataLayout := .nhwc
  /-- Whether the corner elements keep their values. -/
  alignCorners : Bool := false
  /-- Whether positions are those of the middle of elements. -/
  halfPixelCenters : Bool := false
deriving DecidableEq, Repr

/-- Parameters of an exchange of image blocks and batches: crops when blocks are built
    from batches, and pads when they are taken apart. -/
structure BlockBatchParams where
  /-- Size of a block in each dimension. -/
  blockShape : List UInt32 := []
  /-- Elements removed or added before and behind each dimension. -/
  borders : List (UInt32 × UInt32) := []
  /-- Order of the dimensions. -/
  layout : DataLayout := .nhwc
deriving DecidableEq, Repr

/-- Parameters of an exchange of image blocks and channels. -/
structure BlockDepthParams where
  /-- Rows and columns of a block. -/
  blockSize : UInt32 := 0
  /-- Order of the dimensions. -/
  layout : DataLayout := .nhwc
deriving DecidableEq, Repr

/-! ### Layers with weights -/

/-- Parameters of a layer that weighs all inputs for each output. -/
structure FullyConnectedParams where
  /-- Whether a bias is added. -/
  hasBias : Bool := false
  /-- Whether the weights have a row for each output. -/
  transposeWeights : Bool := false
deriving DecidableEq, Repr

/-! ### Movements of data -/

/-- Where every joined input is placed in the result. -/
structure ConcatParams where
  /-- The dimension along which the inputs follow each other. -/
  axis : UInt32 := 0
  /-- Coordinates of the first element of each input. -/
  origins : List (List UInt32) := []
deriving DecidableEq, Repr

/-- The parts an input is taken apart into. -/
structure SplitterParams where
  /-- Coordinates of the first element of each part. -/
  origins : List (List UInt32) := []
  /-- Size of each part. -/
  sizes : List (List UInt32) := []
deriving DecidableEq, Repr

/-- Parameters of a padding. -/
structure PadParams where
  /-- Elements added before and behind each dimension. -/
  pads : List (UInt32 × UInt32) := []
  /-- The value added, when it is one value. -/
  value : Binary32 := .zero
  /-- What is added. -/
  mode : PaddingMode := .constant
deriving DecidableEq, Repr

/-- Parameters of the extraction of a box. -/
structure SliceParams where
  /-- Coordinates of its first element. -/
  start : List UInt32 := []
  /-- Its size. -/
  size : List UInt32 := []
deriving DecidableEq, Repr

/-- Parameters of the extraction of every so many elements. Bit `i` of a mask is about
    dimension `i`. -/
structure StridedSliceParams where
  /-- Coordinates of the first element. -/
  start : List Int32 := []
  /-- Coordinates before which to stop. -/
  stop : List Int32 := []
  /-- Distance from one element to the next. -/
  stride : List Int32 := []
  /-- Dimensions that begin at their first element. -/
  startMask : Int32 := 0
  /-- Dimensions that go on to their last element. -/
  stopMask : Int32 := 0
  /-- Dimensions that are removed. -/
  shrinkMask : Int32 := 0
  /-- The entry that stands for all dimensions not listed. -/
  ellipsisMask : Int32 := 0
  /-- Entries that add a dimension. -/
  newAxisMask : Int32 := 0
  /-- Order of the dimensions. -/
  layout : DataLayout := .nhwc
deriving DecidableEq, Repr

/-- Parameters of a stacking of inputs along a new dimension. -/
structure StackParams where
  /-- The new dimension. -/
  axis : UInt32 := 0
  /-- Number of inputs. -/
  count : UInt32 := 0
  /-- Shape of each input. -/
  inputShape : List UInt32 := []
deriving DecidableEq, Repr

/-- The slots of a layer that stands for an operation without a kind. -/
structure StandInParams where
  /-- Number of inputs. -/
  inputs : UInt32 := 0
  /-- Number of outputs. -/
  outputs : UInt32 := 0
deriving DecidableEq, Repr

end LayerGraph
