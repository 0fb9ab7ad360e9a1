import LayerGraph.Choice

/-! # Operator codes of models

  The operators that models name. A name that is not among them is kept as it is.
-/

namespace LayerGraph

/-- What an operator of a model computes. -/
inductive OperatorCode where
  /-- Absolute value. -/
  | abs
  /-- Sum. -/
  | add
  /-- Index of the greatest element. -/
  | argMax
  /-- Index of the least element. -/
  | argMin
  /-- Mean of image windows. -/
  | averagePool2d
  /-- Image blocks built from batches. -/
  | batchToSpaceNd
  /-- Change of the element type. -/
  | cast
  /-- Tensors joined along an axis. -/
  | concatenation
  /-- Convolution of images. -/
  | conv2d
  /-- Image blocks built from channels. -/
  | depthToSpace
  /-- Convolution of every channel on its own. -/
  | depthwiseConv2d
  /-- Stored integers to real numbers. -/
  | dequantize
  /-- Quotient. -/
  | div
  /-- Exponential linear unit. -/
  | elu
  /-- Equality. -/
  | equal
  /-- Exponential. -/
  | exp
  /-- A dimension of size one added. -/
  | expandDims
  /-- All inputs weighed for each output. -/
  | fullyConnected
  /-- Slices picked by index. -/
  | gather
  /-- Strictly above. -/
  | greater
  /-- Above or equal. -/
  | greaterEqual
  /-- Piecewise smooth step. -/
  | hardSwish
  /-- Normalization by the Euclidean norm. -/
  | l2Normalization
  /-- Negative values made smaller. -/
  | leakyRelu
  /-- Strictly below. -/
  | less
  /-- Below or equal. -/
  | lessEqual
  /-- Normalization by neighbouring channels. -/
  | localResponseNormalization
  /-- Logarithm of the softmax. -/
  | logSoftmax
  /-- Negation of truth values. -/
  | logicalNot
  /-- Logistic function. -/
  | logistic
  /-- Greatest element of image windows. -/
  | maxPool2d
  /-- Larger of two elements. -/
  | maximum
  /-- Mean along axes. -/
  | mean
  /-- Smaller of two elements. -/
  | minimum
  /-- Mirrored elements added. -/
  | mirrorPad
  /-- Product. -/
  | mul
  /-- Negation. -/
  | neg
  /-- Inequality. -/
  | notEqual
  /-- Tensors stacked along a new axis. -/
  | pack
  /-- Zeros added. -/
  | pad
  /-- A given value added. -/
  | padV2
  /-- Negative values multiplied by a second tensor. -/
  | prelu
  /-- Real numbers to stored integers. -/
  | quantize
  /-- Greatest element along axes. -/
  | reduceMax
  /-- Least element along axes. -/
  | reduceMin
  /-- Product along axes. -/
  | reduceProd
  /-- Zero in place of negative values. -/
  | relu
  /-- Values between zero and six. -/
  | relu6
  /-- The same elements in another shape. -/
  | reshape
  /-- Images resampled between elements. -/
  | resizeBilinear
  /-- Images resampled by the nearest element. -/
  | resizeNearestNeighbor
  /-- Reciprocal of the square root. -/
  | rsqrt
  /-- A box cut out. -/
  | slice
  /-- Exponentials that sum to one. -/
  | softmax
  /-- Image blocks taken apart into batches. -/
  | spaceToBatchNd
  /-- Image blocks taken apart into channels. -/
  | spaceToDepth
  /-- Equal parts. -/
  | split
  /-- Parts of given sizes. -/
  | splitV
  /-- Dimensions of size one removed. -/
  | squeeze
  /-- Every so many elements of a box. -/
  | stridedSlice
  /-- Difference. -/
  | sub
  /-- Sum along axes. -/
  | sum
  /-- Hyperbolic tangent. -/
  | tanh
  /-- Dimensions moved. -/
  | transpose
  /-- Convolution run backwards. -/
  | transposeConv
  /-- An operator of another name. -/
  | other (name : String)
deriving DecidableEq, Repr

namespace OperatorCode

/-- The operators with a meaning of their own, and their names. -/
def known : List (OperatorCode × String) :=
  [(abs, "ABS"), (add, "ADD"), (argMax, "ARG_MAX"), (argMin, "ARG_MIN"),
   (averagePool2d, "AVERAGE_POOL_2D"), (batchToSpaceNd, "BATCH_TO_SPACE_ND"), (cast, "CAST"),
   (concatenation, "CONCATENATION"), (conv2d, "CONV_2D"), (depthToSpace, "DEPTH_TO_SPACE"),
   (depthwiseConv2d, "DEPTHWISE_CONV_2D"), (dequantize, "DEQUANTIZE"), (div, "DIV"), (elu, "ELU"),
   (equal, "EQUAL"), (exp, "EXP"), (expandDims, "EXPAND_DIMS"), (fullyConnected, "FULLY_CONNECTED"),
   (gather, "GATHER"), (greater, "GREATER"), (greaterEqual, "GREATER_EQUAL"),
   (hardSwish, "HARD_SWISH"), (l2Normalization, "L2_NORMALIZATION"), (leakyRelu, "LEAKY_RELU"),
   (less, "LESS"), (lessEqual, "LESS_EQUAL"),
   (localResponseNormalization, "LOCAL_RESPONSE_NORMALIZATION"), (logSoftmax, "LOG_SOFTMAX"),
   (logicalNot, "LOGICAL_NOT"), (logistic, "LOGISTIC"), (maxPool2d, "MAX_POOL_2D"),
   (maximum, "MAXIMUM"), (mean, "MEAN"), (minimum, "MINIMUM"), (mirrorPad, "MIRROR_PAD"),
   (mul, "MUL"), (neg, "NEG"), (notEqual, "NOT_EQUAL"), (pack, "PACK"), (pad, "PAD"),
   (padV2, "PADV2"), (prelu, "PRELU"), (quantize, "QUANTIZE"), (reduceMax, "REDUCE_MAX"),
   (reduceMin, "REDUCE_MIN"), (reduceProd, "REDUCE_PROD"), (relu, "RELU"), (relu6, "RELU6"),
   (reshape, "RESHAPE"), (resizeBilinear, "RESIZE_BILINEAR"),
   (resizeNearestNeighbor, "RESIZE_NEAREST_NEIGHBOR"), (rsqrt, "RSQRT"), (slice, "SLICE"),
   (softmax, "SOFTMAX"), (spaceToBatchNd, "SPACE_TO_BATCH_ND"), (spaceToDepth, "SPACE_TO_DEPTH"),
   (split, "SPLIT"), (splitV, "SPLIT_V"), (squeeze, "SQUEEZE"), (stridedSlice, "STRIDED_SLICE"),
   (sub, "SUB"), (sum, "SUM"), (tanh, "TANH"), (transpose, "TRANSPOSE"),
   (transposeConv, "TRANSPOSE_CONV")]

/-- Name of an operator. -/
def name : OperatorCode → String
  | other text => text
  | code => ((known.find? (·.1 == code)).map (·.2)).getD ""

/-- The operator of the given name, if it has a meaning of its own. -/
def ofKnown? (text : String) : Option OperatorCode := (known.find? (·.2 == text)).map (·.1)

/-- The operator of the given name. -/
def ofName (text : String) : OperatorCode := (ofKnown? text).getD (other text)

end OperatorCode

end LayerGraph
