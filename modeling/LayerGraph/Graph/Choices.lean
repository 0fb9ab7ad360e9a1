import LayerGraph.Choice

/-! # Choices among the parameters of layers

  The small types that the parameters of layers choose from.
-/

namespace LayerGraph

/-- Order of the dimensions of image tensors. -/
inductive DataLayout where
  /-- Channels before rows and columns. -/
  | nchw
  /-- Channels last. -/
  | nhwc
deriving DecidableEq, Repr

instance : Choice DataLayout where
  title := "DataLayout"
  named :=
    [(.nchw, "NCHW"), (.nhwc, "NHWC")]

/-- Functions applied to every element. -/
inductive ActivationFunction where
  /-- The logistic function. -/
  | sigmoid
  /-- The hyperbolic tangent. -/
  | tanH
  /-- A linear function. -/
  | linear
  /-- Zero in place of negative values. -/
  | reLu
  /-- Values moved between a lower and an upper bound. -/
  | boundedReLu
  /-- The logarithm of one plus the exponential. -/
  | softReLu
  /-- Negative values made smaller by a factor. -/
  | leakyReLu
  /-- The absolute value. -/
  | abs
  /-- The square root. -/
  | sqrt
  /-- The square. -/
  | square
  /-- Negative values bent to a limit. -/
  | elu
  /-- A piecewise approximation of a smooth step. -/
  | hardSwish
deriving DecidableEq, Repr

instance : Choice ActivationFunction where
  title := "ActivationFunction"
  named :=
    [(.sigmoid, "Sigmoid"), (.tanH, "TanH"), (.linear, "Linear"), (.reLu, "ReLu"),
     (.boundedReLu, "BoundedReLu"), (.softReLu, "SoftReLu"), (.leakyReLu, "LeakyReLu"),
     (.abs, "Abs"), (.sqrt, "Sqrt"), (.square, "Square"), (.elu, "Elu"), (.hardSwish, "HardSwish")]

/-- Which extreme an index is sought of. -/
inductive ArgMinMaxFunction where
  /-- The least element. -/
  | min
  /-- The greatest element. -/
  | max
deriving DecidableEq, Repr

instance : Choice ArgMinMaxFunction where
  title := "ArgMinMaxFunction"
  named :=
    [(.min, "Min"), (.max, "Max")]

/-- Comparisons of two tensors. -/
inductive ComparisonOperation where
  /-- Equality. -/
  | equal
  /-- Strictly above. -/
  | greater
  /-- Above or equal. -/
  | greaterOrEqual
  /-- Strictly below. -/
  | less
  /-- Below or equal. -/
  | lessOrEqual
  /-- Inequality. -/
  | notEqual
deriving DecidableEq, Repr

instance : Choice ComparisonOperation where
  title := "ComparisonOperation"
  named :=
    [(.equal, "Equal"), (.greater, "Greater"), (.greaterOrEqual, "GreaterOrEqual"), (.less, "Less"),
     (.lessOrEqual, "LessOrEqual"), (.notEqual, "NotEqual")]

/-- Operations on every element. -/
inductive UnaryOperation where
  /-- The absolute value. -/
  | abs
  /-- The exponential. -/
  | exp
  /-- The square root. -/
  | sqrt
  /-- The reciprocal of the square root. -/
  | rsqrt
  /-- The negation. -/
  | neg
  /-- The negation of truth values. -/
  | logicalNot
deriving DecidableEq, Repr

instance : Choice UnaryOperation where
  title := "UnaryOperation"
  named :=
    [(.abs, "Abs"), (.exp, "Exp"), (.sqrt, "Sqrt"), (.rsqrt, "Rsqrt"), (.neg, "Neg"),
     (.logicalNot, "LogicalNot")]

/-- Operations on two truth values. -/
inductive LogicalBinaryOperation where
  /-- Both. -/
  | logicalAnd
  /-- One or both. -/
  | logicalOr
deriving DecidableEq, Repr

instance : Choice LogicalBinaryOperation where
  title := "LogicalBinaryOperation"
  named :=
    [(.logicalAnd, "LogicalAnd"), (.logicalOr, "LogicalOr")]

/-- What a pooling window is reduced to. -/
inductive PoolingAlgorithm where
  /-- The greatest element. -/
  | max
  /-- The mean. -/
  | average
  /-- The square root of the mean square. -/
  | l2
deriving DecidableEq, Repr

instance : Choice PoolingAlgorithm where
  title := "PoolingAlgorithm"
  named :=
    [(.max, "Max"), (.average, "Average"), (.l2, "L2")]

/-- How padded elements take part in a pooling window. -/
inductive PaddingMethod where
  /-- They count as zeros. -/
  | ignoreValue
  /-- They are left out of the window. -/
  | exclude
deriving DecidableEq, Repr

instance : Choice PaddingMethod where
  title := "PaddingMethod"
  named :=
    [(.ignoreValue, "IgnoreValue"), (.exclude, "Exclude")]

/-- How the number of pooling windows is rounded. -/
inductive OutputShapeRounding where
  /-- Down. -/
  | floor
  /-- Up. -/
  | ceiling
deriving DecidableEq, Repr

instance : Choice OutputShapeRounding where
  title := "OutputShapeRounding"
  named :=
    [(.floor, "Floor"), (.ceiling, "Ceiling")]

/-- The neighbours a value is normalized with. -/
inductive NormalizationChannel where
  /-- Those in other channels. -/
  | across
  /-- Those in the same channel. -/
  | within
deriving DecidableEq, Repr

instance : Choice NormalizationChannel where
  title := "NormalizationAlgorithmChannel"
  named :=
    [(.across, "Across"), (.within, "Within")]

/-- The quantity a value is normalized by. -/
inductive NormalizationMethod where
  /-- The sum of squares. -/
  | localBrightness
  /-- The sum of squared differences. -/
  | localContrast
deriving DecidableEq, Repr

instance : Choice NormalizationMethod where
  title := "NormalizationAlgorithmMethod"
  named :=
    [(.localBrightness, "LocalBrightness"), (.localContrast, "LocalContrast")]

/-- What padded elements are filled with. -/
inductive PaddingMode where
  /-- One value. -/
  | constant
  /-- The elements mirrored at the edge element. -/
  | reflect
  /-- The elements mirrored at the edge. -/
  | symmetric
deriving DecidableEq, Repr

instance : Choice PaddingMode where
  title := "PaddingMode"
  named :=
    [(.constant, "Constant"), (.reflect, "Reflect"), (.symmetric, "Symmetric")]

/-- What a reduced dimension becomes. -/
inductive ReduceOperation where
  /-- The sum. -/
  | sum
  /-- The greatest element. -/
  | max
  /-- The mean. -/
  | mean
  /-- The least element. -/
  | min
  /-- The product. -/
  | prod
deriving DecidableEq, Repr

instance : Choice ReduceOperation where
  title := "ReduceOperation"
  named :=
    [(.sum, "Sum"), (.max, "Max"), (.mean, "Mean"), (.min, "Min"), (.prod, "Prod")]

/-- How images are resampled. -/
inductive ResizeMethod where
  /-- Between the four nearest elements. -/
  | bilinear
  /-- By the nearest element. -/
  | nearestNeighbor
deriving DecidableEq, Repr

instance : Choice ResizeMethod where
  title := "ResizeMethod"
  named :=
    [(.bilinear, "Bilinear"), (.nearestNeighbor, "NearestNeighbor")]

end LayerGraph
