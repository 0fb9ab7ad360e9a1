import LayerGraph.Graph.Error
import LayerGraph.Model.Basic
import LayerGraph.Lowering.Reshape

/-! # What can go wrong while lowering a model -/

namespace LayerGraph

/-- What is wrong with a tensor of an operator. -/
inductive TensorFault where
  /-- The model has no such tensor. -/
  | noSuchTensor
  /-- Neither an operator nor the model gives its values. -/
  | noProducer
  /-- Its values are already given. -/
  | secondProducer
  /-- The operator writes it more than once. -/
  | writtenTwice
  /-- It has no descriptor. -/
  | descriptor (cause : DescriptorError)
  /-- Its payload or its layout does not fit. -/
  | tensor (cause : TensorError)
  /-- The size of a dimension is not known. -/
  | unspecified
  /-- It does not have four dimensions. -/
  | notRank4 (dims : List UInt32)
  /-- Its values are not part of the model. -/
  | notConstant
  /-- It does not hold exactly one value. -/
  | notSingle (count : Nat)
  /-- A value that is no size. -/
  | notSize (value : Int)
  /-- A value beyond 32 bits. -/
  | outOfRange (value : Int)
  /-- An odd number of values where they come in pairs. -/
  | notPairs
  /-- A dimension that is not there. -/
  | axisOutOfRange (axis : Int) (rank : Nat)
  /-- A dimension beyond 32 bits. -/
  | axisTooLarge
  /-- Indices that are not integers. -/
  | indexType (elementType : ElementType)
  /-- Windows beyond 32 bits. -/
  | windowOverflow (kernel stride dilation : UInt32)
  /-- Weights that are not a matrix. -/
  | weightsRank
  /-- Elements that do not fill rows of the given size. -/
  | unevenRows (elements : Nat) (size : UInt32)
  /-- A rank other than that of the output. -/
  | rankDiffers (rank output : Nat)
  /-- A block without elements. -/
  | emptyBlock
  /-- A negative number of neighbours. -/
  | negativeRadius
  /-- A number of pairs other than the number of dimensions. -/
  | padCount (pairs rank : Nat)
  /-- A pad value of a type that cannot be read. -/
  | padValue
  /-- Tensors of different shapes where they must be the same. -/
  | shapesDiffer
  /-- A shape that cannot be reshaped to. -/
  | reshape (cause : ReshapeFault)
  /-- A number of elements other than that of the input. -/
  | countDiffers
  /-- A dimension to remove that has more or less than one element. -/
  | notUnit (axis : UInt32)
  /-- A size that is not one of rows and columns. -/
  | notImageSize
  /-- A box that leaves out a dimension. -/
  | boxRank
  /-- No parts at all. -/
  | noParts
  /-- A dimension that does not divide into equal parts. -/
  | unevenParts (axis : Nat) (size : UInt32) (count : Nat)
  /-- A number of sizes other than the number of parts. -/
  | partCount (sizes count : Nat)
  /-- More than one size is open, or one is negative. -/
  | openParts
  /-- Sizes that do not add up. -/
  | partSum (sizes : List Int) (total : UInt32)
deriving DecidableEq, Repr

namespace TensorFault

/-- Describes the fault. -/
def message : TensorFault → String
  | noSuchTensor => "no such tensor"
  | noProducer => "tensor has no producer"
  | secondProducer => "tensor already has a producer"
  | writtenTwice => "operator produces a tensor twice"
  | descriptor cause => cause.message
  | tensor cause => cause.message
  | unspecified => "shape is not fully specified"
  | notRank4 dims =>
    "expected a rank 4 tensor, found " ++ listText (dims.map (toString ·.toNat))
  | notConstant => "tensor should be constant"
  | notSingle count => s!"expected a single value, found {count}"
  | notSize value => s!"{value} is not a size"
  | outOfRange value => s!"{value} is out of range"
  | notPairs => "expected pairs of values"
  | axisOutOfRange axis rank => s!"axis {axis} is out of range for rank {rank}"
  | axisTooLarge => "axis is out of range"
  | indexType t => "index output must be 32 or 64 bit integers, not " ++ t.name
  | windowOverflow kernel stride dilation =>
    s!"kernel {kernel} with stride {stride} and dilation {dilation} overflows"
  | weightsRank => "fully connected weights must be 2 dimensional"
  | unevenRows elements size => s!"{elements} elements cannot be split in rows of {size}"
  | rankDiffers rank output => s!"rank {rank} differs from the output rank {output}"
  | emptyBlock => "block size must be positive"
  | negativeRadius => "negative radius"
  | padCount pairs rank => s!"{pairs} pairs given for a rank {rank} input"
  | padValue => "pad value cannot be read"
  | shapesDiffer => "packed tensors must share one shape"
  | reshape cause => cause.message
  | countDiffers => "element count differs from the input"
  | notUnit axis => s!"dimension {axis} is not of size 1"
  | notImageSize => "expected a [height, width] size"
  | boxRank => "begin and size must cover every dimension"
  | noParts => "split count must be positive"
  | unevenParts axis size count => s!"dimension {axis} of size {size} does not split in {count}"
  | partCount sizes count => s!"{sizes} sizes given for {count} views"
  | openParts => "at most one size may be -1"
  | partSum sizes total =>
    "sizes " ++ listText (sizes.map toString) ++ s!" do not add up to {total}"

end TensorFault

/-- Why an operator is not supported, although its tensors are in order. -/
inductive Unsupported where
  /-- No layers are known for the operator. -/
  | noLowering
  /-- Depthwise weights whose scales belong to single channels. -/
  | perAxisDepthwise
  /-- A function that no layer computes. -/
  | fusedActivation (function : FusedActivation)
deriving DecidableEq, Repr

/-- Describes the reason. -/
def Unsupported.message : Unsupported → String
  | noLowering => "no translation is known for this operator"
  | perAxisDepthwise => "per-axis quantized depthwise weights"
  | fusedActivation function =>
    let name := match function with
      | .none => "None"
      | .relu => "Relu"
      | .reluN1To1 => "ReluN1To1"
      | .relu6 => "Relu6"
      | .tanh => "Tanh"
      | .signBit => "SignBit"
    "fused activation " ++ name

/-- What is wrong with an input or an output of a model. -/
inductive BoundaryFault where
  /-- The model has no such tensor. -/
  | noSuchTensor
  /-- The size of a dimension is not known. -/
  | dynamic
  /-- It has no descriptor. -/
  | descriptor (cause : DescriptorError)
  /-- No operator writes it. -/
  | noProducer
  /-- The graph refused it. -/
  | graph (cause : GraphError)
deriving DecidableEq, Repr

/-- Describes the fault. -/
def BoundaryFault.message : BoundaryFault → String
  | noSuchTensor => "no such tensor"
  | dynamic => "tensor is dynamically shaped"
  | descriptor cause => cause.message
  | noProducer => "no operator produces this tensor"
  | graph cause => cause.message

/-- The numbers of tensors an operator may have. -/
structure Arity where
  /-- The least number. -/
  least : Nat
  /-- The greatest number, if there is one. -/
  most : Option Nat
deriving DecidableEq, Repr

namespace Arity

/-- Exactly so many tensors. -/
def exactly (n : Nat) : Arity := ⟨n, some n⟩

/-- From one number of tensors to another. -/
def between (least most : Nat) : Arity := ⟨least, some most⟩

/-- So many tensors or more. -/
def atLeast (n : Nat) : Arity := ⟨n, none⟩

/-- Whether a number of tensors is allowed. -/
def allows (a : Arity) (n : Nat) : Bool := decide (a.least ≤ n) && a.most.all (n ≤ ·)

/-- Text of the numbers. -/
def text (a : Arity) : String :=
  match a.most with
  | none => s!"at least {a.least}"
  | some most => if most = a.least then toString a.least else s!"{a.least} to {most}"

end Arity

/-- Why a model is not lowered. An operator is named by its position in the model. -/
inductive LoweringError where
  /-- The model has no such operator. -/
  | unknownOperator (operator : Nat)
  /-- The operator has too many or too few tensors. -/
  | arity (operator : Nat) (name : String) (direction : Direction) (expected : Arity)
      (actual : Nat)
  /-- A tensor of the operator is not what it should be. -/
  | invalidTensor (operator : Nat) (tensor : Int) (fault : TensorFault)
  /-- The operator is not supported. -/
  | unsupportedOperator (operator : Nat) (name : String) (reason : Unsupported)
  /-- The size of a dimension of a tensor of the operator is not known. -/
  | dynamicShape (operator tensor : Nat)
  /-- The graph refused a layer of the operator. -/
  | graph (operator : Nat) (cause : GraphError)
  /-- An input or an output of the model cannot be one of the graph. -/
  | invalidBoundary (direction : Direction) (tensor : Int) (fault : BoundaryFault)
  /-- The lowered graph is not complete. -/
  | incomplete (cause : GraphError)
  /-- A number that does not fit. It is not reported: the program stops. -/
  | overflow (operation : Overflow)
deriving DecidableEq, Repr

namespace LoweringError

/-- Describes the error. What is wrong with the text of a document is not said. -/
def message : LoweringError → String
  | unknownOperator operator => s!"model has no operator {operator}"
  | arity operator name direction expected actual =>
    s!"operator {operator} ({name}) expects " ++ expected.text ++ " " ++ direction.name
      ++ s!" tensors, found {actual}"
  | invalidTensor operator tensor fault =>
    s!"operator {operator}: tensor {tensor} is invalid: " ++ fault.message
  | unsupportedOperator operator name reason =>
    s!"operator {operator}: {name} is not supported: " ++ reason.message
  | dynamicShape operator tensor => s!"operator {operator}: tensor {tensor} is dynamically shaped"
  | graph operator cause => s!"operator {operator}: " ++ cause.message
  | invalidBoundary direction tensor fault =>
    "model " ++ direction.name ++ s!" tensor {tensor} is invalid: " ++ fault.message
  | incomplete cause => "translated graph is incomplete: " ++ cause.message
  | overflow operation => operation.message

end LoweringError

end LayerGraph
