import LayerGraph.Model.OperatorCode
import LayerGraph.Graph.LayerKind

/-! # Models

  A model is a table of tensors and a list of operators that name their tensors by
  position. It is what graphs are lowered from.
-/

namespace LayerGraph

/-! ### Choices -/

/-- How the elements of a model's tensor are stored. -/
inductive StorageType where
  /-- Single precision. -/
  | float32
  /-- Half precision. -/
  | float16
  /-- Signed integers of 32 bits. -/
  | int32
  /-- Unsigned bytes. -/
  | uint8
  /-- Signed integers of 64 bits. -/
  | int64
  /-- Texts. -/
  | string
  /-- Truth values. -/
  | bool
  /-- Signed integers of 16 bits. -/
  | int16
  /-- Complex numbers. -/
  | complex64
  /-- Signed bytes. -/
  | int8
  /-- Double precision. -/
  | float64
deriving DecidableEq, Repr

instance : Choice StorageType where
  title := "TensorType"
  named := [(.float32, "FLOAT32"), (.float16, "FLOAT16"), (.int32, "INT32"), (.uint8, "UINT8"),
    (.int64, "INT64"), (.string, "STRING"), (.bool, "BOOL"), (.int16, "INT16"),
    (.complex64, "COMPLEX64"), (.int8, "INT8"), (.float64, "FLOAT64")]

/-- How the border of an image is filled. -/
inductive PaddingRule where
  /-- As many windows as strides fit in the image. -/
  | same
  /-- No padding. -/
  | valid
deriving DecidableEq, Repr

instance : Choice PaddingRule where
  title := "Padding"
  named := [(.same, "SAME"), (.valid, "VALID")]

/-- A function applied to the result of an operator. -/
inductive FusedActivation where
  /-- No function. -/
  | none
  /-- Zero in place of negative values. -/
  | relu
  /-- Values between minus one and one. -/
  | reluN1To1
  /-- Values between zero and six. -/
  | relu6
  /-- Hyperbolic tangent. -/
  | tanh
  /-- The sign. -/
  | signBit
deriving DecidableEq, Repr

instance : Choice FusedActivation where
  title := "FusedActivation"
  named := [(.none, "NONE"), (.relu, "RELU"), (.reluN1To1, "RELU_N1_TO_1"), (.relu6, "RELU6"),
    (.tanh, "TANH"), (.signBit, "SIGN_BIT")]

/-- Where mirrored padding begins. -/
inductive MirrorMode where
  /-- Behind the edge element. -/
  | reflect
  /-- At the edge element. -/
  | symmetric
deriving DecidableEq, Repr

instance : Choice MirrorMode where
  title := "MirrorPadMode"
  named := [(.reflect, "REFLECT"), (.symmetric, "SYMMETRIC")]

/-! ### Operators -/

/-- The options of all operators together; each operator reads those it knows. -/
structure OperatorOptions where
  /-- How the border of an image is filled. -/
  padding : PaddingRule := .same
  /-- Columns from one window to the next. -/
  strideW : UInt32 := 1
  /-- Rows from one window to the next. -/
  strideH : UInt32 := 1
  /-- Columns from one element of a window to the next. -/
  dilationW : UInt32 := 1
  /-- Rows from one element of a window to the next. -/
  dilationH : UInt32 := 1
  /-- Columns of a window. -/
  filterWidth : UInt32 := 1
  /-- Rows of a window. -/
  filterHeight : UInt32 := 1
  /-- Function applied to the result. -/
  fusedActivation : FusedActivation := .none
  /-- The dimension worked along, counted from the end when negative. -/
  axis : Int32 := 0
  /-- Whether reduced dimensions stay. -/
  keepDims : Bool := false
  /-- A factor. -/
  alpha : Binary32 := .zero
  /-- Another factor. -/
  beta : Binary32 := 1
  /-- Number of neighbours on each side. -/
  radius : Int32 := 0
  /-- A number that is added. -/
  bias : Binary32 := .zero
  /-- Rows and columns of an image block. -/
  blockSize : UInt32 := 1
  /-- The shape to take on. -/
  newShape : Option (List Int32) := none
  /-- The dimensions to remove. -/
  squeezeDims : List Int32 := []
  /-- Number of parts. -/
  splitCount : UInt32 := 1
  /-- Dimensions that begin at their first element. -/
  startMask : Int32 := 0
  /-- Dimensions that go on to their last element. -/
  stopMask : Int32 := 0
  /-- The entry that stands for all dimensions not listed. -/
  ellipsisMask : Int32 := 0
  /-- Entries that add a dimension. -/
  newAxisMask : Int32 := 0
  /-- Dimensions that are removed. -/
  shrinkMask : Int32 := 0
  /-- Whether the corner elements keep their values. -/
  alignCorners : Bool := false
  /-- Whether positions are those of the middle of elements. -/
  halfPixelCenters : Bool := false
  /-- Where mirrored padding begins. -/
  mirrorMode : MirrorMode := .reflect
deriving DecidableEq, Repr

/-- One operator of a model. -/
structure ModelOperator where
  /-- What it computes. -/
  code : OperatorCode := .other ""
  /-- Positions of the tensors it reads; minus one stands for a tensor left out. -/
  inputs : List Int32 := []
  /-- Positions of the tensors it writes. -/
  outputs : List Int32 := []
  /-- Its options. -/
  options : OperatorOptions := {}
deriving DecidableEq, Repr

/-! ### Tensors -/

/-- Quantization of a model's tensor. -/
structure ModelQuantization where
  /-- The scales. -/
  scales : List Binary32
  /-- The zero points. -/
  zeroPoints : List Int64 := []
  /-- The axis that several scales belong to. -/
  axis : UInt32 := 0
deriving DecidableEq, Repr

/-- One tensor of a model. -/
structure ModelTensor where
  /-- Its name. -/
  name : String
  /-- Its shape. -/
  shape : List Int32
  /-- Its shape with minus one for the sizes only known when it is computed. -/
  signature : Option (List Int32) := none
  /-- How its elements are stored. -/
  storage : StorageType
  /-- Its values, when they never change. -/
  data : Option (List UInt8) := none
  /-- Meaning of its stored integers. -/
  quantization : Option ModelQuantization := none
deriving DecidableEq, Repr

/-- A table of tensors with the operators on them. -/
structure Model where
  /-- The tensors. -/
  tensors : List ModelTensor := []
  /-- The operators, in the order they are computed. -/
  operators : List ModelOperator := []
  /-- Positions of the tensors the caller feeds. -/
  inputs : List Int32 := []
  /-- Positions of the tensors the caller reads. -/
  outputs : List Int32 := []
deriving DecidableEq, Repr

/-! ### Descriptors -/

/-- Why a tensor of a model has no descriptor. -/
inductive DescriptorError where
  /-- Elements stored in a way that graphs do not have. -/
  | unsupportedStorage (storage : StorageType)
  /-- A zero point beyond 32 bits. -/
  | zeroPointRange (zeroPoint : Int64)
  /-- A quantization that does not fit the shape. -/
  | tensor (cause : TensorError)
deriving DecidableEq, Repr

/-- Describes the error. -/
def DescriptorError.message : DescriptorError → String
  | unsupportedStorage storage =>
    let name := match storage with
      | .string => "String"
      | .complex64 => "Complex64"
      | .float64 => "Float64"
      | other => Choice.name other
    "element type " ++ name ++ " is not supported"
  | zeroPointRange zeroPoint => "zero point " ++ toString zeroPoint.toInt ++ " is out of range"
  | tensor cause => cause.message

namespace ModelTensor

/-- The values of a tensor that has some. -/
def payload? (t : ModelTensor) : Option (List UInt8) := t.data.filter (!·.isEmpty)

/-- Whether the values are part of the model. -/
def isConstant (t : ModelTensor) : Bool := t.payload?.isSome

/-- Whether the size of a dimension is not known. -/
def isDynamic (t : ModelTensor) : Bool :=
  t.shape.any (· < 0) || t.signature.any (·.any (· < 0))

/-- Element type in a graph. Signed bytes with a single zero point are asymmetric. -/
def elementType (t : ModelTensor) : Except DescriptorError ElementType :=
  match t.storage with
  | .float32 => .ok .float32
  | .float16 => .ok .float16
  | .int32 => .ok .signed32
  | .int64 => .ok .signed64
  | .uint8 => .ok .qAsymmU8
  | .int16 => .ok .qSymmS16
  | .bool => .ok .boolean
  | .int8 =>
    if t.quantization.any (·.zeroPoints.length = 1) then .ok .qAsymmS8 else .ok .qSymmS8
  | other => .error (.unsupportedStorage other)

/-- Size of dimension `i`, of which the shape says `d`. -/
def dim? (t : ModelTensor) (i : Nat) (d : Int32) : Option UInt32 :=
  let isOpen := (t.signature.bind (·[i]?)).any (· < 0)
  if isOpen || d < 0 then none else some d.toUInt32

/-- Shape in a graph. A single value becomes a list of one element. -/
def graphShape (t : ModelTensor) : Shape :=
  if t.shape.isEmpty then .ofDims [1] else ⟨t.shape.mapIdx t.dim?⟩

/-- The zero point of a quantization, zero when it has none. -/
def zeroPoint (q : ModelQuantization) : Except DescriptorError Int32 :=
  let n := q.zeroPoints.headD 0
  if -2 ^ 31 ≤ n.toInt ∧ n.toInt < 2 ^ 31 then .ok n.toInt32 else .error (.zeroPointRange n)

/-- Descriptor in a graph. Of several scales each belongs to an index along the axis. -/
def info (t : ModelTensor) : Except DescriptorError TensorInfo := do
  let base := TensorInfo.new t.graphShape (← t.elementType)
  let described ← match t.quantization with
    | none => pure base
    | some q =>
      match q.scales with
      | [] => pure base
      | [scale] => return (base.withQuantization scale (← zeroPoint q)).withConstant t.isConstant
      | scales => (base.withPerAxis scales (← zeroPoint q) q.axis).mapError .tensor
  return described.withConstant t.isConstant

end ModelTensor

/-- The binding of the model's input or output at a position. -/
def bindingOf (tensor : Nat) : BindingId := Int32.ofNat (tensor * 256)

end LayerGraph
