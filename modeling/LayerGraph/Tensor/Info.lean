import LayerGraph.Numeric.Notation
import LayerGraph.Tensor.Error

/-! # Tensor descriptors

  A descriptor says everything about a tensor but its values: the shape, in which the size
  of a dimension may be left open, the element type, the quantization, and whether the
  tensor is constant.
-/

namespace LayerGraph

/-! ### Shapes -/

/-- The sizes of the dimensions of a tensor; a size that is not known is absent. -/
structure Shape where
  /-- The sizes, outermost first. -/
  dims : List (Option UInt32)
deriving DecidableEq, Repr

namespace Shape

/-- The shape whose sizes are all known. -/
def ofDims (dims : List UInt32) : Shape := ⟨dims.map some⟩

/-- Number of dimensions. -/
def rank (shape : Shape) : Nat := shape.dims.length

/-- Size of a dimension, if there is such a dimension and its size is known. -/
def dim? (shape : Shape) (index : Nat) : Option UInt32 := shape.dims[index]?.join

/-- Whether all sizes are known. -/
def isSpecified (shape : Shape) : Bool := shape.dims.all Option.isSome

/-- The sizes, if all are known. -/
def concrete? (shape : Shape) : Option (List UInt32) := shape.dims.mapM id

/-- Text of a shape. -/
def text (shape : Shape) : String := dimsText shape.dims

/-- Sizes in memory must fit in 64 bits. -/
def sizeLimit : Nat := 2 ^ 64

/-- Number of elements; a shape without dimensions is that of a single value. The sizes are
    multiplied from the outermost on, and the first that is not known or that takes the
    product beyond 64 bits is reported. -/
def elementCount (shape : Shape) : Except TensorError Nat :=
  shape.dims.foldlM (fun count dim =>
    match dim with
    | none => .error .unspecifiedShape
    | some d =>
      if count * d.toNat < sizeLimit then .ok (count * d.toNat)
      else .error (.tooManyElements shape.dims)) 1

end Shape

/-! ### Quantization -/

/-- How stored integers stand for real numbers: `(stored - offset) * scale`. -/
inductive Quantization where
  /-- One scale for the whole tensor. -/
  | perTensor (scale : Binary32) (offset : Int32)
  /-- One scale for each index along an axis, and one offset for all. -/
  | perAxis (scales : List Binary32) (offset : Int32) (axis : UInt32)
deriving DecidableEq, Repr

namespace Quantization

/-- The stored integer that stands for zero. -/
def offset : Quantization → Int32
  | perTensor _ offset => offset
  | perAxis _ offset _ => offset

/-- The scales in the order of the axis. -/
def scales : Quantization → List Binary32
  | perTensor scale _ => [scale]
  | perAxis scales _ _ => scales

/-- The axis the scales belong to, if there is one. -/
def axis? : Quantization → Option UInt32
  | perTensor _ _ => none
  | perAxis _ _ axis => some axis

/-- The quantization of tensors that have none. -/
def absent : Quantization := perTensor .zero 0

end Quantization

/-! ### Descriptors -/

/-- What is known about a tensor apart from its values. -/
structure TensorInfo where
  /-- Sizes of the dimensions. -/
  shape : Shape
  /-- Type of the elements. -/
  elementType : ElementType
  /-- Meaning of stored integers. -/
  quantization : Quantization
  /-- Whether the values never change. -/
  isConstant : Bool
deriving DecidableEq, Repr

namespace TensorInfo

/-- A descriptor without quantization. -/
def new (shape : Shape) (elementType : ElementType) : TensorInfo :=
  ⟨shape, elementType, .absent, false⟩

/-- A descriptor with one scale. -/
def quantized (shape : Shape) (elementType : ElementType) (scale : Binary32) (offset : Int32) :
    TensorInfo :=
  ⟨shape, elementType, .perTensor scale offset, false⟩

/-- The descriptor with one scale. -/
def withQuantization (info : TensorInfo) (scale : Binary32) (offset : Int32) : TensorInfo :=
  { info with quantization := .perTensor scale offset }

/-- The descriptor with one scale for each index along an axis. One scale alone is refused,
    since the two forms of quantization are told apart by the number of scales. -/
def withPerAxis (info : TensorInfo) (scales : List Binary32) (offset : Int32) (axis : UInt32) :
    Except TensorError TensorInfo :=
  match scales with
  | [] => .error .emptyScales
  | [_] => .error (.ambiguousAxis axis)
  | _ =>
    if info.shape.rank ≤ axis.toNat then .error (.axisOutOfRange axis info.shape.rank)
    else
      match info.shape.dim? axis.toNat with
      | some dim =>
        if dim.toNat ≠ scales.length then .error (.scaleCountMismatch scales.length dim)
        else .ok { info with quantization := .perAxis scales offset axis }
      | none => .ok { info with quantization := .perAxis scales offset axis }

/-- The descriptor with the constant flag set or cleared. -/
def withConstant (info : TensorInfo) (isConstant : Bool) : TensorInfo :=
  { info with isConstant := isConstant }

/-- The descriptor with another shape. -/
def withShape (info : TensorInfo) (shape : Shape) : TensorInfo := { info with shape := shape }

/-- The descriptor with another element type. -/
def withElementType (info : TensorInfo) (elementType : ElementType) : TensorInfo :=
  { info with elementType := elementType }

/-- Scale of the tensor; with one scale for each index, the first of them. -/
def scale (info : TensorInfo) : Binary32 := info.quantization.scales.headD .zero

/-- Stored integer that stands for zero. -/
def offset (info : TensorInfo) : Int32 := info.quantization.offset

/-- Whether each index along an axis has its own scale. -/
def isPerAxis (info : TensorInfo) : Bool := info.quantization.axis?.isSome

/-- Number of elements. -/
def elementCount (info : TensorInfo) : Except TensorError Nat := info.shape.elementCount

/-- Number of bytes of the elements. -/
def byteCount (info : TensorInfo) : Except TensorError Nat := do
  let count ← info.elementCount
  if count * info.elementType.size < Shape.sizeLimit then return count * info.elementType.size
  else throw (.tooManyElements info.shape.dims)

/-- Text of a descriptor. The quantization is written when it has an axis or the elements
    are quantized. -/
def text (info : TensorInfo) : String :=
  let base := info.elementType.name ++ info.shape.text
  match info.quantization with
  | .perTensor scale offset =>
    if info.elementType.isQuantized then
      base ++ " q(" ++ scale.plainText ++ ", " ++ toString offset.toInt ++ ")"
    else base
  | .perAxis scales offset axis =>
    base ++ " q(axis " ++ toString axis.toNat ++ ", " ++ toString scales.length
      ++ " scales, " ++ toString offset.toInt ++ ")"

end TensorInfo

end LayerGraph
