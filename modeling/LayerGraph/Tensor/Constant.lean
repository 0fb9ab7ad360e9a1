import LayerGraph.Numeric.LittleEndian
import LayerGraph.Tensor.Info

/-! # Constant tensors

  A constant is a descriptor with the bytes of its values, one cell of the element type's
  width for each element in row-major order. The descriptor of a constant always has its
  constant flag set, and always requires as many bytes as there are.
-/

namespace LayerGraph

/-- A descriptor with the values it describes. -/
structure Constant where
  /-- Descriptor of the values. -/
  info : TensorInfo
  /-- The cells of the values. -/
  data : List UInt8
  /-- There is one cell for each element. -/
  byteCount_eq : info.byteCount = .ok data.length
  /-- The descriptor says that the values never change. -/
  isConstant_eq : info.isConstant = true
deriving DecidableEq

/-! ### Cell types -/

/-- The types of values that cells are written from. -/
inductive CellType where
  /-- Single precision. -/
  | binary32
  /-- Signed integers of 32 bits. -/
  | int32
  /-- Signed integers of 64 bits. -/
  | int64
  /-- Signed integers of 16 bits. -/
  | int16
  /-- Unsigned bytes. -/
  | uint8
  /-- Signed bytes. -/
  | int8
  /-- Truth values. -/
  | bool
  /-- Half precision. -/
  | binary16
  /-- The upper half of single precision. -/
  | bfloat16
deriving DecidableEq, Repr

namespace CellType

/-- The element type that values of the cell type naturally have. -/
def native : CellType → ElementType
  | binary32 => .float32
  | int32 => .signed32
  | int64 => .signed64
  | int16 => .qSymmS16
  | uint8 => .qAsymmU8
  | int8 => .qAsymmS8
  | bool => .boolean
  | binary16 => .float16
  | bfloat16 => .bFloat16

/-- Whether values of the cell type may be stored in tensors of the element type. -/
def accepts (cell : CellType) (elementType : ElementType) : Bool :=
  elementType == cell.native
    || (cell == .uint8 && elementType == .boolean)
    || (cell == .int8 && elementType == .qSymmS8)

end CellType

namespace Constant

/-! ### Construction -/

/-- The constant of the given descriptor and cells. The payload must hold exactly one cell
    for each element. -/
def ofBytes (info : TensorInfo) (data : List UInt8) : Except TensorError Constant :=
  match h : info.byteCount with
  | .error e => .error e
  | .ok expected =>
    if hs : expected = data.length then
      .ok ⟨info.withConstant true, data, by subst hs; exact h, rfl⟩
    else .error (.payloadSize expected data.length)

/-- The constant whose cells are written from values of a cell type; the values come as
    the bytes of one cell each. -/
def ofCells (info : TensorInfo) (cell : CellType) (values : List (List UInt8)) :
    Except TensorError Constant :=
  if cell.accepts info.elementType then ofBytes info values.flatten
  else .error (.cellType info.elementType cell.native)

/-- A constant of single precision values. -/
def ofBinary32 (dims : List UInt32) (values : List Binary32) : Except TensorError Constant :=
  ofCells (.new (.ofDims dims) .float32) .binary32 (values.map LittleEndian.encodeBinary)

/-- A constant of signed integers, each reduced to the width of the cell. -/
def ofInts (info : TensorInfo) (cell : CellType) (values : List Int) :
    Except TensorError Constant :=
  ofCells info cell (values.map (LittleEndian.encodeInt cell.native.size))

/-! ### Observation -/

/-- Type of the elements. -/
def elementType (t : Constant) : ElementType := t.info.elementType

/-- Number of cells. -/
def cellCount (t : Constant) : Nat := t.data.length / t.elementType.size

/-- The same cells under another descriptor, which must require as many bytes. -/
def withInfo (t : Constant) (info : TensorInfo) : Except TensorError Constant :=
  ofBytes info t.data

/-- The cells of the values. -/
def cells (t : Constant) : List (List UInt8) := LayerGraph.cells t.elementType.size t.data

/-- The values of floating point cells, in single precision. -/
def toBinary32 (t : Constant) : Except TensorError (List Binary32) :=
  match t.elementType with
  | .float32 => .ok (t.cells.map (LittleEndian.decodeBinary .binary32))
  | .float16 => .ok (t.cells.map fun c => (LittleEndian.decodeBinary .binary16 c).convert .binary32)
  | .bFloat16 => .ok (t.cells.map fun c => (LittleEndian.decodeBinary .bfloat16 c).convert .binary32)
  | other => .error (.notFloat other)

/-- The values of the cells of indices, axes, shapes and paddings. -/
def toInts (t : Constant) : Except TensorError (List Int) :=
  match t.elementType with
  | .signed32 | .signed64 => .ok (t.cells.map LittleEndian.decodeInt)
  | other => .error (.cellType .signed32 other)

/-- The smallest and the largest of some values. NaNs are passed over; of NaNs alone the
    answer is the largest and the smallest finite value. -/
def extent (values : List Binary32) : Binary32 × Binary32 :=
  values.foldl (fun (lo, hi) v => (lo.min v, hi.max v)) (.greatest, .least)

/-- The smallest and the largest value of a floating point constant; zeros when it is
    empty. -/
def minMax (t : Constant) : Except TensorError (Binary32 × Binary32) := do
  let values ← t.toBinary32
  return if values.isEmpty then (.zero, .zero) else extent values

end Constant

end LayerGraph
