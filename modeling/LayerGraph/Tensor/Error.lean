import LayerGraph.Numeric.Overflow
import LayerGraph.Tensor.ElementType

/-! # What can be wrong with a tensor -/

namespace LayerGraph

/-- The text of a list, its items between brackets with a comma and a blank. -/
def listText (items : List String) : String := "[" ++ String.intercalate ", " items ++ "]"

/-- The text of a shape; a dimension whose size is not known is a question mark. -/
def dimsText (dims : List (Option UInt32)) : String :=
  "[" ++ String.intercalate "," (dims.map fun
    | some d => toString d.toNat
    | none => "?") ++ "]"

/-- Reasons to refuse a descriptor, a payload or a permutation. -/
inductive TensorError where
  /-- Quantization per axis without a scale. -/
  | emptyScales
  /-- Quantization per axis with one scale, which cannot be told from one per tensor. -/
  | ambiguousAxis (axis : UInt32)
  /-- Quantization along an axis the tensor does not have. -/
  | axisOutOfRange (axis : UInt32) (rank : Nat)
  /-- Quantization per axis with a number of scales other than the size of the axis. -/
  | scaleCountMismatch (scales : Nat) (dim : UInt32)
  /-- A payload for a shape with a dimension whose size is not known. -/
  | unspecifiedShape
  /-- A number of elements or bytes beyond 64 bits. -/
  | tooManyElements (dims : List (Option UInt32))
  /-- A payload of the wrong size. -/
  | payloadSize (expected actual : Nat)
  /-- Elements that are not floating point, where floating point is needed. -/
  | notFloat (elementType : ElementType)
  /-- Cells of one type for a tensor of another. -/
  | cellType (expected found : ElementType)
  /-- A list that repeats a dimension or names one it does not have. -/
  | notPermutation (mappings : List UInt32)
  /-- A permutation of another number of dimensions than the shape has. -/
  | permutationRank (length rank : Nat)
  /-- Depthwise weights that do not have four dimensions, the first of size one. -/
  | depthwiseShape (dims : List UInt32)
  /-- Depthwise weights whose channels cannot be shared out among the input channels. -/
  | depthwiseChannels (channels inputChannels : UInt32)
  /-- A number that does not fit. It is not reported: the program stops. -/
  | overflow (operation : Overflow)
deriving DecidableEq, Repr

namespace TensorError

/-- Describes the error. -/
def message : TensorError → String
  | emptyScales => "per-axis quantization needs at least one scale"
  | ambiguousAxis axis =>
    s!"per-axis quantization on axis {axis} has a single scale, which reads as per-tensor"
  | axisOutOfRange axis rank =>
    s!"quantization axis {axis} is out of range for a tensor of rank {rank}"
  | scaleCountMismatch scales dim =>
    s!"{scales} quantization scales given for a dimension of size {dim}"
  | unspecifiedShape => "constant tensors need a fully specified shape"
  | tooManyElements dims => "element count of shape " ++ dimsText dims ++ " overflows"
  | payloadSize expected actual =>
    s!"constant payload holds {actual} bytes, its descriptor requires {expected}"
  | notFloat t => t.name ++ " values cannot be read as floating point"
  | cellType expected found =>
    found.name ++ " cells cannot be stored in a " ++ expected.name ++ " tensor"
  | notPermutation mappings =>
    "invalid permutation: " ++ listText (mappings.map (toString ·.toNat))
      ++ " is not a permutation of 0.." ++ toString mappings.length
  | permutationRank length rank =>
    s!"invalid permutation: permutation of length {length} applied to rank {rank}"
  | depthwiseShape dims =>
    "invalid permutation: depthwise weights of shape " ++ listText (dims.map (toString ·.toNat))
      ++ " are not [1, H, W, I * M]"
  | depthwiseChannels channels inputChannels =>
    s!"invalid permutation: {channels} weight channels are not a multiple of {inputChannels} input channels"
  | overflow operation => operation.message

end TensorError

end LayerGraph
