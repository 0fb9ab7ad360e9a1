import LayerGraph.Container.Codec
import LayerGraph.Tensor.Permutation

/-! # Tensors in containers

  The codecs of descriptors, constants and permutations. A descriptor has as many scales as
  it needs and an axis; the greatest number stands for no axis.
-/

namespace LayerGraph

namespace Codec

/-- Element types. -/
def elementType : Codec ElementType :=
  tagged [(.float16, 0), (.float32, 1), (.qAsymmU8, 2), (.signed32, 3), (.boolean, 4),
    (.qSymmS16, 5), (.qSymmS8, 7), (.qAsymmS8, 8), (.bFloat16, 9), (.signed64, 10)]

/-- Sizes of dimensions: whether the size is known, and the size. -/
def dim : Codec (Option UInt32) :=
  (bool.seq uint32).imap
    (fun (known, size) => if known then some size else none)
    (fun size => (size.isSome, size.getD 0))

/-- The number that stands for no axis. -/
def noAxis : UInt32 := 0xFFFFFFFF

/-- The parts of a descriptor as they are stored. -/
structure RawInfo where
  /-- Type of the elements. -/
  elementType : ElementType
  /-- Sizes of the dimensions. -/
  dims : List (Option UInt32)
  /-- Scales. -/
  scales : List Binary32
  /-- Stored integer that stands for zero. -/
  offset : Int32
  /-- Axis of the scales. -/
  axis : UInt32
  /-- Whether the values never change. -/
  isConstant : Bool

/-- The parts of descriptors. -/
def rawInfo : Codec RawInfo :=
  (elementType.seq <| (list 5 dim).seq <| (list 4 binary32).seq <| int32.seq <|
    uint32.seq bool).imap
    (fun (elementType, dims, scales, offset, axis, isConstant) =>
      ⟨elementType, dims, scales, offset, axis, isConstant⟩)
    (fun r => (r.elementType, r.dims, r.scales, r.offset, r.axis, r.isConstant))

/-- The descriptor that stored parts stand for. The number of scales and the axis must
    agree. -/
def RawInfo.toInfo (r : RawInfo) : Except ContainerFault TensorInfo :=
  let base := TensorInfo.new ⟨r.dims⟩ r.elementType
  match r.scales with
  | [] => .error .noScale
  | [scale] =>
    if r.axis = noAxis then .ok ((base.withQuantization scale r.offset).withConstant r.isConstant)
    else .error (.singleScale r.axis)
  | scales =>
    if r.axis = noAxis then .error (.noAxis scales.length)
    else match base.withPerAxis scales r.offset r.axis with
      | .ok info => .ok (info.withConstant r.isConstant)
      | .error cause => .error (.tensor cause)

/-- The stored parts of a descriptor. -/
def RawInfo.ofInfo (info : TensorInfo) : RawInfo :=
  ⟨info.elementType, info.shape.dims, info.quantization.scales, info.quantization.offset,
    info.quantization.axis?.getD noAxis, info.isConstant⟩

/-- Descriptors. -/
def info : Codec TensorInfo := rawInfo.refine RawInfo.toInfo RawInfo.ofInfo

/-- Constants: the descriptor, the width of a cell, the number of cells, and the cells. -/
def constant : Codec Constant where
  write t := do
    let head ← info.write t.info
    let width ← uint8.write (.ofNat t.elementType.size)
    let count ← (length t.elementType.size).write t.cellCount
    return head ++ width ++ count ++ t.data
  read := do
    let described ← info.read
    let start ← Read.offset
    let width ← uint8.read
    if width.toNat ≠ described.elementType.size then
      throw (.cellWidth start described.elementType width)
    let count ← (length width.toNat).read
    match Constant.ofBytes described (← Read.bytes (count * width.toNat)) with
    | .ok t => return t
    | .error cause => Read.refuse start (.tensor cause)

/-- Permutations. -/
def permutation : Codec Permutation :=
  uint32s.refine (fun mappings => (Permutation.ofMappings mappings).mapError .tensor) (·.mappings)

end Codec

end LayerGraph
