import LayerGraph.Choice

/-! # Element types of tensors -/

namespace LayerGraph

/-- The type of the elements of a tensor. -/
inductive ElementType where
  /-- Half precision. -/
  | float16
  /-- Single precision. -/
  | float32
  /-- Asymmetric unsigned bytes with a zero point. -/
  | qAsymmU8
  /-- Signed integers of 32 bits. -/
  | signed32
  /-- Truth values, one byte each. -/
  | boolean
  /-- Symmetric signed integers of 16 bits, their zero point is zero. -/
  | qSymmS16
  /-- Symmetric signed bytes, their zero point is zero. -/
  | qSymmS8
  /-- Asymmetric signed bytes with a zero point. -/
  | qAsymmS8
  /-- The upper half of single precision. -/
  | bFloat16
  /-- Signed integers of 64 bits. -/
  | signed64
deriving DecidableEq, Repr

namespace ElementType

instance : Choice ElementType where
  title := "DataType"
  named := [(float16, "Float16"), (float32, "Float32"), (qAsymmU8, "QAsymmU8"),
    (signed32, "Signed32"), (boolean, "Boolean"), (qSymmS16, "QSymmS16"), (qSymmS8, "QSymmS8"),
    (qAsymmS8, "QAsymmS8"), (bFloat16, "BFloat16"), (signed64, "Signed64")]

/-- Name of the type in messages. -/
def name (t : ElementType) : String := Choice.name t

/-- Number of bytes of one element. -/
def size : ElementType → Nat
  | signed64 => 8
  | float32 | signed32 => 4
  | float16 | bFloat16 | qSymmS16 => 2
  | qAsymmU8 | qAsymmS8 | qSymmS8 | boolean => 1

/-- Whether the elements are floating point numbers. -/
def isFloat : ElementType → Bool
  | float16 | float32 | bFloat16 => true
  | _ => false

/-- Whether the elements stand for real numbers through a scale. -/
def isQuantized : ElementType → Bool
  | qAsymmU8 | qAsymmS8 | qSymmS8 | qSymmS16 => true
  | _ => false

/-- Whether the elements are exact values (indices, shapes, masks), which quantization
    leaves alone. -/
def isExact : ElementType → Bool
  | boolean | signed32 | signed64 => true
  | _ => false

end ElementType

end LayerGraph
