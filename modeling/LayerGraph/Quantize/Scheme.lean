import LayerGraph.Quantize.Error
import LayerGraph.Tensor.Constant

/-! # Quantization schemes

  A scheme says how real numbers of a range are stored as small integers: a stored integer
  `q` stands for `(q - offset) * scale`. The range is widened until it contains zero, so
  zero is always one of the numbers that are stored exactly.

  Parameters are computed in double precision and the scale is narrowed at the end. Values
  are then divided by the narrowed scale in single precision.
-/

namespace LayerGraph

/-- The integers that real numbers are stored as. -/
inductive Scheme where
  /-- Unsigned bytes with a zero point. -/
  | qAsymmU8
  /-- Signed bytes with a zero point. -/
  | qAsymmS8
  /-- Signed bytes, zero is stored as zero. -/
  | qSymmS8
  /-- Signed integers of 16 bits, zero is stored as zero. -/
  | qSymmS16
deriving DecidableEq, Repr

instance : Choice Scheme where
  title := "QuantizationScheme"
  named := [(.qAsymmU8, "QAsymmU8"), (.qAsymmS8, "QAsymmS8"), (.qSymmS8, "QSymmS8"),
    (.qSymmS16, "QSymmS16")]

namespace Scheme

/-- The scheme used when none is named. -/
def standard : Scheme := qAsymmU8

/-- Type of the stored integers. -/
def elementType : Scheme → ElementType
  | qAsymmU8 => .qAsymmU8
  | qAsymmS8 => .qAsymmS8
  | qSymmS8 => .qSymmS8
  | qSymmS16 => .qSymmS16

/-- Cells of the stored integers. -/
def cellType : Scheme → CellType
  | qAsymmU8 => .uint8
  | qAsymmS8 | qSymmS8 => .int8
  | qSymmS16 => .int16

/-- Number of bits of a stored integer. -/
def bits : Scheme → Nat
  | qSymmS16 => 16
  | _ => 8

/-- Least stored integer. -/
def lowest : Scheme → Int
  | qAsymmU8 => 0
  | qAsymmS8 | qSymmS8 => -128
  | qSymmS16 => -32768

/-- Greatest stored integer. -/
def highest : Scheme → Int
  | qAsymmU8 => 255
  | qAsymmS8 | qSymmS8 => 127
  | qSymmS16 => 32767

/-- Whether zero is stored as zero. -/
def isSymmetric : Scheme → Bool
  | qAsymmU8 | qAsymmS8 => false
  | qSymmS8 | qSymmS16 => true

/-! ### Parameters of a range -/

/-- Whether the two ends are in order, neither being a NaN. -/
def isRange {F : FloatFormat} (min max : Binary F) : Bool :=
  !min.isNaN && !max.isNaN && !max.lt min

/-- Scale and offset for a range that contains zero and another number. -/
def parametersOf (scheme : Scheme) (min max : Binary64) : Binary32 × Int32 :=
  if scheme.isSymmetric then
    let extent := min.abs.max max.abs
    ((extent / .ofInt scheme.highest).convert .binary32, 0)
  else
    let scale := (max - min) / .ofInt 255
    let steps := Binary.clamp .zero (.ofInt 255) (-min / scale)
    let offset := steps.roundClamped (-2 ^ 31) (2 ^ 31 - 1) + scheme.lowest
    (scale.convert .binary32, .ofInt offset)

/-- Scale and offset for the values of a range. The range is widened to contain zero, and
    a range of zero alone becomes that from zero to one. -/
def compute (scheme : Scheme) (min max : Binary64) :
    Except QuantizationError (Binary32 × Int32) :=
  if isRange min max then
    let lower := min.min .zero
    let upper := max.max .zero
    let both := lower.sameNumber .zero && upper.sameNumber .zero
    .ok (scheme.parametersOf lower (if both then 1 else upper))
  else .error (.invalidRange (min.convert .binary32) (max.convert .binary32))

/-! ### Values -/

/-- A value in scale, to the nearest integer of 64 bits. -/
def stepsOf (value scale : Binary32) : Int := (value / scale).roundClamped (-2 ^ 63) (2 ^ 63 - 1)

/-- The integer that a value is stored as: the nearest to the value in scale, moved by the
    offset, and then into the integers of the scheme. -/
def quantizeValue (scheme : Scheme) (value scale : Binary32) (offset : Int32) :
    Except Overflow Int := do
  let moved ← addInt64 (stepsOf value scale) offset.toInt
  return max scheme.lowest (min scheme.highest moved)

/-- Stores a floating point constant over the range of its own values. Another constant is
    left as it is. -/
def quantizeConstant (scheme : Scheme) (t : Constant) : Except QuantizationError Constant :=
  if t.elementType.isFloat then do
    let values ← t.toBinary32.mapError .tensor
    let (min, max) ← t.minMax.mapError .tensor
    let (scale, offset) ← scheme.compute (min.convert .binary64) (max.convert .binary64)
    let info := TensorInfo.quantized t.info.shape scheme.elementType scale offset
    let stored ← (values.mapM (scheme.quantizeValue · scale offset)).mapError .overflow
    (Constant.ofInts info scheme.cellType stored).mapError .tensor
  else return t

end Scheme

/-! ### Biases -/

/-- Whether a value is a finite number above zero. -/
def Binary32.isPositive (x : Binary32) : Bool := x.isFinite && Binary.lt .zero x

/-- Stores a floating point bias at the scale of the products it is added to, which is the
    product of the scales of the inputs and the weights, as integers of 32 bits with offset
    zero. Another bias is left as it is. -/
def quantizeBias (bias : Constant) (inputScale weightScale : Binary32) :
    Except QuantizationError Constant :=
  if bias.elementType.isFloat then do
    let scale := inputScale * weightScale
    if !scale.isPositive then throw (.invalidBiasScale inputScale weightScale)
    let values ← bias.toBinary32.mapError .tensor
    let info := TensorInfo.quantized bias.info.shape .signed32 scale 0
    let stored := values.map fun v => (v / scale).roundClamped (-2 ^ 31) (2 ^ 31 - 1)
    (Constant.ofInts info .int32 stored).mapError .tensor
  else return bias

/-! ### Names -/

namespace Scheme

/-- The scheme of the given name, in which case, hyphens and underscores do not matter. A
    name without a sign is that of the usual scheme of its width. -/
def parse (text : String) : Except QuantizationError Scheme :=
  let plain := (text.toList.map Char.toLower).filter fun c => c != '-' && c != '_'
  match String.ofList plain with
  | "qasymmu8" | "qasymm8" => .ok qAsymmU8
  | "qasymms8" => .ok qAsymmS8
  | "qsymms8" | "qsymm8" => .ok qSymmS8
  | "qsymms16" | "qsymm16" => .ok qSymmS16
  | _ => .error (.unknownScheme text)

end Scheme

end LayerGraph
