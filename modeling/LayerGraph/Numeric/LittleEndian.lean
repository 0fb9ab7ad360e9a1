import LayerGraph.Numeric.Binary

/-! # Numbers as bytes

  Whole numbers of a fixed number of bytes, the byte of least weight first. Signed numbers
  are stored in two's complement.
-/

namespace LayerGraph

namespace LittleEndian

/-- The lowest `width` bytes of a number. -/
def encode : (width : Nat) → Nat → List UInt8
  | 0, _ => []
  | width + 1, n => UInt8.ofNat n :: encode width (n / 256)

/-- The number that bytes denote. -/
def decode : List UInt8 → Nat
  | [] => 0
  | b :: rest => b.toNat + 256 * decode rest

/-- The lowest `width` bytes of an integer in two's complement. -/
def encodeInt (width : Nat) (n : Int) : List UInt8 := encode width (n % 2 ^ (8 * width)).toNat

/-- The integer that bytes denote in two's complement. -/
def decodeInt (bytes : List UInt8) : Int := (decode bytes : Int).bmod (2 ^ (8 * bytes.length))

/-- The bytes of a floating point value. -/
def encodeBinary {F : FloatFormat} (x : Binary F) : List UInt8 := encode (F.width / 8) x.bits.toNat

/-- The floating point value that bytes denote. -/
def decodeBinary (F : FloatFormat) (bytes : List UInt8) : Binary F := ⟨BitVec.ofNat _ (decode bytes)⟩

end LittleEndian

/-- Cuts bytes into cells of the given width. Bytes left over at the end are dropped. -/
def cells (width : Nat) (bytes : List UInt8) : List (List UInt8) :=
  if _h : 0 < width ∧ width ≤ bytes.length then
    bytes.take width :: cells width (bytes.drop width)
  else []
termination_by bytes.length
decreasing_by simp; omega

end LayerGraph
