import LayerGraph.Numeric.FloatFormat

/-! # Floating point values

  `Binary F` holds a bit pattern of the format `F`, so two values are equal when their
  bits are; NaNs keep their payload. The arithmetic is that of the standard: the exact
  result rounded to the nearest pattern, ties to even.

  **NaN operands.** An operation hands on the first NaN among its operands, made quiet. An
  operation without a result of its own (zero times infinity, a quotient of two zeros or
  two infinities, a difference of infinities) gives the quiet NaN with its sign bit set.
-/

namespace LayerGraph

/-- A bit pattern of a floating point format. -/
structure Binary (F : FloatFormat) where
  /-- Sign, exponent and fraction, the sign being the top bit. -/
  bits : BitVec F.width
deriving DecidableEq, Repr

/-- Half precision values. -/
abbrev Binary16 := Binary .binary16

/-- Values of the sixteen bit format with the range of single precision. -/
abbrev BFloat16 := Binary .bfloat16

/-- Single precision values. -/
abbrev Binary32 := Binary .binary32

/-- Double precision values. -/
abbrev Binary64 := Binary .binary64

namespace Binary

variable {F : FloatFormat}

/-! ### Sign and code -/

/-- The value of the given sign and code. -/
def ofCode (negative : Bool) (code : Nat) : Binary F :=
  ⟨BitVec.ofNat _ ((if negative then F.signWeight else 0) + code)⟩

/-- Whether the sign bit is set. -/
def isNegative (x : Binary F) : Bool := F.signWeight ≤ x.bits.toNat

/-- The bits below the sign. -/
def code (x : Binary F) : Nat := x.bits.toNat % F.signWeight

/-- Whether the value is not a number. -/
def isNaN (x : Binary F) : Bool := F.infinity < x.code

/-- Whether the value is infinite. -/
def isInfinite (x : Binary F) : Bool := x.code == F.infinity

/-- Whether the value is a real number. -/
def isFinite (x : Binary F) : Bool := x.code < F.infinity

/-- Magnitude of a finite value, in units of the format. -/
def units (x : Binary F) : Nat := F.units x.code

/-- The zero without a sign. -/
def zero : Binary F := ofCode false 0

instance : Inhabited (Binary F) := ⟨zero⟩

/-- Infinity of the given sign. -/
def infinity (negative : Bool) : Binary F := ofCode negative F.infinity

/-- The largest finite value. -/
def greatest : Binary F := ofCode false (F.infinity - 1)

/-- The finite value furthest below zero. -/
def least : Binary F := ofCode true (F.infinity - 1)

/-- Result of an operation that has none. -/
def invalid : Binary F := ofCode true F.quietNaN

/-- A NaN with its quiet bit set. -/
def quieted (x : Binary F) : Binary F :=
  if x.code % F.hidden < F.hidden / 2 then ofCode x.isNegative (x.code + F.hidden / 2) else x

/-! ### Rounding into the format -/

/-- The value nearest to `num / den` units, with the given sign. -/
def ofUnits (negative : Bool) (num den : Nat) : Binary F := ofCode negative (F.nearest num den)

/-- The value nearest to the fraction `num / den`, with the given sign. -/
def ofRatio (negative : Bool) (num den : Nat) : Binary F :=
  ofUnits negative (num * 2 ^ F.scale) den

/-- The value nearest to an integer. -/
def ofInt (n : Int) : Binary F := ofRatio (n < 0) n.natAbs 1

instance (n : Nat) : OfNat (Binary F) n := ⟨ofInt n⟩

/-- The value nearest to a value of another format. A NaN keeps its sign and the leading
    bits of its payload, and becomes quiet. -/
def convert (G : FloatFormat) (x : Binary F) : Binary G :=
  if x.isNaN then
    let payload := x.code % F.hidden * G.hidden / F.hidden
    ofCode x.isNegative (G.infinity + (payload ||| G.hidden / 2))
  else if x.isInfinite then infinity x.isNegative
  else ofUnits x.isNegative (x.units * 2 ^ G.scale) (2 ^ F.scale)

/-! ### Order -/

/-- Position of a value on the number line; both zeros are at zero. -/
def position (x : Binary F) : Int := if x.isNegative then -x.code else x.code

/-- Whether one value is smaller than another; a NaN never is. -/
def lt (x y : Binary F) : Bool := !x.isNaN && !y.isNaN && x.position < y.position

/-- Whether two values are the same number; both zeros are. -/
def sameNumber (x y : Binary F) : Bool := !x.isNaN && !y.isNaN && x.position == y.position

/-- The smaller of two values. A NaN gives way to the other value, and of two zeros the
    second is kept. -/
def min (x y : Binary F) : Binary F :=
  if x.isNaN then y else if y.isNaN then x else if x.lt y then x else y

/-- The larger of two values. A NaN gives way to the other value, and of two zeros the
    second is kept. -/
def max (x y : Binary F) : Binary F :=
  if x.isNaN then y else if y.isNaN then x else if y.lt x then x else y

/-- The value moved into the interval from `lo` to `hi`; a NaN stays. -/
def clamp (lo hi x : Binary F) : Binary F :=
  if x.lt lo then lo else if hi.lt x then hi else x

/-! ### Arithmetic -/

/-- The value with its sign bit flipped. -/
def neg (x : Binary F) : Binary F := ofCode (!x.isNegative) x.code

/-- The value without its sign bit. -/
def abs (x : Binary F) : Binary F := ofCode false x.code

/-- A finite value as a signed number of units. -/
def signedUnits (x : Binary F) : Int := if x.isNegative then -x.units else x.units

/-- Hands on a NaN operand, and otherwise computes the result. -/
def withoutNaN (x y : Binary F) (result : Binary F) : Binary F :=
  if x.isNaN then x.quieted else if y.isNaN then y.quieted else result

/-- Sum of two values that are not NaN. A sum that is exactly zero is negative only when
    both operands are. -/
def addNumbers (x y : Binary F) : Binary F :=
  if x.isInfinite then
    if y.isInfinite && x.isNegative != y.isNegative then invalid else x
  else if y.isInfinite then y
  else
    let sum := x.signedUnits + y.signedUnits
    let negative := if sum = 0 then x.isNegative && y.isNegative else sum < 0
    ofUnits negative sum.natAbs 1

/-- Sum of two values. -/
def add (x y : Binary F) : Binary F := withoutNaN x y (addNumbers x y)

/-- Difference of two values. -/
def sub (x y : Binary F) : Binary F := withoutNaN x y (addNumbers x y.neg)

/-- Product of two values. -/
def mul (x y : Binary F) : Binary F :=
  let negative := x.isNegative != y.isNegative
  withoutNaN x y <|
    if x.isInfinite || y.isInfinite then
      if x.code == 0 || y.code == 0 then invalid else infinity negative
    else ofUnits negative (x.units * y.units) (2 ^ F.scale)

/-- Quotient of two values. A number other than zero divided by zero is infinite. -/
def div (x y : Binary F) : Binary F :=
  let negative := x.isNegative != y.isNegative
  withoutNaN x y <|
    if x.isInfinite then
      if y.isInfinite then invalid else infinity negative
    else if y.isInfinite then ofCode negative 0
    else if y.code == 0 then
      if x.code == 0 then invalid else infinity negative
    else ofUnits negative (x.units * 2 ^ F.scale) y.units

instance : Neg (Binary F) := ⟨neg⟩
instance : Add (Binary F) := ⟨add⟩
instance : Sub (Binary F) := ⟨sub⟩
instance : Mul (Binary F) := ⟨mul⟩
instance : Div (Binary F) := ⟨div⟩

/-! ### Integers -/

/-- The integer nearest to the value, a half away from zero, moved into `lo` to `hi`.
    Infinities reach the end on their side, and a NaN gives zero. -/
def roundClamped (lo hi : Int) (x : Binary F) : Int :=
  if x.isNaN then 0
  else if x.isInfinite then if x.isNegative then lo else hi
  else
    let magnitude : Int := roundHalfUp x.units (2 ^ F.scale)
    Max.max lo (Min.min hi (if x.isNegative then -magnitude else magnitude))

end Binary

end LayerGraph
