import LayerGraph.Instances

/-! # Binary floating point formats

  A format is a sign bit, a field of exponent bits and a field of fraction bits. A bit
  pattern without its sign is a *code*; codes are ordered as the magnitudes they stand for.

  Every finite magnitude of a format is a whole number of its smallest positive
  magnitude, the *unit* `2 ^ -F.scale`. The key idea is to compute with these whole
  numbers:

  - `units` reads a code as a number of units.
  - `nearest` finds the code closest to a fraction of units, and a half goes to the even
    code.
-/

namespace LayerGraph

/-! ### Formats -/

/-- The widths of the exponent and fraction fields of a floating point format. -/
structure FloatFormat where
  /-- Number of bits of the exponent field. -/
  exponentBits : Nat
  /-- Number of stored bits of the significand. -/
  fractionBits : Nat
deriving DecidableEq, Repr

namespace FloatFormat

/-- The format of half precision. -/
def binary16 : FloatFormat := ⟨5, 10⟩

/-- Single precision cut to sixteen bits. -/
def bfloat16 : FloatFormat := ⟨8, 7⟩

/-- The format of single precision. -/
def binary32 : FloatFormat := ⟨8, 23⟩

/-- The format of double precision. -/
def binary64 : FloatFormat := ⟨11, 52⟩

variable (F : FloatFormat)

/-- Number of bits of a pattern. -/
@[reducible] def width : Nat := 1 + F.exponentBits + F.fractionBits

/-- Weight of the sign bit, which is also the number of codes. -/
def signWeight : Nat := 2 ^ (F.exponentBits + F.fractionBits)

/-- Weight of the implicit leading bit of a normal significand. -/
def hidden : Nat := 2 ^ F.fractionBits

/-- Code of infinity; the codes above it are NaNs. -/
def infinity : Nat := (2 ^ F.exponentBits - 1) * F.hidden

/-- Code of the NaN that is quiet and carries no other payload. -/
def quietNaN : Nat := F.infinity + F.hidden / 2

/-- The unit of the format is `2 ^ -scale`. -/
def scale : Nat := 2 ^ (F.exponentBits - 1) + F.fractionBits - 2

/-! ### Reading codes -/

/-- Significand of a finite code, with the implicit bit of normal numbers. -/
def significand (code : Nat) : Nat :=
  if code < F.hidden then code else F.hidden + code % F.hidden

/-- Binary exponent of a finite code, counted from that of the subnormal numbers. -/
def exponent (code : Nat) : Nat := code / F.hidden - 1

/-- Number of units a finite code stands for. -/
def units (code : Nat) : Nat := F.significand code * 2 ^ F.exponent code

/-! ### Rounding to codes -/

end FloatFormat

/-- The whole number nearest to `num / den`; a half goes to the even neighbour. -/
def roundHalfEven (num den : Nat) : Nat :=
  let quotient := num / den
  let twice := 2 * (num % den)
  if twice < den then quotient
  else if den < twice then quotient + 1
  else quotient + quotient % 2

/-- The whole number nearest to `num / den`; a half goes up. -/
def roundHalfUp (num den : Nat) : Nat := (2 * num + den) / (2 * den)

namespace FloatFormat

variable (F : FloatFormat)

/-- The code nearest to `num / den` units; a half goes to the even code, and what is too
    large for a finite code becomes infinity.

    The fraction is rounded at the exponent that leaves `fractionBits + 1` digits before
    the point. Adding the significand to the exponent field makes the implicit bit, or a
    carry out of the rounding, raise the exponent. -/
def nearest (num den : Nat) : Nat :=
  let shift := (num / den).log2 - F.fractionBits
  min F.infinity (shift * F.hidden + roundHalfEven num (den * 2 ^ shift))

end FloatFormat

end LayerGraph
