import LayerGraph.Numeric.Decimal

/-! # Number text

  A numeral is the text of a number taken apart at its point and exponent mark. The module
  writes floating point values as numerals, in the two notations in use:

  **Plain notation** is that of messages. It has no exponent however large or small the
  number, no point when there is nothing behind it, and names for infinities and NaN.

  **Document notation** is that of documents. It has a point or an exponent, never none of
  the two, and no numeral for what is not a real number.
-/

namespace LayerGraph

/-- The parts of the text of a number. -/
structure Numeral where
  /-- Whether a minus sign comes first. -/
  negative : Bool
  /-- The digits before the point. -/
  whole : List Char
  /-- The digits behind the point; without any there is no point. -/
  fraction : List Char
  /-- The power of ten behind the exponent mark. -/
  exponent : Option Int
deriving DecidableEq, Repr

namespace Numeral

/-- Value of a digit. -/
def digitValue (c : Char) : Nat := c.toNat - '0'.toNat

/-- The whole number that digits denote. -/
def ofDigits (digits : List Char) : Nat :=
  digits.foldl (fun n c => 10 * n + digitValue c) 0

/-- Digits of a whole number. -/
def digits (n : Nat) : List Char := Nat.toDigits 10 n

/-- The numeral of an integer. -/
def ofInt (n : Int) : Numeral := ⟨n < 0, digits n.natAbs, [], none⟩

/-- Whether the text has neither a point nor an exponent. -/
def isInteger (n : Numeral) : Bool := n.fraction.isEmpty && n.exponent.isNone

/-- The text of a numeral. The exponent always has its sign. -/
def toList (n : Numeral) : List Char :=
  let sign := if n.negative then ['-'] else []
  let fraction := if n.fraction.isEmpty then [] else '.' :: n.fraction
  let exponent := match n.exponent with
    | none => []
    | some power => 'e' :: (if power < 0 then '-' else '+') :: digits power.natAbs
  sign ++ n.whole ++ fraction ++ exponent

end Numeral

namespace Decimal

/-- A decimal without an exponent; a whole number gets `places` zeros behind the point. -/
def positional (negative : Bool) (places : Nat) (d : Decimal) : Numeral :=
  let digits := Numeral.digits d.digits
  if 0 ≤ d.exponent then
    let zeros := if d.digits = 0 then 0 else d.exponent.toNat
    ⟨negative, digits ++ List.replicate zeros '0', List.replicate places '0', none⟩
  else
    let behind := (-d.exponent).toNat
    let padded := List.replicate (behind + 1 - digits.length) '0' ++ digits
    ⟨negative, padded.take (padded.length - behind), padded.drop (padded.length - behind), none⟩

/-- A decimal with one digit before the point, and an exponent. -/
def scientific (negative : Bool) (d : Decimal) : Numeral :=
  let digits := Numeral.digits d.digits
  ⟨negative, digits.take 1, digits.drop 1, some d.magnitude⟩

end Decimal

namespace Binary

variable {F : FloatFormat}

/-- A value as messages write it; between two shortest decimals equally near the larger
    one is written. -/
def plainText (x : Binary F) : String :=
  if x.isNaN then "NaN"
  else if x.isInfinite then if x.isNegative then "-inf" else "inf"
  else String.ofList ((x.shortest .up).positional x.isNegative 0).toList

/-- The powers of ten written without an exponent in documents. -/
structure PositionalRange where
  /-- Least power of ten of the leading digit. -/
  lowest : Int
  /-- Greatest power of ten of the leading digit. -/
  highest : Int
deriving Repr

/-- Single precision numbers are positional from a millionth to below `10 ^ 13`. -/
def binary32Range : PositionalRange := ⟨-6, 12⟩

/-- Double precision numbers are positional from `10 ^ -5` to below `10 ^ 16`. -/
def binary64Range : PositionalRange := ⟨-5, 15⟩

/-- A value as documents write it, or nothing when it is not a real number; between two
    shortest decimals equally near the even one is written. -/
def numeral? (range : PositionalRange) (x : Binary F) : Option Numeral :=
  if x.isFinite then
    let d := x.shortest .even
    if range.lowest ≤ d.magnitude ∧ d.magnitude ≤ range.highest then
      some (d.positional x.isNegative 1)
    else some (d.scientific x.isNegative)
  else none

end Binary

end LayerGraph
