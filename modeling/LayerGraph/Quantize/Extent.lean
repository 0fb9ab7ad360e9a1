import LayerGraph.Json.Reader
import LayerGraph.Quantize.Scheme

/-! # The extent of the usual range

  Tensors nothing is known about have a range that goes equally far to both sides of zero. How far
  is a setting, given as the text of a number.
-/

namespace LayerGraph

/-- How far the values of tensors nothing is known about go to both sides of zero. -/
structure RangeExtent where
  /-- The distance. -/
  value : Binary32
  /-- It is a finite number above zero. -/
  isPositive : value.isPositive = true
deriving DecidableEq

namespace RangeExtent

/-- The extent where no other is set. -/
def standard : RangeExtent := ⟨15, by decide +kernel⟩

/-- The number that the text of a setting spells. There may be a sign of either kind, and no digits
    on one side of the point. -/
def number? (text : List Char) : Option Binary32 := do
  let (negative, text) := match text with
    | '-' :: rest => (true, rest)
    | '+' :: rest => (false, rest)
    | text => (false, text)
  let (whole, rest) := text.span Char.isDigit
  let (fraction, rest) := match rest with
    | '.' :: rest => rest.span Char.isDigit
    | rest => ([], rest)
  if whole.isEmpty && fraction.isEmpty then none
  let (exponent, rest) ← Json.exponentPart rest
  if !rest.isEmpty then none
  let digits := Numeral.ofDigits (whole ++ fraction)
  return .ofDecimal negative ⟨digits, exponent.getD 0 - fraction.length⟩

/-- The extent of a setting, if there is one and it spells a finite number above zero. -/
def ofSetting (setting : Option String) : RangeExtent :=
  match setting.bind fun text => number? text.toList with
  | some value => if h : value.isPositive = true then ⟨value, h⟩ else standard
  | none => standard

end RangeExtent

end LayerGraph
