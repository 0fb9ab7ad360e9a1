import LayerGraph.Numeric.Notation

/-! # Numerals in double precision

  A numeral of a document is read in two steps. Its digits are gathered into a significand
  of 64 bits, with a power of ten; then the significand and the power of ten are rounded to
  double precision, and their product or quotient is rounded again. Each step rounds to the
  nearest value, but together they may miss the value nearest to the number by some units in
  the last place. In return, no text needs more than one word for its digits.

  - `Numeral.leading` gathers the digits.
  - `Numeral.toBinary64?` is the value, if there is a finite one.
-/

namespace LayerGraph

namespace Numeral

/-! ### The significand -/

/-- Puts digits behind those of a number as long as it stays below `2 ^ 64`. Gives the
    number and the digits from the first that does not fit. -/
def gather (n : Nat) : List Char → Nat × List Char
  | [] => (n, [])
  | c :: rest =>
    let longer := 10 * n + digitValue c
    if longer < 2 ^ 64 then gather longer rest else (n, c :: rest)

/-- What is kept of the magnitude of a numeral. A digit before the point that does not fit
    makes the number ten times as large, and so does every such digit after it; the digits
    behind the point fill what room is left, and those that do not fit add nothing. -/
def leading (n : Numeral) : Decimal :=
  let (whole, missing) := gather 0 n.whole
  let (digits, unread) := gather whole n.fraction
  ⟨digits, missing.length - (n.fraction.length - unread.length) + n.exponent.getD 0⟩

end Numeral

namespace Binary

/-! ### Scaling by powers of ten -/

/-- The greatest power of ten in double precision. -/
def greatestTenPower : Nat := 308

/-- A power of ten, rounded. -/
def tenPower (n : Nat) : Binary64 := .ofDecimal false ⟨1, n⟩

/-- A value times a power of ten, if that is finite. A power of ten that is too great for
    the format is so for every value but zero. -/
def scaledUp? (x : Binary64) (power : Nat) : Option Binary64 :=
  if power ≤ greatestTenPower then
    let y := x * tenPower power
    if y.isFinite then some y else none
  else if x.code = 0 then some x
  else none

/-- A value divided by a power of ten. One that is too great for the format is taken in
    steps of the greatest, with a rounding at each. -/
def scaledDown (x : Binary64) (power : Nat) : Binary64 :=
  if power ≤ greatestTenPower then x / tenPower power
  else if x.code = 0 then x
  else scaledDown (x / tenPower greatestTenPower) (power - greatestTenPower)
termination_by power
decreasing_by simp only [greatestTenPower] at *; omega

end Binary

namespace Numeral

/-- The value of a numeral in double precision, unless it is too large to be finite. The
    sign is that of the text, also for a zero. -/
def toBinary64? (n : Numeral) : Option Binary64 := do
  let d := n.leading
  let significand : Binary64 := .ofInt d.digits
  let magnitude ← match d.exponent with
    | .ofNat power => significand.scaledUp? power
    | .negSucc power => some (significand.scaledDown (power + 1))
  return if n.negative then -magnitude else magnitude

end Numeral

end LayerGraph
