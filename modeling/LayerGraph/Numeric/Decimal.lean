import LayerGraph.Numeric.Binary

/-! # Decimal numbers

  A decimal is a whole number of digits with a power of ten. It is what number text
  denotes, and what the shortest notation of a floating point value is built from.

  - `Binary.ofDecimal` reads a decimal, rounding once.
  - `Binary.shortest` gives the decimal with the fewest digits that reads back.
-/

namespace LayerGraph

/-- The number `digits * 10 ^ exponent`. -/
structure Decimal where
  /-- The digits, read as a whole number. -/
  digits : Nat
  /-- The power of ten they are counted in. -/
  exponent : Int
deriving DecidableEq, Repr

namespace Decimal

/-- Number of decimal digits of a whole number; zero has one. -/
def length (n : Nat) : Nat := if n < 10 then 1 else length (n / 10) + 1

/-- Numerator of a decimal as a fraction. -/
def num (d : Decimal) : Nat := d.digits * 10 ^ d.exponent.toNat

/-- Denominator of a decimal as a fraction. -/
def den (d : Decimal) : Nat := 10 ^ (-d.exponent).toNat

/-- The same number with no digit zero at its end; zero keeps its one digit. -/
def trimmed (d : Decimal) : Decimal :=
  if h : d.digits ≠ 0 ∧ d.digits % 10 = 0 then
    trimmed ⟨d.digits / 10, d.exponent + 1⟩
  else d
termination_by d.digits
decreasing_by omega

/-- Power of ten of the leading digit. -/
def magnitude (d : Decimal) : Int := d.exponent + length d.digits - 1

end Decimal

namespace Binary

variable {F : FloatFormat}

/-! ### Reading decimals -/

/-- The value nearest to a decimal, with the given sign. A number of at least `10 ^ 400`
    is beyond every format and one below `10 ^ -1200` is below half a unit of every format,
    so neither needs its power of ten. -/
def ofDecimal (negative : Bool) (d : Decimal) : Binary F :=
  if d.digits = 0 then ofCode negative 0
  else if 400 < d.magnitude then infinity negative
  else if d.magnitude < -1200 then ofCode negative 0
  else ofRatio negative d.num d.den

/-! ### Shortest decimals -/

/-- Which of two decimals is taken when a value lies halfway between them. -/
inductive DecimalTie where
  /-- The larger one. -/
  | up
  /-- The one whose last digit is even. -/
  | even
deriving DecidableEq, Repr

/-- The magnitudes that round to the magnitude of one value, as fractions over the same
    denominator. The ends belong to the interval exactly when the value's code is even. -/
structure RoundingInterval where
  /-- Lower end. -/
  lower : Nat
  /-- The value itself. -/
  value : Nat
  /-- Upper end. -/
  upper : Nat
  /-- Denominator of the three. -/
  den : Nat
  /-- Whether the ends round to the value. -/
  closed : Bool
deriving Repr

/-- The interval of a finite value, in quarters of a unit. The gap below the least
    significand is half the gap above it, except at the bottom of the range. -/
def roundingInterval (x : Binary F) : RoundingInterval :=
  let gap := 2 ^ F.exponent x.code
  let narrow := x.code % F.hidden = 0 ∧ F.hidden < x.code
  { lower := 4 * x.units - if narrow then gap else 2 * gap
    value := 4 * x.units
    upper := 4 * x.units + 2 * gap
    den := 4 * 2 ^ F.scale
    closed := x.code % 2 = 0 }

namespace RoundingInterval

/-- Whether a decimal lies in the interval. -/
def contains (i : RoundingInterval) (d : Decimal) : Bool :=
  let lower := i.lower * d.den
  let point := d.num * i.den
  let upper := i.upper * d.den
  (lower < point && point < upper) || (i.closed && (point == lower || point == upper))

/-- Power of ten of the leading digit of the value. -/
def magnitude (i : RoundingInterval) : Int :=
  if i.den ≤ i.value then Decimal.length (i.value / i.den) - 1
  else -(Decimal.length ((i.den - 1) / i.value) : Int)

/-- The decimal of at most `count` digits that lies in the interval and is nearest to the
    value: one of the two neighbours of the value on the grid of that many digits. -/
def onGrid (i : RoundingInterval) (tie : DecimalTie) (count : Nat) : Option Decimal :=
  let exponent := i.magnitude - count + 1
  let num := i.value * 10 ^ (-exponent).toNat
  let den := i.den * 10 ^ exponent.toNat
  let below : Decimal := ⟨num / den, exponent⟩
  let above : Decimal := ⟨num / den + 1, exponent⟩
  match i.contains below, i.contains above with
  | false, false => none
  | true, false => some below
  | false, true => some above
  | true, true =>
    let twice := 2 * (num % den)
    if twice < den then some below
    else if den < twice then some above
    else match tie with
      | .up => some above
      | .even => if below.digits % 2 = 0 then some below else some above

end RoundingInterval

/-- The decimal with the fewest digits that rounds to the magnitude of a finite value, and
    of those the nearest to it. Seventeen digits always suffice in the formats here. -/
def shortest (tie : DecimalTie) (x : Binary F) : Decimal :=
  if x.code = 0 then ⟨0, 0⟩
  else
    let interval := x.roundingInterval
    let found := (List.range 17).findSome? fun n => interval.onGrid tie (n + 1)
    (found.getD ⟨0, 0⟩).trimmed

end Binary

end LayerGraph
