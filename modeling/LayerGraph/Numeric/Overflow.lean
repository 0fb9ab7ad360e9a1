import LayerGraph.Instances

/-! # Numbers that do not fit

  Integers have a fixed number of bits. A sum, a difference or a product that needs more stops the
  program there, and nothing is answered. Values saturate, and sizes are checked, only where this
  is said.
-/

namespace LayerGraph

/-- The operation whose result does not fit. -/
inductive Overflow where
  /-- A sum. -/
  | add
  /-- A difference. -/
  | subtract
  /-- A product. -/
  | multiply
deriving DecidableEq, Repr

namespace Overflow

/-- What is said when the program stops. -/
def message : Overflow → String
  | add => "attempt to add with overflow"
  | subtract => "attempt to subtract with overflow"
  | multiply => "attempt to multiply with overflow"

end Overflow

/-! ### Signed integers -/

/-- The sum of two integers of 64 bits. -/
def addInt64 (a b : Int) : Except Overflow Int :=
  if -2 ^ 63 ≤ a + b ∧ a + b < 2 ^ 63 then .ok (a + b) else .error .add

/-- The sum of integers of 64 bits, from the first one on. -/
def sumInt64 (values : List Int) : Except Overflow Int := values.foldlM addInt64 0

/-- The difference of two integers of 32 bits. -/
def subtractInt32 (a b : Int) : Except Overflow Int :=
  if -2 ^ 31 ≤ a - b ∧ a - b < 2 ^ 31 then .ok (a - b) else .error .subtract

/-! ### Sizes -/

/-- The sum of two sizes of dimensions. -/
def addSizes (a b : UInt32) : Except Overflow UInt32 :=
  if a.toNat + b.toNat < 2 ^ 32 then .ok (a + b) else .error .add

/-- The product of two sizes of dimensions. -/
def multiplySizes (a b : UInt32) : Except Overflow UInt32 :=
  if a.toNat * b.toNat < 2 ^ 32 then .ok (a * b) else .error .multiply

/-- The product of two numbers of elements. -/
def multiplyCounts (a b : Nat) : Except Overflow Nat :=
  if a * b < 2 ^ 64 then .ok (a * b) else .error .multiply

end LayerGraph
