import LayerGraph.Tensor.Info

/-! # Shapes to reshape to

  A requested shape may leave one size open, as minus one: it becomes whatever keeps the
  number of elements.
-/

namespace LayerGraph

/-- Why elements cannot be brought into a shape. -/
inductive ReshapeFault where
  /-- More than one size is open. -/
  | severalOpen (target : List Int)
  /-- A size below minus one. -/
  | negative (dim : Int)
  /-- The given sizes have a product beyond 64 bits. -/
  | overflow (target : List Int)
  /-- No size in place of the open one keeps the number of elements. -/
  | indivisible (target : List Int) (elements : Nat)
  /-- A size beyond 32 bits. -/
  | tooLarge (dim : Int)
  /-- The number of elements of the shape cannot be computed. -/
  | shape (cause : TensorError)
  /-- The shape has another number of elements. -/
  | count (dims : List UInt32) (elements : Nat)
deriving DecidableEq, Repr

/-- Describes the fault. -/
def ReshapeFault.message : ReshapeFault → String
  | severalOpen target =>
    "at most one dimension of " ++ listText (target.map toString) ++ " may be -1"
  | negative dim => s!"invalid dimension {dim}"
  | overflow target => "element count of " ++ listText (target.map toString) ++ " overflows"
  | indivisible target elements =>
    "cannot stretch " ++ listText (target.map toString) ++ s!" over {elements} elements"
  | tooLarge dim => s!"dimension {dim} is too large"
  | shape cause => cause.message
  | count dims elements =>
    "shape " ++ listText (dims.map (toString ·.toNat)) ++ s!" does not hold {elements} elements"

/-- Product of the given sizes, as long as it fits in 63 bits. -/
def knownProduct? (target : List Int) : Option Int :=
  (target.filter (0 ≤ ·)).foldlM (fun product d =>
    if product * d < 2 ^ 63 then some (product * d) else none) 1

/-- The size in place of an open one. The number of elements is taken as a signed number of
    64 bits. -/
def openSize (elements : Nat) (target : List Int) : Except ReshapeFault Int := do
  let some known := knownProduct? target | throw (.overflow target)
  let signed := (elements : Int).bmod (2 ^ 64)
  if known = 0 ∨ signed.tmod known ≠ 0 then throw (.indivisible target elements)
  return signed.tdiv known

/-- The shape that a request stands for, for so many elements. -/
def reshapeTarget (elements : Nat) (target : List Int) : Except ReshapeFault (List UInt32) := do
  if 1 < target.count (-1) then throw (.severalOpen target)
  if let some d := target.find? (· < -1) then throw (.negative d)
  let sizes ←
    if target.contains (-1) then do
      let size ← openSize elements target
      pure (target.map fun d => if d = -1 then size else d)
    else pure target
  let dims ← sizes.mapM fun d =>
    if 0 ≤ d ∧ d < 2 ^ 32 then .ok (UInt32.ofNat d.toNat) else .error (.tooLarge d)
  let count ← (Shape.ofDims dims).elementCount.mapError .shape
  if count ≠ elements then throw (.count dims elements)
  return dims

end LayerGraph
