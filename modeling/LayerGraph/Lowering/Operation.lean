import LayerGraph.Lowering.Error

/-! # Operators with their tensors

  An operation is an operator of a model whose tensors have been found. The tensors it
  leaves out are gone from its inputs. Everything that the lowering of an operator asks
  of its tensors is asked here, so that each fault names the tensor it belongs to.
-/

namespace LayerGraph

/-- An operator whose tensors exist and have known sizes. -/
structure Operation where
  /-- The model. -/
  model : Model
  /-- Position of the operator. -/
  index : Nat
  /-- The operator. -/
  operator : ModelOperator
  /-- Positions of the tensors it reads. -/
  inputs : List Nat
  /-- Positions of the tensors it writes. -/
  outputs : List Nat

/-- A computation that may refuse an operator. -/
abbrev Planning := Except LoweringError

namespace Operation

/-! ### Finding the tensors -/

/-- The tensor at a position. -/
def resolve (model : Model) (index : Nat) (tensor : Int32) : Planning Nat :=
  if 0 ≤ tensor.toInt ∧ tensor.toInt < model.tensors.length then .ok tensor.toInt.toNat
  else .error (.invalidTensor index tensor.toInt .noSuchTensor)

/-- Whether the tensor at a position has dimensions of sizes that are not known. -/
def isDynamic (model : Model) (tensor : Nat) : Bool :=
  model.tensors[tensor]?.any ModelTensor.isDynamic

/-- The operation at a position of a model. -/
def ofModel (model : Model) (index : Nat) : Planning Operation := do
  let some operator := model.operators[index]? | throw (.unknownOperator index)
  let inputs ← (operator.inputs.filter (· != -1)).mapM (resolve model index)
  let outputs ← operator.outputs.mapM (resolve model index)
  if let some tensor := (inputs ++ outputs).find? (isDynamic model) then
    throw (.dynamicShape index tensor)
  return ⟨model, index, operator, inputs, outputs⟩

variable (op : Operation)

/-- The options of the operator. -/
def options : OperatorOptions := op.operator.options

/-- The tensor in an input role. -/
def input (role : Nat) : Nat := op.inputs.getD role 0

/-- The tensor in an output role. -/
def output (role : Nat) : Nat := op.outputs.getD role 0

/-- Name of the layer that represents the operator. -/
def layerName (label : String) : String := label ++ ":0:" ++ toString op.index

/-! ### Faults -/

/-- Refuses the operator for what is wrong with a tensor. -/
def invalid {α : Type} (tensor : Nat) (fault : TensorFault) : Planning α :=
  .error (.invalidTensor op.index tensor fault)

/-- Refuses the operator although its tensors are in order. -/
def unsupported {α : Type} (reason : Unsupported) : Planning α :=
  .error (.unsupportedOperator op.index op.operator.code.name reason)

/-- Checks the numbers of tensors, first those read and then those written. -/
def checkArity (inputs outputs : Arity) : Planning Unit := do
  if !inputs.allows op.inputs.length then
    throw (.arity op.index op.operator.code.name .input inputs op.inputs.length)
  if !outputs.allows op.outputs.length then
    throw (.arity op.index op.operator.code.name .output outputs op.outputs.length)

/-! ### Descriptors -/

/-- The tensor of the model at a position. -/
def tensor (t : Nat) : ModelTensor := op.model.tensors.getD t ⟨"", [], none, .float32, none, none⟩

/-- Descriptor of a tensor. -/
def info (t : Nat) : Planning TensorInfo :=
  match (op.tensor t).info with
  | .ok info => .ok info
  | .error cause => op.invalid t (.descriptor cause)

/-- Sizes of the dimensions of a tensor. -/
def dims (t : Nat) : Planning (List UInt32) := do
  match (← op.info t).shape.concrete? with
  | some dims => return dims
  | none => op.invalid t .unspecified

/-- The sizes of four dimensions. -/
structure Dims4 where
  /-- Size of the first dimension. -/
  outer : UInt32
  /-- Number of rows. -/
  height : UInt32
  /-- Number of columns. -/
  width : UInt32
  /-- Size of the last dimension. -/
  inner : UInt32

/-- Sizes of the dimensions of a tensor that must have four. -/
def dims4 (t : Nat) : Planning Dims4 := do
  match ← op.dims t with
  | [outer, height, width, inner] => return ⟨outer, height, width, inner⟩
  | dims => op.invalid t (.notRank4 dims)

/-- Number of elements of a tensor. -/
def elementCount (t : Nat) : Planning Nat := do
  match (← op.info t).elementCount with
  | .ok count => return count
  | .error cause => op.invalid t (.tensor cause)

/-! ### Values -/

/-- The constant that a tensor is. -/
def constant (t : Nat) : Planning Constant := do
  let some data := (op.tensor t).payload? | op.invalid t .notConstant
  match Constant.ofBytes (← op.info t) data with
  | .ok constant => return constant
  | .error cause => op.invalid t (.tensor cause)

/-- The constant in an input role that may be left out. -/
def optionalConstant (role : Nat) : Planning (Option Constant) :=
  match op.inputs[role]? with
  | some t => some <$> op.constant t
  | none => return none

/-- The integers that a tensor holds. -/
def ints (t : Nat) : Planning (List Int) := do
  match (← op.constant t).toInts with
  | .ok values => return values
  | .error cause => op.invalid t (.tensor cause)

/-- The one integer that a tensor holds. -/
def scalar (t : Nat) : Planning Int := do
  match ← op.ints t with
  | [value] => return value
  | values => op.invalid t (.notSingle values.length)

/-- Integers as sizes. -/
def sizesOf (t : Nat) (values : List Int) : Planning (List UInt32) :=
  values.mapM fun v =>
    if 0 ≤ v ∧ v < 2 ^ 32 then .ok (UInt32.ofNat v.toNat) else op.invalid t (.notSize v)

/-- The sizes that a tensor holds. -/
def sizes (t : Nat) : Planning (List UInt32) := do op.sizesOf t (← op.ints t)

/-- The integers of 32 bits that a tensor holds. -/
def signed (t : Nat) : Planning (List Int32) := do
  (← op.ints t).mapM fun v =>
    if -2 ^ 31 ≤ v ∧ v < 2 ^ 31 then .ok (Int32.ofInt v) else op.invalid t (.outOfRange v)

/-- Values two by two. -/
def pairUp {α : Type} : List α → List (α × α)
  | a :: b :: rest => (a, b) :: pairUp rest
  | _ => []

/-- The pairs of sizes that a tensor holds. -/
def pairs (t : Nat) : Planning (List (UInt32 × UInt32)) := do
  let values ← op.sizes t
  if values.length % 2 ≠ 0 then op.invalid t .notPairs
  return pairUp values

/-! ### Axes -/

/-- The dimension that an axis names; a negative axis counts from the end. The fault belongs
    to the tensor `t`. -/
def axis (t : Nat) (axis : Int) (rank : Nat) : Planning Nat :=
  if -rank ≤ axis ∧ axis < rank then .ok ((axis + rank) % rank).toNat
  else op.invalid t (.axisOutOfRange axis rank)

/-- Puts an axis among axes in increasing order that are all different. -/
def insertAxis (axis : Nat) : List Nat → List Nat
  | [] => [axis]
  | head :: rest =>
    if axis < head then axis :: head :: rest
    else if axis = head then head :: rest
    else head :: insertAxis axis rest

/-- The dimensions that axes name, in increasing order and each once. -/
def axesOf (t : Nat) (axes : List Int) (rank : Nat) : Planning (List Nat) := do
  let named ← axes.mapM fun a => op.axis t a rank
  return named.foldl (fun sorted a => insertAxis a sorted) []

/-- The dimensions of `input` that the axes in `axes` name. -/
def axes (input axes : Nat) : Planning (List UInt32) := do
  let rank := (← op.dims input).length
  let named ← op.axesOf axes (← op.ints axes) rank
  return named.map UInt32.ofNat

end Operation

end LayerGraph
