import LayerGraph.Lowering.Plan

/-! # Plans of elementwise operators

  Operators that work element by element, and those that only change how elements are
  stored. When two operands have different numbers of dimensions, the one with fewer is
  first reshaped to have ones in front.
-/

namespace LayerGraph

namespace Operation

variable (op : Operation)

/-- An operation on every element. -/
def planUnary (operation : UnaryOperation) (label : String) : Planning Plan :=
  op.single (.elementwiseUnary operation) label

/-- A function of every element. -/
def planActivation (params : ActivationParams) (label : String) : Planning Plan :=
  op.single (.activation params) ("Activation:" ++ label)

/-- Feeds one operand through a reshape when it has fewer than `rank` dimensions. -/
def raiseOperand (rank : Nat) (plan : Plan) (slot tensor : Nat) : Planning Plan := do
  let info ← op.info tensor
  if info.shape.rank = rank then return plan
  let dims ← op.dims tensor
  return plan.reshapeInput slot tensor info (List.replicate (rank - dims.length) 1 ++ dims)

/-- An operation on the elements of two tensors. -/
def planBinary (kind : LayerKind) (label : String) : Planning Plan := do
  op.checkArity (.exactly 2) (.exactly 1)
  let operands ← op.inputs.mapM op.info
  let rank := (operands.map (·.shape.rank)).foldl max 0
  let plan ← op.layer kind (op.layerName label) op.inputs
  op.inputs.zipIdx.foldlM (fun plan (tensor, slot) => op.raiseOperand rank plan slot tensor) plan

/-- A comparison of the elements of two tensors. -/
def planComparison (operation : ComparisonOperation) (label : String) : Planning Plan :=
  op.planBinary (.comparison operation) label

/-- Negative elements multiplied by a second tensor. -/
def planPrelu : Planning Plan := do
  op.checkArity (.exactly 2) (.exactly 1)
  op.layer .prelu (op.layerName "Prelu") op.inputs

/-- Normalization by neighbouring channels. The window has `radius` neighbours on each side
    of its middle. -/
def planResponseNormalization : Planning Plan := do
  let o := op.options
  if o.radius < 0 then op.invalid (op.inputs.headD 0) .negativeRadius
  let params : NormalizationParams :=
    { size := 1 + 2 * o.radius.toUInt32, alpha := o.alpha, beta := o.beta, k := o.bias }
  op.single (.normalization params) "LRN"

end Operation

end LayerGraph
