import LayerGraph.Lowering.Plan

/-! # Plans of reductions and weighted sums -/

namespace LayerGraph

namespace Operation

variable (op : Operation)

/-- Index of an extreme element along an axis given by a constant. -/
def planArgMinMax (function : ArgMinMaxFunction) (label : String) : Planning Plan := do
  op.checkArity (.exactly 2) (.exactly 1)
  let axis ← op.scalar (op.input 1)
  if axis < -2 ^ 31 ∨ 2 ^ 31 ≤ axis then op.invalid (op.input 1) .axisTooLarge
  let outputType := (← op.info (op.output 0)).elementType
  if outputType ≠ .signed32 ∧ outputType ≠ .signed64 then
    op.invalid (op.output 0) (.indexType outputType)
  let params : ArgMinMaxParams :=
    { function := function, axis := .ofInt axis, outputType := outputType }
  op.layer (.argMinMax params) (op.layerName label) [op.input 0]

/-- Mean along axes given by a constant. -/
def planMean : Planning Plan := do
  op.checkArity (.exactly 2) (.exactly 1)
  let axes ← op.axes (op.input 0) (op.input 1)
  op.layer (.mean { axes := axes, keepDims := op.options.keepDims }) (op.layerName "Mean")
    [op.input 0]

/-- Reduction along axes given by a constant. -/
def planReduce (operation : ReduceOperation) : Planning Plan := do
  op.checkArity (.exactly 2) (.exactly 1)
  let axes ← op.axes (op.input 0) (op.input 1)
  let params : ReduceParams :=
    { keepDims := op.options.keepDims, axes := axes, operation := operation }
  op.layer (.reduce params) (op.layerName "Reduce") [op.input 0]

/-- All inputs weighed for each output. The weights are a matrix with a row for each
    output. Data of more than two dimensions is first reshaped to rows of the size of those
    of the weights. -/
def planFullyConnected : Planning Plan := do
  op.checkArity (.between 2 3) (.exactly 1)
  let weights ← op.constant (op.input 1)
  let some [_, rowSize] := weights.info.shape.concrete? | op.invalid (op.input 1) .weightsRank
  let biases ← op.optionalConstant 2
  let params : FullyConnectedParams :=
    { hasBias := op.inputs.length = 3, transposeWeights := true }
  let plan ← op.layer (.fullyConnected params weights biases) (op.layerName "FullyConnected")
    [op.input 0]
  let info ← op.info (op.input 0)
  if info.shape.rank ≤ 2 then return plan
  let elements ← op.elementCount (op.input 0)
  if rowSize = 0 ∨ elements % rowSize.toNat ≠ 0 then
    op.invalid (op.input 0) (.unevenRows elements rowSize)
  let target := [UInt32.ofNat (elements / rowSize.toNat), rowSize]
  return plan.reshapeInput 0 (op.input 0) info target

end Operation

end LayerGraph
