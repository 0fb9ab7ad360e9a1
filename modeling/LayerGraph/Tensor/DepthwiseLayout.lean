import LayerGraph.Tensor.Permutation

/-! # Layouts of depthwise weights

  The weights of a depthwise convolution have `H` rows, `W` columns, `I` input channels and
  `M` filters for each of them. Layers keep them as `[M, I, H, W]`; models and old
  containers have them as `[1, H, W, I * M]`.
-/

namespace LayerGraph

namespace Constant

/-- Depthwise weights `[1, H, W, I * M]` as `[M, I, H, W]`, for `I` input channels. -/
def depthwiseToMihw (weights : Constant) (inputChannels : UInt32) :
    Except TensorError Constant := do
  let some dims := weights.info.shape.concrete? | throw .unspecifiedShape
  match dims with
  | [1, h, w, channels] =>
    if inputChannels = 0 ∨ channels % inputChannels ≠ 0 then
      throw (.depthwiseChannels channels inputChannels)
    let split := [h, w, inputChannels, channels / inputChannels]
    let hwim ← weights.withInfo (weights.info.withShape (.ofDims split))
    let move ← Permutation.ofMappings [2, 3, 1, 0]
    move.permuteConstant hwim
  | _ => throw (.depthwiseShape dims)

/-- Depthwise weights `[M, I, H, W]` as `[1, H, W, I * M]`. -/
def depthwiseOfMihw (weights : Constant) : Except TensorError Constant := do
  let move ← Permutation.ofMappings [3, 2, 0, 1]
  let hwim ← move.permuteConstant weights
  let some dims := hwim.info.shape.concrete? | throw .unspecifiedShape
  match dims with
  | [h, w, i, m] => do
    let channels ← (multiplySizes i m).mapError .overflow
    hwim.withInfo (hwim.info.withShape (.ofDims [1, h, w, channels]))
  | _ => throw (.depthwiseShape dims)

end Constant

end LayerGraph
