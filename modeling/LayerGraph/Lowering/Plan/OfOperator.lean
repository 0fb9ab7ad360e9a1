import LayerGraph.Lowering.Plan.Elementwise
import LayerGraph.Lowering.Plan.Images
import LayerGraph.Lowering.Plan.Reductions
import LayerGraph.Lowering.Plan.Shapes

/-! # Plans of operators

  Each operator code has its plan. An operator without a meaning of its own is planned as a
  layer that stands in for it, when that is asked for.
-/

namespace LayerGraph

namespace Operation

variable (op : Operation)

/-- A layer in place of an operation that has no kind. -/
def planStandIn (name : String) : Planning Plan :=
  let params : StandInParams :=
    { inputs := .ofNat op.inputs.length, outputs := .ofNat op.outputs.length }
  op.layer (.standIn params) ("StandIn:0:" ++ toString op.index ++ ":" ++ name) op.inputs

/-- The layers that represent the operator. -/
def plan (standIn : Bool) : Planning Plan :=
  let o := op.options
  match op.operator.code with
  | .abs => op.planUnary .abs "Abs"
  | .exp => op.planUnary .exp "Exp"
  | .neg => op.planUnary .neg "Neg"
  | .rsqrt => op.planUnary .rsqrt "Rsqrt"
  | .logicalNot => op.planUnary .logicalNot "LogicalNot"
  | .add => op.planBinary .addition "Add" >>= op.fuse
  | .sub => op.planBinary .subtraction "Sub" >>= op.fuse
  | .mul => op.planBinary .multiplication "Mul" >>= op.fuse
  | .div => op.planBinary .division "Div" >>= op.fuse
  | .maximum => op.planBinary .maximum "Maximum"
  | .minimum => op.planBinary .minimum "Minimum"
  | .equal => op.planComparison .equal "Equal"
  | .notEqual => op.planComparison .notEqual "NotEqual"
  | .greater => op.planComparison .greater "Greater"
  | .greaterEqual => op.planComparison .greaterOrEqual "GreaterOrEqual"
  | .less => op.planComparison .less "Less"
  | .lessEqual => op.planComparison .lessOrEqual "LessOrEqual"
  | .argMax => op.planArgMinMax .max "ArgMax"
  | .argMin => op.planArgMinMax .min "ArgMin"
  | .averagePool2d => op.planPooling .average "AveragePool2D" >>= op.fuse
  | .maxPool2d => op.planPooling .max "MaxPool2D" >>= op.fuse
  | .conv2d => op.planConvolution >>= op.fuse
  | .depthwiseConv2d => op.planDepthwiseConvolution >>= op.fuse
  | .transposeConv => op.planTransposeConvolution
  | .fullyConnected => op.planFullyConnected >>= op.fuse
  | .concatenation => op.planConcatenation >>= op.fuse
  | .l2Normalization => op.single (.l2Normalization {}) "L2Normalization" >>= op.fuse
  | .elu => op.planActivation { function := .elu, a := 1 } "ELU"
  | .hardSwish => op.planActivation { function := .hardSwish } "HARDSWISH"
  | .leakyRelu => op.planActivation { function := .leakyReLu, a := o.alpha } "LEAKYRELU"
  | .logistic => op.planActivation { function := .sigmoid } "SIGMOID"
  | .relu => op.planActivation { function := .reLu } "RELU"
  | .relu6 => op.planActivation { function := .boundedReLu, a := 6 } "RELU6"
  | .tanh => op.planActivation { function := .tanH, a := 1, b := 1 } "TANH"
  | .softmax => op.single (.softmax { beta := o.beta }) "Softmax"
  | .logSoftmax => op.single (.logSoftmax {}) "LogSoftmax"
  | .cast => op.single .cast "Cast"
  | .dequantize => op.single .dequantize "Dequantize"
  | .quantize => op.single .quantize "Quantize"
  | .depthToSpace => op.planBlockDepth .depthToSpace "DepthToSpace"
  | .spaceToDepth => op.planBlockDepth .spaceToDepth "SpaceToDepth"
  | .batchToSpaceNd => op.planBlockBatch .batchToSpace "BatchToSpaceND"
  | .spaceToBatchNd => op.planBlockBatch .spaceToBatch "SpaceToBatchND"
  | .localResponseNormalization => op.planResponseNormalization
  | .mean => op.planMean
  | .reduceMax => op.planReduce .max
  | .reduceMin => op.planReduce .min
  | .reduceProd => op.planReduce .prod
  | .sum => op.planReduce .sum
  | .pad => op.planPad "Pad" .constant false
  | .padV2 => op.planPad "PadV2" .constant true
  | .mirrorPad =>
    match o.mirrorMode with
    | .reflect => op.planPad "MirrorPad" .reflect false
    | .symmetric => op.planPad "MirrorPad" .symmetric false
  | .pack => op.planPack
  | .gather => op.planGather
  | .prelu => op.planPrelu
  | .reshape => op.planReshape
  | .expandDims => op.planExpandDims
  | .squeeze => op.planSqueeze
  | .resizeBilinear => op.planResize .bilinear "BILINEAR"
  | .resizeNearestNeighbor => op.planResize .nearestNeighbor "NEARESTNEIGHBOR"
  | .slice => op.planSlice
  | .stridedSlice => op.planStridedSlice
  | .split => op.planSplit
  | .splitV => op.planSplitV
  | .transpose => op.planTranspose
  | .other name => if standIn then op.planStandIn name else op.unsupported .noLowering

end Operation

/-- The plan of the operator at a position of a model. -/
def Plan.ofOperator (model : Model) (index : Nat) (standIn : Bool) : Planning Plan := do
  (← Operation.ofModel model index).plan standIn

end LayerGraph
