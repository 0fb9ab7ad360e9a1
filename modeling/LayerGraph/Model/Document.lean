import LayerGraph.Json.Printer
import LayerGraph.Json.Reader
import LayerGraph.Json.Record
import LayerGraph.Model.Basic

/-! # Models as documents

  `Model.parse?` reads a model from JSON text and `Model.text` writes it. Options that a
  document leaves out have their default values, and so do zero points and axes; everything
  else must be there. A tensor is written without the parts it does not have.
-/

namespace LayerGraph

open Json (Record)

/-! ### Reading -/

/-- Reads an operator code. The object form has only known names. -/
def OperatorCode.ofJson? : Json → Option OperatorCode
  | .string text => text.map OperatorCode.ofName
  | json => json.choiceText?.bind OperatorCode.ofKnown?

namespace OperatorOptions

/-- The fields of the options in documents. -/
def fields : List String :=
  ["padding", "stride_w", "stride_h", "dilation_w_factor", "dilation_h_factor", "filter_width",
   "filter_height", "fused_activation_function", "axis", "keep_dims", "alpha", "beta", "radius",
   "bias", "block_size", "new_shape", "squeeze_dims", "num_splits", "begin_mask", "end_mask",
   "ellipsis_mask", "new_axis_mask", "shrink_axis_mask", "align_corners", "half_pixel_centers",
   "mode"]

/-- Reads options. -/
def ofJson? (json : Json) : Option OperatorOptions := do
  let r ← json.record? fields
  let d : OperatorOptions := {}
  return {
    padding := ← r.withDefault "padding" d.padding Json.choice?
    strideW := ← r.withDefault "stride_w" d.strideW Json.uint32?
    strideH := ← r.withDefault "stride_h" d.strideH Json.uint32?
    dilationW := ← r.withDefault "dilation_w_factor" d.dilationW Json.uint32?
    dilationH := ← r.withDefault "dilation_h_factor" d.dilationH Json.uint32?
    filterWidth := ← r.withDefault "filter_width" d.filterWidth Json.uint32?
    filterHeight := ← r.withDefault "filter_height" d.filterHeight Json.uint32?
    fusedActivation :=
      ← r.withDefault "fused_activation_function" d.fusedActivation Json.choice?
    axis := ← r.withDefault "axis" d.axis Json.int32?
    keepDims := ← r.withDefault "keep_dims" d.keepDims Json.bool?
    alpha := ← r.withDefault "alpha" d.alpha Json.binary32?
    beta := ← r.withDefault "beta" d.beta Json.binary32?
    radius := ← r.withDefault "radius" d.radius Json.int32?
    bias := ← r.withDefault "bias" d.bias Json.binary32?
    blockSize := ← r.withDefault "block_size" d.blockSize Json.uint32?
    newShape := ← r.withDefault "new_shape" d.newShape (Json.nullable? (Json.list? Json.int32?))
    squeezeDims := ← r.withDefault "squeeze_dims" d.squeezeDims (Json.list? Json.int32?)
    splitCount := ← r.withDefault "num_splits" d.splitCount Json.uint32?
    startMask := ← r.withDefault "begin_mask" d.startMask Json.int32?
    stopMask := ← r.withDefault "end_mask" d.stopMask Json.int32?
    ellipsisMask := ← r.withDefault "ellipsis_mask" d.ellipsisMask Json.int32?
    newAxisMask := ← r.withDefault "new_axis_mask" d.newAxisMask Json.int32?
    shrinkMask := ← r.withDefault "shrink_axis_mask" d.shrinkMask Json.int32?
    alignCorners := ← r.withDefault "align_corners" d.alignCorners Json.bool?
    halfPixelCenters := ← r.withDefault "half_pixel_centers" d.halfPixelCenters Json.bool?
    mirrorMode := ← r.withDefault "mode" d.mirrorMode Json.choice? }

end OperatorOptions

/-- Reads an operator. -/
def ModelOperator.ofJson? (json : Json) : Option ModelOperator := do
  let r ← json.record? ["op", "inputs", "outputs", "options"]
  return {
    code := ← r.required "op" OperatorCode.ofJson?
    inputs := ← r.required "inputs" (Json.list? Json.int32?)
    outputs := ← r.required "outputs" (Json.list? Json.int32?)
    options := ← r.withDefault "options" {} OperatorOptions.ofJson? }

/-- Reads the quantization of a tensor. -/
def ModelQuantization.ofJson? (json : Json) : Option ModelQuantization := do
  let r ← json.record? ["scale", "zero_point", "quantized_dimension"]
  return {
    scales := ← r.required "scale" (Json.list? Json.binary32?)
    zeroPoints := ← r.withDefault "zero_point" [] (Json.list? Json.int64?)
    axis := ← r.withDefault "quantized_dimension" 0 Json.uint32? }

/-- Reads a tensor. -/
def ModelTensor.ofJson? (json : Json) : Option ModelTensor := do
  let r ← json.record? ["name", "shape", "shape_signature", "type", "data", "quantization"]
  return {
    name := ← r.required "name" Json.text?
    shape := ← r.required "shape" (Json.list? Json.int32?)
    signature := ← r.withDefault "shape_signature" none (Json.nullable? (Json.list? Json.int32?))
    storage := ← r.required "type" Json.choice?
    data := ← r.withDefault "data" none (Json.nullable? (Json.list? Json.uint8?))
    quantization :=
      ← r.withDefault "quantization" none (Json.nullable? ModelQuantization.ofJson?) }

/-- Reads a model. -/
def Model.ofJson? (json : Json) : Option Model := do
  let r ← json.record? ["tensors", "operators", "inputs", "outputs"]
  return {
    tensors := ← r.required "tensors" (Json.list? ModelTensor.ofJson?)
    operators := ← r.required "operators" (Json.list? ModelOperator.ofJson?)
    inputs := ← r.required "inputs" (Json.list? Json.int32?)
    outputs := ← r.required "outputs" (Json.list? Json.int32?) }

/-- Reads a model from the text of a document. -/
def Model.parse? (text : String) : Option Model := (Json.parse? text).bind Model.ofJson?

/-! ### Writing -/

/-- Writes options, every one of them. -/
def OperatorOptions.toJson (o : OperatorOptions) : Json :=
  Json.ofMembers [
    ("padding", Json.ofChoice o.padding),
    ("stride_w", Json.ofUInt32 o.strideW),
    ("stride_h", Json.ofUInt32 o.strideH),
    ("dilation_w_factor", Json.ofUInt32 o.dilationW),
    ("dilation_h_factor", Json.ofUInt32 o.dilationH),
    ("filter_width", Json.ofUInt32 o.filterWidth),
    ("filter_height", Json.ofUInt32 o.filterHeight),
    ("fused_activation_function", Json.ofChoice o.fusedActivation),
    ("axis", Json.ofInt32 o.axis),
    ("keep_dims", .bool o.keepDims),
    ("alpha", Json.ofBinary32 o.alpha),
    ("beta", Json.ofBinary32 o.beta),
    ("radius", Json.ofInt32 o.radius),
    ("bias", Json.ofBinary32 o.bias),
    ("block_size", Json.ofUInt32 o.blockSize),
    ("new_shape", o.newShape.elim .null (Json.ofList Json.ofInt32)),
    ("squeeze_dims", Json.ofList Json.ofInt32 o.squeezeDims),
    ("num_splits", Json.ofUInt32 o.splitCount),
    ("begin_mask", Json.ofInt32 o.startMask),
    ("end_mask", Json.ofInt32 o.stopMask),
    ("ellipsis_mask", Json.ofInt32 o.ellipsisMask),
    ("new_axis_mask", Json.ofInt32 o.newAxisMask),
    ("shrink_axis_mask", Json.ofInt32 o.shrinkMask),
    ("align_corners", .bool o.alignCorners),
    ("half_pixel_centers", .bool o.halfPixelCenters),
    ("mode", Json.ofChoice o.mirrorMode)]

/-- Writes an operator. -/
def ModelOperator.toJson (op : ModelOperator) : Json :=
  Json.ofMembers [
    ("op", Json.ofString op.code.name),
    ("inputs", Json.ofList Json.ofInt32 op.inputs),
    ("outputs", Json.ofList Json.ofInt32 op.outputs),
    ("options", op.options.toJson)]

/-- Writes the quantization of a tensor. -/
def ModelQuantization.toJson (q : ModelQuantization) : Json :=
  Json.ofMembers [
    ("scale", Json.ofList Json.ofBinary32 q.scales),
    ("zero_point", Json.ofList (fun n : Int64 => Json.ofInt n.toInt) q.zeroPoints),
    ("quantized_dimension", Json.ofUInt32 q.axis)]

/-- Writes a tensor. -/
def ModelTensor.toJson (t : ModelTensor) : Json :=
  Json.ofMembers (
    [("name", Json.ofString t.name), ("shape", Json.ofList Json.ofInt32 t.shape)]
    ++ Json.optionalMember "shape_signature" (Json.ofList Json.ofInt32) t.signature
    ++ [("type", Json.ofChoice t.storage)]
    ++ Json.optionalMember "data" (Json.ofList fun b : UInt8 => Json.ofInt b.toNat) t.data
    ++ Json.optionalMember "quantization" ModelQuantization.toJson t.quantization)

/-- Writes a model. -/
def Model.toJson (m : Model) : Json :=
  Json.ofMembers [
    ("tensors", Json.ofList ModelTensor.toJson m.tensors),
    ("operators", Json.ofList ModelOperator.toJson m.operators),
    ("inputs", Json.ofList Json.ofInt32 m.inputs),
    ("outputs", Json.ofList Json.ofInt32 m.outputs)]

/-- The text of the document of a model. -/
def Model.text (m : Model) : String := m.toJson.pretty

end LayerGraph
