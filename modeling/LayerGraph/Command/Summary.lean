import LayerGraph.Graph.Order
import LayerGraph.Json.Printer
import LayerGraph.Model.Document

/-! # Summaries of graphs

  A summary is a document that names the bindings of a graph and, for each layer in
  topological order, its name, its kind and the descriptors of its outputs. The members of
  its objects are in alphabetical order.
-/

namespace LayerGraph

/-- The scale of a tensor, written with the digits of double precision; null when it is not
    a real number. -/
def scaleJson (scale : Binary32) : Json :=
  match (scale.convert .binary64).numeral? Binary.binary64Range with
  | some n => .number n
  | none => .null

/-- Summary of a descriptor. -/
def TensorInfo.summary (info : TensorInfo) : Json :=
  Json.ofMembers [
    ("offset", Json.ofInt32 info.offset),
    ("scale", scaleJson info.scale),
    ("shape", Json.ofList (·.elim .null Json.ofUInt32) info.shape.dims),
    ("type", Json.ofString info.elementType.name)]

/-- Summary of a layer. -/
def Layer.summary (l : Layer) : Json :=
  Json.ofMembers [
    ("kind", Json.ofString l.kind.name),
    ("name", Json.ofString l.name),
    ("outputs", Json.ofList (fun slot => slot.info.elim .null TensorInfo.summary) l.outputs)]

/-- Summary of a graph. -/
def Graph.summary (g : Graph) : Json :=
  Json.ofMembers [
    ("inputs", Json.ofList Json.ofInt32 (g.bindings .input)),
    ("layers", Json.ofList (fun (_, l) => l.summary) g.orderedLayers),
    ("outputs", Json.ofList Json.ofInt32 (g.bindings .output))]

end LayerGraph
