import LayerGraph.Graph.Order
import LayerGraph.Quantize.Ranges

/-! # Static ranges

  Ranges that follow from what layers compute. Bounded functions have fixed ranges, a
  constant has that of its values, and a layer that moves elements has that of its input.
  Every other layer has the usual range, whose extent is a setting.
-/

namespace LayerGraph

namespace RangeTable

variable (extent : RangeExtent)

/-- The range of what an input slot reads, as far as it is known. -/
def inputRange (t : RangeTable) (g : Graph) (id : LayerId) (index : Nat) : ValueRange :=
  let known := do
    let p ← g.producer? ⟨id, index⟩
    let l ← g.layers[p.layer]?
    t.range? l.guid p.index
  known.getD (.usual extent)

/-- The range of a function of every element. -/
def activationRange (p : ActivationParams) : ValueRange :=
  let usual := ValueRange.usual extent
  match p.function with
  | .abs | .linear | .reLu | .softReLu => ⟨.zero, usual.max⟩
  | .boundedReLu => ⟨p.b.min p.a, p.a.max p.b⟩
  | .tanH => ⟨.ofInt (-1), 1⟩
  | .sigmoid => ⟨.zero, 1⟩
  | .leakyReLu => ⟨usual.min / .ofInt 3, usual.max⟩
  | _ => usual

/-- The range that contains some ranges. -/
def hull (ranges : List ValueRange) : ValueRange :=
  ranges.foldl (fun h r => ⟨h.min.min r.min, h.max.max r.max⟩) ⟨.greatest, .least⟩

/-- The range of what a layer computes. -/
def layerRange (t : RangeTable) (g : Graph) (id : LayerId) (kind : LayerKind) :
    Except QuantizationError ValueRange :=
  match kind with
  | .activation p => .ok (activationRange extent p)
  | .softmax _ => .ok ⟨.zero, 1⟩
  | .constant tensor =>
    if tensor.elementType.isFloat then
      match tensor.minMax with
      | .ok (min, max) => .ok ⟨min, max⟩
      | .error cause => .error (.tensor cause)
    else .ok (.usual extent)
  | .concat p => .ok (hull ((List.range p.origins.length).map (t.inputRange extent g id)))
  | .batchToSpace _ | .depthToSpace _ | .gather _ | .pad _ | .permute _ | .pooling _
  | .reshape _ | .resize _ | .slice _ | .spaceToBatch _ | .spaceToDepth _ | .splitter _
  | .stridedSlice _ | .transpose _ => .ok (t.inputRange extent g id 0)
  | _ => .ok (.usual extent)

/-- Records the range of a layer for each of its output slots. -/
def recordStatic (g : Graph) (id : LayerId) (l : Layer) : Recording Unit := do
  match (← get).layerRange extent g id l.kind with
  | .error cause => throw cause
  | .ok range => (List.range l.outputs.length).forM fun slot => record l.guid slot range

/-- The ranges of all output slots of a graph. -/
def estimate (g : Graph) : Except QuantizationError RangeTable :=
  let run : Recording Unit := g.orderedLayers.forM fun (id, l) => recordStatic extent g id l
  match run.run { defaultRange := some (.usual extent) } with
  | .ok _ t => .ok t
  | .error cause _ => .error cause

/-- Records estimated ranges for the output slots that have none. -/
def recordEstimated (g : Graph) (estimated : RangeTable) : Recording Unit :=
  g.layers.forM fun l => (List.range l.outputs.length).forM fun slot => do
    if ((← get).recorded? l.guid slot).isNone then
      if let some range := estimated.range? l.guid slot then record l.guid slot range

/-- Named ranges, and estimated ranges for every slot they leave out. -/
def collect (g : Graph) (named : NamedRanges) : Except QuantizationError RangeTable := do
  let estimated ← estimate extent g
  let run : Recording Unit := do
    recordNamed g named
    recordEstimated g estimated
  match run.run { defaultRange := some (.usual extent) } with
  | .ok _ t => return t
  | .error cause _ => throw cause

end RangeTable

end LayerGraph
