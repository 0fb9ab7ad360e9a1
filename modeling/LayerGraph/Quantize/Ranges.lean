import LayerGraph.Graph.Basic
import LayerGraph.Json.Reader
import LayerGraph.Json.Record
import LayerGraph.Quantize.Extent

/-! # Ranges of values

  A table of the least and the greatest value that flow out of output slots. A range is
  recorded once and never changed. Slots without a range have the default range, if the
  table has one.
-/

namespace LayerGraph

/-- The least and the greatest of some values. -/
structure ValueRange where
  /-- The least value. -/
  min : Binary32
  /-- The greatest value. -/
  max : Binary32
deriving DecidableEq, Repr

/-- The range of tensors nothing is known about. -/
def ValueRange.usual (extent : RangeExtent) : ValueRange := ⟨-extent.value, extent.value⟩

/-- Ranges by layer and output slot. -/
structure RangeTable where
  /-- The recorded ranges. -/
  ranges : List ((LayerGuid × Nat) × ValueRange) := []
  /-- The range of all other slots. -/
  defaultRange : Option ValueRange := none
deriving DecidableEq, Repr

/-- A computation that records ranges. What was recorded before a failure stays. -/
abbrev Recording := EStateM QuantizationError RangeTable

namespace RangeTable

/-- The recorded range of a slot. -/
def recorded? (t : RangeTable) (layer : LayerGuid) (slot : Nat) : Option ValueRange :=
  t.ranges.lookup (layer, slot)

/-- The range of a slot. -/
def range? (t : RangeTable) (layer : LayerGuid) (slot : Nat) : Option ValueRange :=
  (t.recorded? layer slot).or t.defaultRange

/-- Records the range of a slot, which must have none. -/
def record (layer : LayerGuid) (slot : Nat) (range : ValueRange) : Recording Unit := do
  if !Scheme.isRange range.min range.max then throw (.invalidRange range.min range.max)
  if ((← get).recorded? layer slot).isSome then throw (.rangeAlreadyRecorded layer slot)
  modify fun t => { t with ranges := ((layer, slot), range) :: t.ranges }

end RangeTable

/-! ### Ranges by name -/

/-- Ranges of the output slots of layers, by the names of the layers. No name is repeated,
    and the names are in increasing order. -/
abbrev NamedRanges := List (String × List ValueRange)

namespace NamedRanges

/-- Puts the ranges of a name among those of other names, in place of ranges that the name
    already has. -/
def insert (name : String) (ranges : List ValueRange) : NamedRanges → NamedRanges
  | [] => [(name, ranges)]
  | (head, old) :: rest =>
    if name < head then (name, ranges) :: (head, old) :: rest
    else if name = head then (name, ranges) :: rest
    else (head, old) :: insert name ranges rest

/-- Reads a range: a list of its two ends. -/
def rangeOfJson? : Json → Option ValueRange
  | .array [min, max] => do return ⟨← min.binary32?, ← max.binary32?⟩
  | _ => none

/-- Reads ranges by name. Of a repeated name the last ranges count. -/
def ofJson? : Json → Option NamedRanges
  | .object members => do
    let named ← members.mapM fun (name, ranges) => do
      return (← name, ← ranges.list? rangeOfJson?)
    return named.foldl (fun sorted (name, ranges) => insert name ranges sorted) []
  | _ => none

/-- Reads ranges by name from the text of a document. -/
def parse? (text : String) : Option NamedRanges := (Json.parse? text).bind ofJson?

end NamedRanges

/-- Records the ranges of a name for the first layer that has it. -/
def RangeTable.recordLayer (g : Graph) (name : String) (ranges : List ValueRange) :
    Recording Unit :=
  match g.layers.find? (·.name == name) with
  | none => throw (.unknownLayerName name)
  | some l => ranges.zipIdx.forM fun (range, slot) => RangeTable.record l.guid slot range

/-- Records ranges by name. -/
def RangeTable.recordNamed (g : Graph) (named : NamedRanges) : Recording Unit :=
  named.forM fun (name, ranges) => RangeTable.recordLayer g name ranges

end LayerGraph
