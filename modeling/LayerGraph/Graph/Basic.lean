import LayerGraph.Graph.Error
import LayerGraph.Graph.GuidTable

/-! # Graphs

  A graph is a list of layers whose slots are connected. A connection is recorded at both
  of its ends: an input slot knows the output slot it reads, and an output slot knows the
  input slots that read it. Connections never form a cycle.

  A failing operation leaves nothing behind, since it has no graph to give.
-/

namespace LayerGraph

/-- Layers in the order they were added, and the layers where tensors enter and leave. -/
structure Graph where
  /-- The layers. -/
  layers : List Layer := []
  /-- Positions of the layers by their identity. -/
  guids : GuidTable := .empty
  /-- The inputs, in the order of the caller. -/
  inputs : List LayerId := []
  /-- The outputs, in the order of the caller. -/
  outputs : List LayerId := []
deriving DecidableEq

namespace Graph

/-- The graph without layers. -/
def empty : Graph := {}

/-! ### Observation -/

/-- The layer at a position. -/
def layer (g : Graph) (id : LayerId) : Except GraphError Layer :=
  match g.layers[id]? with
  | some l => .ok l
  | none => .error (.unknownLayer id)

/-- Position of the layer of the given identity. -/
def findGuid? (g : Graph) (guid : LayerGuid) : Option LayerId :=
  g.guids.find? guid

/-- The binding of the layer at a position. -/
def binding? (g : Graph) (id : LayerId) : Option BindingId :=
  g.layers[id]?.bind (·.kind.binding?)

/-- The boundary layers of one side. -/
def boundary (g : Graph) : Direction → List LayerId
  | .input => g.inputs
  | .output => g.outputs

/-- The bindings of one side, in the order of the caller. -/
def bindings (g : Graph) (direction : Direction) : List BindingId :=
  (g.boundary direction).filterMap g.binding?

/-- The boundary layer of the given binding. -/
def findBinding? (g : Graph) (direction : Direction) (binding : BindingId) : Option LayerId :=
  (g.boundary direction).find? fun id => g.binding? id == some binding

/-- The output slot that an input slot reads. -/
def producer? (g : Graph) (slot : InputRef) : Option OutputRef := do
  let layer ← g.layers[slot.layer]?
  (← layer.inputs[slot.index]?)

/-- Descriptor of the tensor of an output slot. -/
def info? (g : Graph) (slot : OutputRef) : Option TensorInfo := do
  let layer ← g.layers[slot.layer]?
  let output ← layer.outputs[slot.index]?
  output.info

/-- Descriptor of the tensor that an input slot reads. -/
def inputInfo? (g : Graph) (slot : InputRef) : Option TensorInfo := do
  g.info? (← g.producer? slot)

/-! ### Adding layers -/

/-- The graph with one more layer at the end. The bindings of inputs differ from each
    other, and so do those of outputs. -/
def addLayer (g : Graph) (guid : LayerGuid) (kind : LayerKind) (name : String) :
    Except GraphError Graph :=
  let extended : Graph := { g with
    layers := g.layers ++ [Layer.new guid kind name]
    guids := g.guids.insert guid g.layers.length }
  match kind with
  | .input binding =>
    if (g.findBinding? .input binding).isSome then .error (.duplicateBinding .input binding)
    else .ok { extended with inputs := g.inputs ++ [g.layers.length] }
  | .output binding =>
    if (g.findBinding? .output binding).isSome then .error (.duplicateBinding .output binding)
    else .ok { extended with outputs := g.outputs ++ [g.layers.length] }
  | _ => .ok extended

/-- Adds a layer with the next number of the supply, and gives its position. A refused
    layer takes no number. -/
def insert (g : Graph) (kind : LayerKind) (name : String) :
    Build GraphError (LayerId × Graph) := fun supply =>
  match g.addLayer supply.next kind name with
  | .ok extended => .ok (g.layers.length, extended) supply.advance
  | .error e => .error e supply

/-! ### Connecting -/

/-- The layers that read a tensor of the given layer. -/
def successors (g : Graph) (id : LayerId) : List LayerId :=
  match g.layers[id]? with
  | some l => l.outputs.flatMap fun output => output.consumers.map (·.layer)
  | none => []

/-- Adds to a list of layers what can be reached from them in at most so many steps. -/
def spread (g : Graph) : Nat → List LayerId → List LayerId
  | 0, seen => seen
  | steps + 1, seen =>
    let wider := (seen.flatMap g.successors).foldl (fun seen id => seen.insert id) seen
    if wider.length = seen.length then seen else g.spread steps wider

/-- Whether a layer can be reached from another along connections. A path that visits no
    layer twice has fewer steps than there are layers. -/
def reaches (g : Graph) (start target : LayerId) : Bool :=
  (g.spread g.layers.length [start]).contains target

/-- The graph with a connection recorded at both of its ends. -/
def link (g : Graph) (source : OutputRef) (target : InputRef) : Graph :=
  let read := g.layers.modify target.layer fun l =>
    { l with inputs := l.inputs.set target.index (some source) }
  { g with
    layers := read.modify source.layer fun l =>
      { l with outputs := l.outputs.modify source.index fun slot =>
        { slot with consumers := slot.consumers ++ [target] } } }

/-- Connects an output slot to an input slot that is free, unless the connection would
    close a cycle. -/
def connect (g : Graph) (source : OutputRef) (target : InputRef) : Except GraphError Graph := do
  let producer ← g.layer source.layer
  if producer.outputs.length ≤ source.index then
    throw (.invalidSlot producer.guid .output source.index)
  let consumer ← g.layer target.layer
  match consumer.inputs[target.index]? with
  | none => throw (.invalidSlot consumer.guid .input target.index)
  | some (some _) => throw (.alreadyConnected consumer.guid target.index)
  | some none =>
    if g.reaches target.layer source.layer then throw (.cycle producer.guid consumer.guid)
    return g.link source target

/-- The graph with a descriptor recorded at an output slot. -/
def describe (g : Graph) (slot : OutputRef) (info : TensorInfo) : Graph :=
  { g with
    layers := g.layers.modify slot.layer fun l =>
      { l with outputs := l.outputs.modify slot.index fun output =>
        { output with info := some info } } }

/-- Sets the descriptor of an output slot. -/
def setInfo (g : Graph) (slot : OutputRef) (info : TensorInfo) : Except GraphError Graph := do
  let layer ← g.layer slot.layer
  if layer.outputs.length ≤ slot.index then throw (.invalidSlot layer.guid .output slot.index)
  return g.describe slot info

/-! ### Boundaries -/

/-- The boundary layers of one side in the order of the given bindings, which must name
    each of them once. -/
def arrangement (g : Graph) (direction : Direction) (order : List BindingId) :
    Except GraphError (List LayerId) := do
  let arranged ← order.foldlM (fun arranged binding =>
    match g.findBinding? direction binding with
    | none => throw (.unknownBinding direction binding)
    | some id =>
      if arranged.contains id then throw (.duplicateBinding direction binding)
      else return arranged ++ [id]) []
  if arranged.length ≠ (g.boundary direction).length then
    let missing := ((g.boundary direction).find? fun id => !arranged.contains id).bind g.binding?
    throw (.unknownBinding direction (missing.getD 0))
  return arranged

/-- The graph with another list of the boundary layers of one side. -/
def setBoundary (g : Graph) (direction : Direction) (ids : List LayerId) : Graph :=
  match direction with
  | .input => { g with inputs := ids }
  | .output => { g with outputs := ids }

/-- Puts the boundary layers of one side in the order of the given bindings. -/
def reorder (g : Graph) (direction : Direction) (order : List BindingId) :
    Except GraphError Graph :=
  return g.setBoundary direction (← g.arrangement direction order)

/-! ### Completeness -/

/-- Checks that every input slot reads a tensor and every output slot has a descriptor. -/
def validate (g : Graph) : Except GraphError Unit :=
  g.layers.forM fun l => do
    if let some index := l.inputs.findIdx? Option.isNone then
      throw (.unconnectedInput l.guid l.name index)
    if let some index := l.outputs.findIdx? (·.info.isNone) then
      throw (.missingTensorInfo l.guid l.name index)

/-! ### Going back -/

/-- How far a graph had grown at some time. -/
structure Checkpoint where
  /-- Number of layers. -/
  layers : Nat
  /-- Number of inputs. -/
  inputs : Nat
  /-- Number of outputs. -/
  outputs : Nat
deriving DecidableEq, Repr

/-- How far the graph has grown. -/
def checkpoint (g : Graph) : Checkpoint := ⟨g.layers.length, g.inputs.length, g.outputs.length⟩

/-- A layer without its connections to the layers from the given position on. -/
def detach (l : Layer) (cut : Nat) : Layer :=
  { l with
    inputs := l.inputs.map (·.filter (·.layer < cut))
    outputs := l.outputs.map fun slot =>
      { slot with consumers := slot.consumers.filter (·.layer < cut) } }

/-- Removes the layers added since a checkpoint, with their connections. What happened to
    the other layers stays. -/
def rollback (g : Graph) (c : Checkpoint) : Graph where
  layers := (g.layers.take c.layers).map (detach · c.layers)
  guids := (g.layers.drop c.layers).foldl (fun table l => table.erase l.guid) g.guids
  inputs := g.inputs.take c.inputs
  outputs := g.outputs.take c.outputs

end Graph

end LayerGraph
