import LayerGraph.Graph.Basic

/-! # Sessions

  A caller keeps one graph and changes it call by call. A call looks at the graph, and then changes
  one part of it after the other: the table of identities, the boundary, the layers, and the two
  ends of a connection. There is one graph only, so a call that failed after a change would leave
  the graph with the change made.
-/

namespace LayerGraph

/-- A graph between two calls. -/
structure Session where
  /-- The graph. -/
  graph : Graph
  /-- The numbers not given to any layer yet. -/
  supply : GuidSupply

/-- A computation that changes a session in place. What it changed before a failure stays. -/
abbrev Editing := EStateM GraphError Session

/-- What a caller can ask for while it holds a graph. -/
inductive Call where
  /-- Another layer, which is an input or an output when its kind says so. -/
  | addLayer (kind : LayerKind) (name : String)
  /-- A connection between two slots. -/
  | connect (source : OutputRef) (target : InputRef)
  /-- Another descriptor of an output slot. -/
  | setInfo (slot : OutputRef) (info : TensorInfo)
  /-- Another order of the inputs or of the outputs. -/
  | reorder (direction : Direction) (order : List BindingId)
  /-- A layer of some other graph, which takes a number from the same supply. -/
  | addElsewhere

namespace Editing

/-! ### Looking and changing -/

/-- What the graph answers. -/
def look {α : Type} (question : Graph → Except GraphError α) : Editing α := fun s =>
  match question s.graph with
  | .ok a => .ok a s
  | .error e => .error e s

/-- Changes a part of the graph. -/
def change (f : Graph → Graph) : Editing Unit :=
  modify fun s => { s with graph := f s.graph }

/-- Takes the next number. -/
def draw : Editing LayerGuid :=
  modifyGet fun s => (s.supply.next, { s with supply := s.supply.advance })

/-! ### Adding layers -/

/-- Checks that the binding of a boundary layer is not taken. -/
def checkBinding (kind : LayerKind) : Editing Unit :=
  look fun g =>
    match kind with
    | .input binding =>
      if (g.findBinding? .input binding).isSome then .error (.duplicateBinding .input binding)
      else .ok ()
    | .output binding =>
      if (g.findBinding? .output binding).isSome then .error (.duplicateBinding .output binding)
      else .ok ()
    | _ => .ok ()

/-- Puts a boundary layer behind the others of its side. -/
def enterBoundary (kind : LayerKind) (id : LayerId) : Editing Unit :=
  change fun g =>
    match kind with
    | .input _ => { g with inputs := g.inputs ++ [id] }
    | .output _ => { g with outputs := g.outputs ++ [id] }
    | _ => g

/-- Adds a layer with the next number, and gives its position. -/
def addLayer (kind : LayerKind) (name : String) : Editing LayerId := do
  checkBinding kind
  let id ← look fun g => .ok g.layers.length
  let guid ← draw
  change fun g => { g with guids := g.guids.insert guid id }
  enterBoundary kind id
  change fun g => { g with layers := g.layers ++ [Layer.new guid kind name] }
  return id

/-! ### Connecting -/

/-- Connects an output slot to an input slot that is free, unless the connection would close a
    cycle. The connection is recorded at the input slot first. -/
def connect (source : OutputRef) (target : InputRef) : Editing Unit := do
  let producer ← look fun g => g.layer source.layer
  if producer.outputs.length ≤ source.index then
    throw (.invalidSlot producer.guid .output source.index)
  let consumer ← look fun g => g.layer target.layer
  match consumer.inputs[target.index]? with
  | none => throw (.invalidSlot consumer.guid .input target.index)
  | some (some _) => throw (.alreadyConnected consumer.guid target.index)
  | some none =>
    if (← look fun g => .ok (g.reaches target.layer source.layer)) then
      throw (.cycle producer.guid consumer.guid)
    change fun g => { g with
      layers := g.layers.modify target.layer fun l =>
        { l with inputs := l.inputs.set target.index (some source) } }
    change fun g => { g with
      layers := g.layers.modify source.layer fun l =>
        { l with outputs := l.outputs.modify source.index fun slot =>
          { slot with consumers := slot.consumers ++ [target] } } }

/-- Sets the descriptor of an output slot. -/
def setInfo (slot : OutputRef) (info : TensorInfo) : Editing Unit := do
  let layer ← look fun g => g.layer slot.layer
  if layer.outputs.length ≤ slot.index then throw (.invalidSlot layer.guid .output slot.index)
  change fun g => g.describe slot info

/-! ### Boundaries -/

/-- Puts the boundary layers of one side in the order of the given bindings. -/
def reorder (direction : Direction) (order : List BindingId) : Editing Unit := do
  let ids ← look fun g => g.arrangement direction order
  change fun g => g.setBoundary direction ids

/-! ### Calls -/

/-- Does what is asked for. The answer has the position of a layer that was added. -/
def perform : Call → Editing (Option LayerId)
  | .addLayer kind name => do
    let id ← addLayer kind name
    return some id
  | .connect source target => do
    connect source target
    return none
  | .setInfo slot info => do
    setInfo slot info
    return none
  | .reorder direction order => do
    reorder direction order
    return none
  | .addElsewhere => do
    let _ ← draw
    return none

end Editing

namespace Session

/-- The session of a caller that starts with the empty graph. -/
def start (supply : GuidSupply) : Session := ⟨.empty, supply⟩

/-- Does what is asked for. The session goes on, whether the call succeeds or not. -/
def ask (s : Session) (call : Call) : Session × Except GraphError (Option LayerId) :=
  match (Editing.perform call).run s with
  | .ok answer s => (s, .ok answer)
  | .error e s => (s, .error e)

/-- The session after some calls. -/
def run (s : Session) (calls : List Call) : Session :=
  calls.foldl (fun s call => (s.ask call).1) s

end Session

end LayerGraph
