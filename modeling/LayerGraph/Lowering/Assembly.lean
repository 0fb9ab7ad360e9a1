import LayerGraph.Graph.Basic
import LayerGraph.Lowering.Plan.OfOperator

/-! # Lowering

  A lowering turns a model into a graph, one operator at a time. It remembers the output
  slot that produces each tensor of the model; a tensor has one producer at most. The layers
  of an operator are planned first and then made together. When one of them is refused, the
  graph goes back to where it was.
-/

namespace LayerGraph

/-- A graph on the way from a model. -/
structure Lowering where
  /-- The model. -/
  model : Model
  /-- Whether operators without a meaning of their own get a layer that stands in. -/
  standIn : Bool
  /-- The layers made so far. -/
  graph : Graph
  /-- The output slot that produces each tensor produced so far. -/
  producers : List (Nat × OutputRef)

namespace Lowering

/-- The tensor and its position that an entry of a model's inputs or outputs names. -/
def boundaryTensor? (model : Model) (tensor : Int32) : Option (Nat × ModelTensor) :=
  if tensor < 0 then none
  else (model.tensors[tensor.toInt.toNat]?).map fun t => (tensor.toInt.toNat, t)

/-- Runs a change of a graph whose refusal is a fault of a boundary tensor. -/
def atBoundary {α : Type} (direction : Direction) (tensor : Int32) (change : Build GraphError α) :
    Build LoweringError α :=
  change.adaptExcept fun cause => .invalidBoundary direction tensor.toInt (.graph cause)

/-- The output slot that produces a tensor. -/
def producer? (t : Lowering) (tensor : Nat) : Option OutputRef := t.producers.lookup tensor

/-! ### Starting -/

/-- Adds the input layer of a tensor that the caller feeds. -/
def addInput (t : Lowering) (tensor : Int32) : Build LoweringError Lowering := do
  let refuse := fun {α : Type} fault =>
    (throw (.invalidBoundary .input tensor.toInt fault) : Build LoweringError α)
  let some (index, source) := boundaryTensor? t.model tensor | refuse .noSuchTensor
  if source.isDynamic then refuse .dynamic
  let info ← match source.info with
    | .ok info => pure info
    | .error cause => refuse (.descriptor cause)
  let (layer, graph) ← atBoundary .input tensor (t.graph.insert (.input (bindingOf index)) source.name)
  let slot : OutputRef := ⟨layer, 0⟩
  let graph ← atBoundary .input tensor (.ofExcept (graph.setInfo slot info))
  return { t with graph := graph, producers := (index, slot) :: t.producers }

/-- A lowering whose graph holds the inputs of the model. -/
def start (model : Model) (standIn : Bool) : Build LoweringError Lowering :=
  model.inputs.foldlM addInput ⟨model, standIn, .empty, []⟩

/-! ### Making the layers of a plan -/

/-- A constant to be made for a tensor that nothing else produces. -/
structure PendingConstant where
  /-- The tensor. -/
  tensor : Nat
  /-- Name of its layer. -/
  name : String
  /-- Its values. -/
  constant : Constant

/-- Where the making of a plan stands. -/
structure Assembly where
  /-- The graph so far. -/
  graph : Graph
  /-- The output slots of the tensors that the plan reads. -/
  sources : List (Nat × OutputRef)
  /-- The output slots of the constants that were made. -/
  made : List (Nat × OutputRef)
  /-- The reshapes that were made. -/
  reshapes : List LayerId

/-- Makes a planned layer, with the descriptors of its outputs. -/
def addPlanned (g : Graph) (planned : PlannedLayer) : Build GraphError (LayerId × Graph) := do
  let (layer, g) ← g.insert planned.kind planned.name
  let g ← planned.outputs.zipIdx.foldlM (fun g (info, slot) =>
    Build.ofExcept (g.setInfo ⟨layer, slot⟩ info)) g
  return (layer, g)

/-- Makes the layer of a constant. -/
def addConstant (a : Assembly) (c : PendingConstant) : Build GraphError Assembly := do
  let (layer, graph) ← a.graph.insert (.constant c.constant) c.name
  let slot : OutputRef := ⟨layer, 0⟩
  let graph ← Build.ofExcept (graph.setInfo slot c.constant.info)
  return { a with
    graph := graph
    sources := (c.tensor, slot) :: a.sources
    made := a.made ++ [(c.tensor, slot)] }

/-- The output slot of a tensor that the plan reads. -/
def Assembly.source (a : Assembly) (tensor : Nat) : OutputRef :=
  (a.sources.lookup tensor).getD ⟨0, 0⟩

/-- Makes a reshape and feeds it. -/
def addReshape (a : Assembly) (tensor : Nat) (planned : PlannedLayer) :
    Build GraphError Assembly := do
  let (layer, graph) ← addPlanned a.graph planned
  let graph ← Build.ofExcept (graph.connect (a.source tensor) ⟨layer, 0⟩)
  return { a with graph := graph, reshapes := a.reshapes ++ [layer] }

/-- The output slot that a slot of the primary layer reads. -/
def Assembly.slot (a : Assembly) : SlotSource → OutputRef
  | .tensor t => a.source t
  | .reshape r => ⟨a.reshapes.getD r 0, 0⟩

/-- Makes a layer that follows another. -/
def addFollower (state : Graph × LayerId) (planned : PlannedLayer) :
    Build GraphError (Graph × LayerId) := do
  let (next, graph) ← addPlanned state.1 planned
  let graph ← Build.ofExcept (graph.connect ⟨state.2, 0⟩ ⟨next, 0⟩)
  return (graph, next)

/-- What the making of a plan leaves. -/
structure Built where
  /-- The graph. -/
  graph : Graph
  /-- The primary layer. -/
  primary : LayerId
  /-- The output slots of the tensors that are now produced. -/
  produced : List (Nat × OutputRef)

/-- Makes the constants and the layers of a plan. -/
def build (g : Graph) (plan : Plan) (sources : List (Nat × OutputRef))
    (constants : List PendingConstant) : Build GraphError Built := do
  let a ← constants.foldlM addConstant ⟨g, sources, [], []⟩
  let a ← plan.reshapes.foldlM (fun a (tensor, planned) => addReshape a tensor planned) a
  let (primary, graph) ← addPlanned a.graph plan.primary
  let graph ← plan.inputs.zipIdx.foldlM (fun graph (source, index) =>
    Build.ofExcept (graph.connect (a.slot source) ⟨primary, index⟩)) graph
  let (graph, last) ← plan.tail.foldlM addFollower (graph, primary)
  let written := plan.outputs.zipIdx.map fun (tensor, slot) => (tensor, ⟨last, slot⟩)
  return ⟨graph, primary, written ++ a.made⟩

/-! ### Lowering an operator -/

/-- The constant of a tensor that nothing produces. -/
def pendingConstant (model : Model) (operator tensor : Nat) : Planning PendingConstant := do
  let refuse := fun {α : Type} fault =>
    (throw (.invalidTensor operator tensor fault) : Planning α)
  let some source := model.tensors[tensor]? | refuse .noSuchTensor
  let some data := source.payload? | refuse .noProducer
  let info ← match source.info with
    | .ok info => pure info
    | .error cause => refuse (.descriptor cause)
  match Constant.ofBytes info data with
  | .ok constant => return ⟨tensor, "Constant:" ++ source.name, constant⟩
  | .error cause => refuse (.tensor cause)

/-- The output slots of the tensors that a plan reads, and the constants to make for those
    that have none. -/
def sourcesOf (t : Lowering) (operator : Nat) (plan : Plan) :
    Planning (List (Nat × OutputRef) × List PendingConstant) :=
  plan.consumed.foldlM (fun (sources, constants) tensor =>
    match t.producer? tensor with
    | some slot => return ((tensor, slot) :: sources, constants)
    | none => do
      let constant ← pendingConstant t.model operator tensor
      return (sources, constants ++ [constant])) ([], [])

/-- Checks that nothing produces yet what a plan writes, and that it writes it once. -/
def checkOutputs (t : Lowering) (operator : Nat) (plan : Plan) : Planning Unit := do
  if let some tensor := plan.outputs.find? fun o => (t.producer? o).isSome then
    throw (.invalidTensor operator tensor .secondProducer)
  if !plan.outputs.Nodup then
    throw (.invalidTensor operator (plan.outputs.headD 0) .writtenTwice)

/-- What a lowered operator leaves. -/
structure Step where
  /-- The lowering with the layers of the operator. -/
  lowering : Lowering
  /-- The layer with the kind of the operator. -/
  primary : LayerId

/-- Lowers the operator at a position of the model. -/
def lower (t : Lowering) (index : Nat) : Build LoweringError Step := do
  let plan ← Build.ofExcept (Plan.ofOperator t.model index t.standIn)
  let (sources, constants) ← Build.ofExcept (t.sourcesOf index plan)
  Build.ofExcept (t.checkOutputs index plan)
  let built ← (build t.graph plan sources constants).adaptExcept (.graph index)
  return ⟨{ t with graph := built.graph, producers := built.produced ++ t.producers }, built.primary⟩

/-! ### Finishing -/

/-- Adds the output layer of a tensor that the caller reads. -/
def addOutput (t : Lowering) (tensor : Int32) : Build LoweringError Lowering := do
  let refuse := fun {α : Type} fault =>
    (throw (.invalidBoundary .output tensor.toInt fault) : Build LoweringError α)
  let some (index, source) := boundaryTensor? t.model tensor | refuse .noSuchTensor
  let some producer := t.producer? index | refuse .noProducer
  let (layer, graph) ←
    atBoundary .output tensor (t.graph.insert (.output (bindingOf index)) source.name)
  let graph ← atBoundary .output tensor (.ofExcept (graph.connect producer ⟨layer, 0⟩))
  return { t with graph := graph }

/-- The complete graph, with the outputs of the model. -/
def finish (t : Lowering) : Build LoweringError Graph := do
  let t ← t.model.outputs.foldlM addOutput t
  match t.graph.validate with
  | .ok _ => return t.graph
  | .error cause => throw (.incomplete cause)

end Lowering

/-- Lowers all operators of a model in their order, up to the first that fails. -/
def Model.toGraph (model : Model) (standIn : Bool) : Build LoweringError Graph := do
  let t ← Lowering.start model standIn
  let t ← (List.range model.operators.length).foldlM (fun t index => do
    return (← t.lower index).lowering) t
  t.finish

end LayerGraph
