import LayerGraph.Graph.Session
import LayerGraph.Lowering.Assembly

/-! # Lowering in place

  A caller that goes on after a refused operator keeps one lowering. Its graph changes slot by
  slot while the layers of an operator are made. When the graph refuses one of them, those made
  before it are there already, and the graph goes back to the checkpoint at which the operator
  began. What produces the tensors is recorded at the end, when all layers are made.
-/

namespace LayerGraph

namespace Lowering

/-- The plan of an operator, the output slots of the tensors that it reads and the constants to
    make for it. Nothing is made before it is known that nothing else produces what it writes. -/
def prepare (t : Lowering) (index : Nat) :
    Planning (Plan × List (Nat × OutputRef) × List PendingConstant) := do
  let plan ← Plan.ofOperator t.model index t.standIn
  let (sources, constants) ← t.sourcesOf index plan
  t.checkOutputs index plan
  return (plan, sources, constants)

/-- A lowering that is kept and changed. -/
structure Site where
  /-- The lowering. -/
  lowering : Lowering
  /-- The numbers not given to any layer yet. -/
  supply : GuidSupply

/-- The graph of a lowering and its supply. -/
def Site.session (site : Site) : Session := ⟨site.lowering.graph, site.supply⟩

/-- The lowering with the graph and the supply of a session. -/
def Site.enter (site : Site) (s : Session) : Site :=
  ⟨{ site.lowering with graph := s.graph }, s.supply⟩

/-- A computation that changes a lowering in place. What it changed before a failure stays. -/
abbrev InPlace (ε : Type) := EStateM ε Site

namespace InPlace

/-! ### Changing the graph -/

/-- Changes the graph in place. -/
def edit {α : Type} (x : Editing α) : InPlace GraphError α := fun site =>
  match x.run site.session with
  | .ok a s => .ok a (site.enter s)
  | .error cause s => .error cause (site.enter s)

/-- Adds a layer. -/
def add (kind : LayerKind) (name : String) : InPlace GraphError LayerId :=
  edit (Editing.addLayer kind name)

/-- Sets the descriptor of an output slot. -/
def setInfo (slot : OutputRef) (info : TensorInfo) : InPlace GraphError Unit :=
  edit (Editing.setInfo slot info)

/-- Connects an output slot to an input slot. -/
def connect (source : OutputRef) (target : InputRef) : InPlace GraphError Unit :=
  edit (Editing.connect source target)

/-! ### Making the layers of a plan -/

/-- The output slots that are known while a plan is made. -/
structure Known where
  /-- The output slots of the tensors that the plan reads. -/
  sources : List (Nat × OutputRef)
  /-- The output slots of the constants that were made. -/
  made : List (Nat × OutputRef)

/-- The output slot of a tensor that the plan reads. -/
def Known.source (known : Known) (tensor : Nat) : OutputRef :=
  (known.sources.lookup tensor).getD ⟨0, 0⟩

/-- The output slot that a slot of the primary layer reads. -/
def Known.slot (known : Known) (reshapes : List LayerId) : SlotSource → OutputRef
  | .tensor t => known.source t
  | .reshape r => ⟨reshapes.getD r 0, 0⟩

/-- Makes a planned layer, with the descriptors of its outputs. -/
def addPlanned (planned : PlannedLayer) : InPlace GraphError LayerId := do
  let layer ← add planned.kind planned.name
  planned.outputs.zipIdx.forM fun (info, slot) => setInfo ⟨layer, slot⟩ info
  return layer

/-- Makes the layer of a constant. -/
def addConstant (known : Known) (c : PendingConstant) : InPlace GraphError Known := do
  let layer ← add (.constant c.constant) c.name
  setInfo ⟨layer, 0⟩ c.constant.info
  return ⟨(c.tensor, ⟨layer, 0⟩) :: known.sources, known.made ++ [(c.tensor, ⟨layer, 0⟩)]⟩

/-- Makes a reshape and feeds it. -/
def addReshape (known : Known) (reshapes : List LayerId) (tensor : Nat) (planned : PlannedLayer) :
    InPlace GraphError (List LayerId) := do
  let layer ← addPlanned planned
  connect (known.source tensor) ⟨layer, 0⟩
  return reshapes ++ [layer]

/-- Makes a layer that follows another. -/
def addFollower (last : LayerId) (planned : PlannedLayer) : InPlace GraphError LayerId := do
  let next ← addPlanned planned
  connect ⟨last, 0⟩ ⟨next, 0⟩
  return next

/-- Makes the constants and the layers of a plan. The answer is the primary layer, and the output
    slots of the tensors that are now produced. -/
def build (plan : Plan) (sources : List (Nat × OutputRef)) (constants : List PendingConstant) :
    InPlace GraphError (LayerId × List (Nat × OutputRef)) := do
  let known ← constants.foldlM addConstant ⟨sources, []⟩
  let reshapes ← plan.reshapes.foldlM (fun reshapes (tensor, planned) =>
    addReshape known reshapes tensor planned) []
  let primary ← addPlanned plan.primary
  plan.inputs.zipIdx.forM fun (source, index) =>
    connect (known.slot reshapes source) ⟨primary, index⟩
  let last ← plan.tail.foldlM addFollower primary
  let written := plan.outputs.zipIdx.map fun (tensor, slot) => (tensor, ⟨last, slot⟩)
  return (primary, written ++ known.made)

/-! ### Lowering an operator -/

/-- Lowers the operator at a position of the model, and gives its primary layer. When one of its
    layers is refused, the graph goes back to where it was. -/
def lower (index : Nat) : InPlace LoweringError LayerId := fun site =>
  let t := site.lowering
  match t.prepare index with
  | .error e => .error e site
  | .ok (plan, sources, constants) =>
    match (build plan sources constants).run site with
    | .ok (primary, produced) site =>
      .ok primary { site with
        lowering := { site.lowering with producers := produced ++ site.lowering.producers } }
    | .error cause site =>
      let restored := site.lowering.graph.rollback t.graph.checkpoint
      .error (.graph index cause) { site with lowering := { site.lowering with graph := restored } }

end InPlace

end Lowering

end LayerGraph
