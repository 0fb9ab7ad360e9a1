import LayerGraph.Graph.LayerKind

/-! # Layers

  A layer is one operation of a graph: a kind, a name, and slots for the tensors it reads
  and writes. Layers refer to each other by their position in the graph.
-/

namespace LayerGraph

/-! ### Identity -/

/-- Position of a layer in its graph. -/
abbrev LayerId := Nat

/-- A number that no two layers share, whichever graphs they are in. -/
structure LayerGuid where
  /-- The number. -/
  number : Nat
deriving DecidableEq, Repr

/-- Text of the number in messages. -/
def LayerGuid.text (guid : LayerGuid) : String := "#" ++ toString guid.number

/-- The numbers not given to any layer yet. A number is spent for every layer that is made,
    also when the graph it was made for is given up. -/
structure GuidSupply where
  /-- The next number. -/
  next : LayerGuid
deriving DecidableEq, Repr

namespace GuidSupply

/-- The supply before any layer is made. -/
def initial : GuidSupply := ⟨⟨1⟩⟩

/-- The supply after the next number is given away. -/
def advance (supply : GuidSupply) : GuidSupply := ⟨⟨supply.next.number + 1⟩⟩

end GuidSupply

/-- A computation that makes layers, and may fail with `ε`. -/
abbrev Build (ε : Type) := EStateM ε GuidSupply

/-- A computation that makes no layers. -/
def Build.ofExcept {ε α : Type} : Except ε α → Build ε α
  | .ok a => pure a
  | .error e => throw e

/-! ### Slots -/

/-- An output slot of a layer. -/
structure OutputRef where
  /-- The layer. -/
  layer : LayerId
  /-- Position of the slot. -/
  index : Nat
deriving DecidableEq, Repr

/-- An input slot of a layer. -/
structure InputRef where
  /-- The layer. -/
  layer : LayerId
  /-- Position of the slot. -/
  index : Nat
deriving DecidableEq, Repr

/-- The writing end of connections. -/
structure OutputSlot where
  /-- Descriptor of the tensor, once it is known. -/
  info : Option TensorInfo := none
  /-- The input slots that read the tensor, in the order they were connected. -/
  consumers : List InputRef := []
deriving DecidableEq

/-! ### Layers -/

/-- One operation of a graph. -/
structure Layer where
  /-- Identity of the layer. -/
  guid : LayerGuid
  /-- Name of the layer; several layers may have the same. -/
  name : String
  /-- Operation of the layer. -/
  kind : LayerKind
  /-- The output slot that each input slot reads, once it is connected. -/
  inputs : List (Option OutputRef)
  /-- The output slots. -/
  outputs : List OutputSlot
deriving DecidableEq

namespace Layer

/-- A layer without connections, with the slots of its kind. -/
def new (guid : LayerGuid) (kind : LayerKind) (name : String) : Layer where
  guid := guid
  name := name
  kind := kind
  inputs := List.replicate kind.inputCount none
  outputs := List.replicate kind.outputCount {}

/-- Text of a layer. -/
def text (layer : Layer) : String :=
  layer.kind.name ++ " " ++ layer.guid.text ++ " '" ++ layer.name ++ "'"

end Layer

end LayerGraph
