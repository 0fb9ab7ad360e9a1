import LayerGraph.Graph.Basic

/-! # Topological order

  The order lists producers before consumers. Among the layers that could come next, the
  one added first does, so the order depends on connections and insertion alone.

  Each layer waits for a number of connected inputs. Listing a layer lets one wait end for
  every input slot that reads one of its tensors; a layer that waits for none is ready.
-/

namespace LayerGraph

namespace Graph

/-- Where the listing of layers stands. -/
structure Listing where
  /-- For each layer, the number of its inputs whose producers are not listed. -/
  pending : List Int
  /-- The layers that wait for nothing and are not listed, lowest first. -/
  ready : List LayerId
  /-- The layers listed so far. -/
  order : List LayerId
deriving DecidableEq, Repr

namespace Listing

/-- Puts a layer among ready ones. -/
def enqueue (id : LayerId) : List LayerId → List LayerId
  | [] => [id]
  | head :: rest => if id < head then id :: head :: rest else head :: enqueue id rest

/-- Before any layer is listed. -/
def initial (g : Graph) : Listing :=
  let pending := g.layers.map fun l => (l.inputs.countP Option.isSome : Int)
  { pending := pending
    ready := (List.range g.layers.length).filter fun id => pending[id]? == some 0
    order := [] }

/-- One input of a layer waits no longer. -/
def release (s : Listing) (id : LayerId) : Listing :=
  let pending := s.pending.modify id (· - 1)
  { s with
    pending := pending
    ready := if pending[id]? == some 0 then enqueue id s.ready else s.ready }

/-- Lists the lowest ready layer, if there is one. -/
def step (g : Graph) (s : Listing) : Listing :=
  match s.ready with
  | [] => s
  | id :: rest =>
    (g.successors id).foldl release { s with ready := rest, order := s.order ++ [id] }

end Listing

/-- The layers, producers first. -/
def topologicalOrder (g : Graph) : List LayerId :=
  (Nat.repeat (Listing.step g) g.layers.length (Listing.initial g)).order

/-- The layers with their positions, producers first. -/
def orderedLayers (g : Graph) : List (LayerId × Layer) :=
  g.topologicalOrder.filterMap fun id => g.layers[id]?.map fun l => (id, l)

end Graph

end LayerGraph
