import LayerGraph.Lowering.Plan.OfOperator

/-! # Support checks

  An executor may not be able to run every layer. Whether it can run an operator is found
  out from the plan alone, without making a layer.
-/

namespace LayerGraph

/-- What an executor says about a layer: whether it can run it and, if not, why. -/
structure Verdict where
  /-- Whether the layer can run. -/
  supported : Bool
  /-- Why it cannot. -/
  reason : String
deriving DecidableEq, Repr

/-- An executor that can be asked about layers. -/
abbrev LayerSupport := PlannedLayer → Verdict

/-- The verdict on layers that are asked about in order, up to the first that cannot run.
    Its name stands before the reason. -/
def verdictOn (support : LayerSupport) : List PlannedLayer → Verdict
  | [] => ⟨true, ""⟩
  | layer :: rest =>
    let verdict := support layer
    if verdict.supported then verdictOn support rest
    else ⟨false, layer.name ++ ": " ++ verdict.reason⟩

/-- The layers that an executor is asked about. -/
def queried (support : LayerSupport) : List PlannedLayer → List PlannedLayer
  | [] => []
  | layer :: rest =>
    if (support layer).supported then layer :: queried support rest else [layer]

/-- Whether the operator at a position of a model could run. An operator that cannot be
    lowered is an error and not a refusal. -/
def checkSupport (model : Model) (index : Nat) (support : LayerSupport) : Planning Verdict := do
  let plan ← Plan.ofOperator model index false
  return verdictOn support plan.layers

end LayerGraph
