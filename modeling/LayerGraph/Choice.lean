import LayerGraph.Instances

/-! # Types with finitely many named values

  Element types, activation functions, padding modes and the like are small types whose
  values have names in documents and messages.
-/

namespace LayerGraph

/-- A type with finitely many values, each with a name. -/
class Choice (α : Type) where
  /-- Name of the type. -/
  title : String
  /-- Every value with its name. -/
  named : List (α × String)

namespace Choice

variable {α : Type} [Choice α]

/-- Name of a value. -/
def name [DecidableEq α] (a : α) : String :=
  (((named : List (α × String)).find? (·.1 == a)).map (·.2)).getD ""

/-- The value of the given name. -/
def ofName? (text : String) : Option α :=
  ((named : List (α × String)).find? (·.2 == text)).map (·.1)

end Choice

end LayerGraph
