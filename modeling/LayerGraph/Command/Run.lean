import LayerGraph.Command.Arguments
import LayerGraph.Command.Error
import LayerGraph.Command.Summary
import LayerGraph.Container.Reader
import LayerGraph.Quantize.StaticRanges
import LayerGraph.Lowering.Assembly

/-! # Running commands

  A command reads files, makes a graph, and writes a file or says something about the
  graph. It reaches files through a `FileAccess`, so it runs on the files of the machine as
  well as on files that are values.
-/

namespace LayerGraph

/-- How files are reached. -/
structure FileAccess (m : Type → Type) where
  /-- The bytes of a file. -/
  read : (path : String) → m (Except FileError (List UInt8))
  /-- Makes an empty file, also in place of one that is there. -/
  create : (path : String) → m (Except FileError Unit)
  /-- Puts bytes into a file that was made. -/
  write : (path : String) → (bytes : List UInt8) → m (Except FileError Unit)

/-- A command at work: it may fail, and it makes layers. -/
abbrev Work (m : Type → Type) := ExceptT CommandError (StateT GuidSupply m)

namespace Work

variable {m : Type → Type} [Monad m]

/-- Runs an access to a file. -/
def access {α : Type} (action : m (Except FileError α)) (failure : FileError → CommandError) :
    Work m α := do
  match ← (action : StateT GuidSupply m _) with
  | .ok a => return a
  | .error e => throw (failure e)

/-- Runs a computation that makes layers. -/
def build {ε α : Type} (change : Build ε α) (failure : ε → CommandError) : Work m α := do
  match change.run (← get) with
  | .ok a supply => do
    set supply
    return a
  | .error e supply => do
    set supply
    throw (failure e)

/-- Gives the value of a computation that neither reaches files nor makes layers. -/
def ofExcept {ε α : Type} (result : Except ε α) (failure : ε → CommandError) : Work m α :=
  match result with
  | .ok a => return a
  | .error e => throw (failure e)

end Work

namespace Command

open Work

variable {m : Type → Type} [Monad m] (files : FileAccess m)

/-- The graph of a container in a file. -/
def readGraph (path : String) : Work m Graph := do
  let bytes ← access (files.read path) (.reading path)
  build (Graph.deserialize bytes) (.deserializing path)

/-- Writes the container of a graph into a file. The file is made first. -/
def writeGraph (g : Graph) (path : String) : Work m Unit := do
  access (files.create path) (.creating path)
  let bytes ← ofExcept g.serialize .serializing
  access (files.write path bytes) (.writing path)

/-- Translates the model in a file. -/
def translateFile (model output : String) (standIn : Bool) : Work m Unit := do
  let bytes ← access (files.read model) (.reading model)
  let text ← ofExcept (Utf8.decode bytes) fun _ => .notText model
  let some source := Model.parse? text | throw .modelDocument
  let g ← build (source.toGraph standIn) .ofLowering
  writeGraph files g output

/-- The ranges by name in a file. A directory can be opened but holds no document. -/
def readRanges (path : String) : Work m NamedRanges := do
  let bytes ← access (files.read path) fun cause =>
    if cause = .isDirectory then .rangesDocument path else .opening path cause
  let text ← ofExcept (Utf8.decode bytes) fun _ => .rangesDocument path
  let some named := NamedRanges.parse? text | throw (.rangesDocument path)
  return named

variable (extent : RangeExtent)

/-- The ranges of a graph: those in a file, if one is given, and estimated ones for all
    other output slots. -/
def collectRanges (g : Graph) (path : Option String) : Work m RangeTable := do
  let estimated ← ofExcept (RangeTable.estimate extent g) .estimating
  match path with
  | none => return estimated
  | some path => do
    let named ← readRanges files path
    ofExcept (RangeTable.collect extent g named) .recording

/-- Quantizes the graph in a file. -/
def quantizeFile (input output : String) (options : QuantizerOptions) (ranges : Option String) :
    Work m Unit := do
  let g ← readGraph files input
  let table ← collectRanges files extent g ranges
  let quantized ← build (g.quantize table options) .ofQuantization
  writeGraph files quantized output

/-- Summary of the graph in a file, which must be one that can be written again. -/
def inspectFile (input : String) : Work m String := do
  let g ← readGraph files input
  let _ ← ofExcept g.serialize .reserializing
  return g.summary.pretty

/-- Runs a command, and gives the text that it prints, if it prints one. -/
def run : Command → Work m (Option String)
  | .translate model output standIn => do
    translateFile files model output standIn
    return none
  | .quantize input output options ranges => do
    quantizeFile files extent input output options ranges
    return none
  | .inspect input => some <$> inspectFile files input

end Command

end LayerGraph
