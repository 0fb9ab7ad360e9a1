import LayerGraph.Command.Run

/-! # The program

  The command line tool: it runs a command on the files of the machine.
-/

namespace LayerGraph

namespace Program

/-- The reason that the machine gives for not reaching a file. -/
def fileError : IO.Error → FileError
  | .noFileOrDirectory .. => .notFound
  | .inappropriateType _ code details =>
    if code = 20 then .notDirectory else if code = 21 then .isDirectory
    else .other (details ++ " (os error " ++ toString code ++ ")")
  | .invalidArgument _ code details =>
    if code = 36 then .nameTooLong
    else .other (details ++ " (os error " ++ toString code ++ ")")
  | e => .other (toString e)

/-- Runs an action on a file of the machine. -/
def reach {α : Type} (action : IO α) : IO (Except FileError α) := do
  match ← action.toBaseIO with
  | .ok a => return .ok a
  | .error e => return .error (fileError e)

/-- Access to the files of the machine. -/
def access : FileAccess IO where
  read path := reach do return (← IO.FS.readBinFile path).toList
  create path := reach (IO.FS.writeBinFile path ByteArray.empty)
  write path bytes := reach (IO.FS.writeBinFile path ⟨bytes.toArray⟩)

/-- What the commands are and which options they have. -/
def help : String := "\n".intercalate [
  "Usage: layergraph [--json] COMMAND OPTIONS",
  "",
  "Commands:",
  "  translate -m MODEL -o OUTPUT [--stand-in]",
  "  quantize -i INPUT -o OUTPUT [--scheme SCHEME] [--preserve-type] [-r RANGES]",
  "  inspect -i INPUT"]

/-- The version of the program. -/
def version : String := "layergraph 0.1.0"

/-- What is said about a command line that is not run. -/
def describe : UsageError → String
  | .help | .nothing => help
  | .version => version
  | .unknownArgument => "an argument is unknown"
  | .unknownCommand => "the command is unknown"
  | .missingCommand => "a command is needed"
  | .missingOption => "a needed option is missing"
  | .missingValue => "an option has no value"
  | .wrongValue => "the value of an option is not one it can have"
  | .repeatedOption => "an option is given twice"
  | .needlessValue => "an option takes no value"

/-- Answers a command line that is not run. -/
def refuse (e : UsageError) : IO UInt32 := do
  match e with
  | .help | .version => do
    IO.println (describe e)
    return 0
  | _ => do
    IO.eprintln (describe e)
    return 2

/-- Runs a command. -/
def perform (command : Command) : IO UInt32 := do
  let extent := RangeExtent.ofSetting (← IO.getEnv "NNIR_DEFAULT_RANGE")
  match ← ((Command.run access extent command).run).run .initial with
  | (.ok text, _) => do
    if let some text := text then IO.println text
    return 0
  | (.error (.overflow operation), _) => do
    IO.eprintln operation.message
    return 101
  | (.error e, _) => do
    IO.eprintln ("Error: " ++ "\n  caused by: ".intercalate e.chain)
    return 1

end Program

end LayerGraph

/-- Runs the command that the arguments name. -/
def main (arguments : List String) : IO UInt32 :=
  match LayerGraph.Command.parse arguments with
  | .ok command => LayerGraph.Program.perform command
  | .error e => LayerGraph.Program.refuse e
