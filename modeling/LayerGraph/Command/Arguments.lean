import LayerGraph.Quantize.Counterpart

/-! # Command lines

  A command line names a command and gives its options. An option has a long name, and some
  have a letter. A value stands behind its option, or in the same word: after an equals
  sign, and behind a letter also directly.

  Words are taken one by one. The value of an option is looked at when the next option
  comes, or at the end, so a word that cannot be taken is reported before a wrong value.
-/

namespace LayerGraph

/-- A command of the program. -/
inductive Command where
  /-- Translates the model in a file and writes its graph. -/
  | translate (model output : String) (standIn : Bool)
  /-- Quantizes the graph in a file and writes the result. -/
  | quantize (input output : String) (options : QuantizerOptions) (ranges : Option String)
  /-- Tells about the graph in a file. -/
  | inspect (input : String)
deriving DecidableEq, Repr

/-- Why a command line is not run. -/
inductive UsageError where
  /-- Help is asked for. -/
  | help
  /-- Nothing is asked for. -/
  | nothing
  /-- The version is asked for. -/
  | version
  /-- A word that is no option, or a value for nothing. -/
  | unknownArgument
  /-- A word that is no command. -/
  | unknownCommand
  /-- Options without a command. -/
  | missingCommand
  /-- An option that the command needs is not there. -/
  | missingOption
  /-- An option without its value, or with an empty path. -/
  | missingValue
  /-- A value that is none of the option's. -/
  | wrongValue
  /-- An option that is there twice. -/
  | repeatedOption
  /-- A value for an option that has none. -/
  | needlessValue
deriving DecidableEq, Repr

namespace CommandLine

/-! ### Options -/

/-- What an option is for. -/
inductive OptionUse where
  /-- It is there or not. -/
  | flag
  /-- Its value is a path. -/
  | path
  /-- Its value names a quantization scheme. -/
  | scheme
  /-- It asks for help. -/
  | help
  /-- It asks for the version. -/
  | version
deriving DecidableEq, Repr

/-- Whether a value belongs to the option. -/
def OptionUse.takesValue : OptionUse → Bool
  | path | scheme => true
  | flag | help | version => false

/-- An option. -/
structure CommandOption where
  /-- Its long name. -/
  name : String
  /-- Its letter, if it has one. -/
  letter : Option Char
  /-- What it is for. -/
  use : OptionUse
deriving DecidableEq, Repr

/-- The options of every command. -/
def commonOptions : List CommandOption := [⟨"json", none, .flag⟩, ⟨"help", some 'h', .help⟩]

/-- The options before the command. -/
def leadingOptions : List CommandOption := ⟨"version", some 'V', .version⟩ :: commonOptions

/-! ### Options that are given -/

/-- The options taken so far, each with its value; the value of a flag is empty. -/
abbrev Given := List (String × String)

/-- Checks the value of an option. -/
def checkValue (use : OptionUse) (value : String) : Except UsageError Unit :=
  match use with
  | .path => if value.isEmpty then .error .missingValue else .ok ()
  | .scheme => (Scheme.parse value).map (fun _ => ()) |>.mapError fun _ => .wrongValue
  | _ => .ok ()

/-- Takes an option that a value belongs to. -/
def takeValue (given : Given) (option : CommandOption) : Option String → Except UsageError Given
  | none => .error .missingValue
  | some value => do
    if (given.lookup option.name).isSome then throw .repeatedOption
    checkValue option.use value
    return given ++ [(option.name, value)]

/-- Takes an option that stands alone. -/
def takeFlag (given : Given) (option : CommandOption) : Except UsageError Given :=
  match option.use with
  | .help => .error .help
  | .version => .error .version
  | _ =>
    if (given.lookup option.name).isSome then .error .repeatedOption
    else .ok (given ++ [(option.name, "")])

/-! ### Words -/

/-- The forms of a word. -/
inductive Word where
  /-- Two hyphens: no option comes behind them. -/
  | separator
  /-- A long name, with the value behind an equals sign. -/
  | long (name : String) (value : Option String)
  /-- Letters. -/
  | letters (letters : List Char)
  /-- Any other word. -/
  | plain (text : String)
deriving DecidableEq, Repr

/-- The form of a word. -/
def Word.ofString (text : String) : Word :=
  match text.toList with
  | ['-', '-'] => separator
  | '-' :: '-' :: rest =>
    let value := match rest.dropWhile (· != '=') with
      | [] => none
      | _ :: value => some (String.ofList value)
    long (String.ofList (rest.takeWhile (· != '='))) value
  | '-' :: c :: rest => letters (c :: rest)
  | _ => plain text

/-- Where the taking of words stands. -/
structure Scan where
  /-- The options that there are. -/
  options : List CommandOption
  /-- The options taken so far. -/
  given : Given := []
  /-- The option that came last, with its value if that came, when a value belongs to it. -/
  waiting : Option (CommandOption × Option String) := none
  /-- Whether no more options come. -/
  closed : Bool := false

namespace Scan

/-- Takes the option that waits, with its value. -/
def settle (s : Scan) : Except UsageError Scan :=
  match s.waiting with
  | none => .ok s
  | some (option, value) => do
    return { s with given := ← takeValue s.given option value, waiting := none }

/-- Takes an option together with its value. -/
def accept (s : Scan) (option : CommandOption) (value : String) : Except UsageError Scan := do
  let s ← s.settle
  return { s with given := ← takeValue s.given option (some value) }

/-- Takes an option whose value is the next word. -/
def await (s : Scan) (option : CommandOption) : Except UsageError Scan := do
  return { (← s.settle) with waiting := some (option, none) }

/-- Takes an option that stands alone. -/
def raise (s : Scan) (option : CommandOption) : Except UsageError Scan := do
  let s ← s.settle
  return { s with given := ← takeFlag s.given option }

/-- Takes a long name. -/
def long (s : Scan) (name : String) (value : Option String) : Except UsageError Scan :=
  match s.options.find? (·.name == name), value with
  | none, _ => .error .unknownArgument
  | some option, none => if option.use.takesValue then s.await option else s.raise option
  | some option, some value =>
    if option.use.takesValue then s.accept option value else .error .needlessValue

/-- Takes letters. The letters behind one that a value belongs to are that value. -/
def letters (s : Scan) : List Char → Except UsageError Scan
  | [] => .ok s
  | c :: rest =>
    match s.options.find? (·.letter == some c) with
    | none => .error .unknownArgument
    | some option =>
      if option.use.takesValue then
        match rest with
        | [] => s.await option
        | '=' :: value => s.accept option (String.ofList value)
        | value => s.accept option (String.ofList value)
      else do letters (← s.raise option) rest

/-- Takes a word that is no option. It is the value of the option that waits for one. -/
def plain (s : Scan) (text : String) : Except UsageError Scan :=
  match s.waiting with
  | some (option, none) => .ok { s with waiting := some (option, some text) }
  | _ => .error .unknownArgument

/-- Takes a word. -/
def word (s : Scan) (text : String) : Except UsageError Scan :=
  if s.closed then .error .unknownArgument
  else
    match Word.ofString text with
    | .separator => .ok { s with closed := true }
    | .long name value => s.long name value
    | .letters letters => s.letters letters
    | .plain text => s.plain text

end Scan

/-! ### Commands -/

/-- The value of an option that the command needs. -/
def Given.required (given : Given) (name : String) : Except UsageError String :=
  match given.lookup name with
  | some value => .ok value
  | none => .error .missingOption

/-- The scheme that is given, and else the standard one. -/
def Given.scheme (given : Given) : Except UsageError Scheme :=
  match given.lookup "scheme" with
  | some value => (Scheme.parse value).mapError fun _ => .wrongValue
  | none => .ok .standard

/-- A command with its options. -/
structure CommandForm where
  /-- Its name. -/
  name : String
  /-- Its own options. -/
  options : List CommandOption
  /-- The command for the options that are given. -/
  command : Given → Except UsageError Command

/-- The commands. -/
def forms : List CommandForm := [
  { name := "translate"
    options := [⟨"model", some 'm', .path⟩, ⟨"output", some 'o', .path⟩, ⟨"stand-in", none, .flag⟩]
    command := fun given => do
      let model ← given.required "model"
      let output ← given.required "output"
      return .translate model output (given.lookup "stand-in").isSome },
  { name := "quantize"
    options := [⟨"input", some 'i', .path⟩, ⟨"output", some 'o', .path⟩,
      ⟨"scheme", none, .scheme⟩, ⟨"preserve-type", none, .flag⟩, ⟨"ranges", some 'r', .path⟩]
    command := fun given => do
      let input ← given.required "input"
      let output ← given.required "output"
      let options : QuantizerOptions := ⟨← given.scheme, (given.lookup "preserve-type").isSome⟩
      return .quantize input output options (given.lookup "ranges") },
  { name := "inspect"
    options := [⟨"input", some 'i', .path⟩]
    command := fun given => return .inspect (← given.required "input") }]

/-- The command of the given name. -/
def form? (name : String) : Option CommandForm := forms.find? (·.name == name)

/-- Reads the words behind the name of a command. -/
def CommandForm.parse (f : CommandForm) (words : List String) : Except UsageError Command := do
  let s ← words.foldlM Scan.word { options := f.options ++ commonOptions }
  f.command (← s.settle).given

/-- The word that asks for help on the command named behind it. -/
def helpWord : String := "help"

/-- What is said to a request for help on commands. No command has commands of its own. -/
def helpOn : List String → UsageError
  | [] => .help
  | [name] => if (form? name).isSome || name == helpWord then .help else .unknownCommand
  | _ => .unknownCommand

/-- Reads words up to the name of a command, and the command. -/
def parseFrom (s : Scan) : List String → Except UsageError Command
  | [] => .error (if s.given.isEmpty then .nothing else .missingCommand)
  | text :: rest =>
    match form? text with
    | some f => if s.closed then .error .unknownArgument else f.parse rest
    | none =>
      if text = helpWord then .error (if s.closed then .unknownArgument else helpOn rest)
      else
        match s.closed, Word.ofString text with
        | true, _ | _, .plain _ => .error .unknownCommand
        | false, _ => do parseFrom (← s.word text) rest

end CommandLine

/-- Reads a command line. -/
def Command.parse (words : List String) : Except UsageError Command :=
  CommandLine.parseFrom { options := CommandLine.leadingOptions } words

end LayerGraph
