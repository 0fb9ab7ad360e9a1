import LayerGraph.Container.Error
import LayerGraph.Quantize.Error
import LayerGraph.Lowering.Error

/-! # What can go wrong while running a command

  A failure is told as a chain of texts: first what the command was doing, then what was
  wrong, and then what was behind that.
-/

namespace LayerGraph

/-- Why a file cannot be read or written. -/
inductive FileError where
  /-- There is no such file. -/
  | notFound
  /-- A part of the path that is no directory. -/
  | notDirectory
  /-- A directory where a file is needed. -/
  | isDirectory
  /-- A name, or the path as a whole, with more bytes than a file system takes. -/
  | nameTooLong
  /-- A path with a character that ends names. -/
  | zeroByte
  /-- Another reason of the file system. -/
  | other (reason : String)
deriving DecidableEq, Repr

/-- Describes the error. -/
def FileError.message : FileError → String
  | notFound => "No such file or directory (os error 2)"
  | notDirectory => "Not a directory (os error 20)"
  | isDirectory => "Is a directory (os error 21)"
  | nameTooLong => "File name too long (os error 36)"
  | zeroByte => "file name contained an unexpected NUL byte"
  | other reason => reason

/-- Why a command fails. -/
inductive CommandError where
  /-- A file cannot be read. -/
  | reading (path : String) (cause : FileError)
  /-- The file of a model is no text. -/
  | notText (path : String)
  /-- The text of a model is no document of one. -/
  | modelDocument
  /-- The model cannot be lowered. -/
  | lowering (cause : LoweringError)
  /-- The container cannot be read. -/
  | deserializing (path : String) (cause : ContainerError)
  /-- Ranges cannot be estimated. -/
  | estimating (cause : QuantizationError)
  /-- The file of ranges cannot be opened. -/
  | opening (path : String) (cause : FileError)
  /-- The file of ranges is no document of ranges. -/
  | rangesDocument (path : String)
  /-- The ranges of the document cannot be recorded. -/
  | recording (cause : QuantizationError)
  /-- The graph cannot be quantized. -/
  | quantizing (cause : QuantizationError)
  /-- The file to write cannot be made. -/
  | creating (path : String) (cause : FileError)
  /-- The graph cannot be written. -/
  | serializing (cause : ContainerError)
  /-- The bytes cannot be put into the file. -/
  | writing (path : String) (cause : FileError)
  /-- A graph that was read cannot be written again. -/
  | reserializing (cause : ContainerError)
  /-- A number that does not fit. It is not reported: the program stops. -/
  | overflow (operation : Overflow)
deriving DecidableEq, Repr

/-- What is said in place of what is wrong with a document. -/
def documentText : String := "<json>"

/-- The text of an error with that of the graph error behind it. -/
def LoweringError.chain (e : LoweringError) : List String :=
  match e with
  | .graph _ cause | .incomplete cause => [e.message, cause.message]
  | _ => [e.message]

/-- The text of an error with that of the graph error behind it. -/
def ContainerError.chain (e : ContainerError) : List String :=
  match e with
  | .incompleteGraph cause => [e.message, cause.message]
  | _ => [e.message]

/-- The failure of a command whose model cannot be lowered. -/
def CommandError.ofLowering : LoweringError → CommandError
  | .overflow operation => .overflow operation
  | cause => .lowering cause

/-- The failure of a command whose graph cannot be quantized. -/
def CommandError.ofQuantization : QuantizationError → CommandError
  | .overflow operation => .overflow operation
  | cause => .quantizing cause

/-- The texts of a failure, what the command was doing first. -/
def CommandError.chain : CommandError → List String
  | reading path cause => ["reading " ++ path, cause.message]
  | notText path => ["reading " ++ path, "stream did not contain valid UTF-8"]
  | modelDocument => ["parsing source model", documentText]
  | lowering cause => "translating source model" :: cause.chain
  | deserializing path cause => ("deserializing " ++ path) :: cause.chain
  | estimating cause => ["estimating ranges", cause.message]
  | opening path cause => ["opening " ++ path, cause.message]
  | rangesDocument path => ["parsing ranges from " ++ path, documentText]
  | recording cause => [cause.message]
  | quantizing cause => ["quantizing graph", cause.message]
  | creating path cause => ["creating " ++ path, cause.message]
  | serializing cause => "serializing graph" :: cause.chain
  | writing path cause => ["writing " ++ path, cause.message]
  | reserializing cause => "reserializing graph" :: cause.chain
  | overflow operation => [operation.message]

end LayerGraph
