import LayerGraph.Command.Run

/-! # Files as values

  A directory is a value: the files that commands can reach, with their places. Commands run
  on it without touching the machine. A path leads from the directory that commands run in,
  or from the root when it begins with a slash. There are directories around the one that
  commands run in, but nothing is in them that no command has made.

  **Which error is told.** A path is followed part by part, and the first part that cannot
  be followed decides. Before that, the text as a whole is looked at.
-/

namespace LayerGraph

/-! ### Places -/

/-- A directory that is there whatever the files are. -/
inductive Base where
  /-- The one so many levels above the one that commands run in; zero is that one. -/
  | above (levels : Nat)
  /-- The one that contains all others. -/
  | root
deriving DecidableEq, Repr

/-- Where a file can be. -/
structure Place where
  /-- The directory that the names lead from. -/
  base : Base := .above 0
  /-- The names, outermost first. -/
  names : List String
deriving DecidableEq, Repr

namespace Place

/-- The place of a name in a directory. -/
def child (place : Place) (name : String) : Place := { place with names := place.names ++ [name] }

/-- The directory around a place. The root is around itself. -/
def parent (place : Place) : Place :=
  if place.names.isEmpty then
    match place.base with
    | .above levels => ⟨.above (levels + 1), []⟩
    | .root => place
  else { place with names := place.names.dropLast }

/-- Whether the second place is the first one or is below it. -/
def covers (place other : Place) : Bool :=
  place.base == other.base && place.names.isPrefixOf other.names

end Place

/-! ### Directories -/

/-- Files by their places. A directory is there when a file is below it. -/
structure Directory where
  /-- The files with their bytes. -/
  files : List (Place × List UInt8) := []
deriving DecidableEq, Repr

namespace Directory

/-- What is at a place. -/
inductive Entry where
  /-- A file. -/
  | file (bytes : List UInt8)
  /-- A directory. -/
  | directory
  /-- Nothing. -/
  | absent
deriving DecidableEq, Repr

/-- What is at a place. -/
def entry (d : Directory) (place : Place) : Entry :=
  match d.files.lookup place with
  | some bytes => .file bytes
  | none =>
    if place.names.isEmpty || d.files.any (place.covers ·.1) then .directory else .absent

/-! ### Following paths -/

/-- The greatest number of bytes in a name. -/
def longestName : Nat := 255

/-- The greatest number of bytes in the text of a path. -/
def longestPath : Nat := 4095

/-- Where the text of a path begins, and the parts to follow from there. -/
def start (path : String) : Except FileError (Place × List String) :=
  if path.contains '\x00' then .error .zeroByte
  else if longestPath < path.utf8ByteSize then .error .nameTooLong
  else if path.isEmpty then .error .notFound
  else .ok (⟨if path.startsWith "/" then .root else .above 0, []⟩, path.splitOn "/")

/-- Follows one part of a path from a place, which must be a directory. -/
def step (d : Directory) (place : Place) (part : String) : Except FileError Place :=
  match d.entry place with
  | .file _ => .error .notDirectory
  | .absent => .error .notFound
  | .directory =>
    if part = "" ∨ part = "." then .ok place
    else if part = ".." then .ok place.parent
    else if longestName < part.utf8ByteSize then .error .nameTooLong
    else .ok (place.child part)

/-- The place that the text of a path leads to. -/
def resolve (d : Directory) (path : String) : Except FileError Place := do
  let (place, parts) ← start path
  parts.foldlM d.step place

/-- The bytes of a file. -/
def read (d : Directory) (path : String) : Except FileError (List UInt8) := do
  match d.entry (← d.resolve path) with
  | .file bytes => return bytes
  | .directory => throw .isDirectory
  | .absent => throw .notFound

/-! ### Making files -/

/-- The directory with the bytes of a file set. -/
def put (d : Directory) (place : Place) (bytes : List UInt8) : Directory :=
  ⟨(place, bytes) :: d.files.filter (·.1 ≠ place)⟩

/-- The place for a file to be made. A path that ends in a slash is one of a directory,
    whatever the last name before it is; that name is not looked at. -/
def placeFor (d : Directory) (path : String) : Except FileError Place := do
  let (place, parts) ← start path
  let parts := (parts.reverse.dropWhile (· = "")).reverse
  let around ← parts.dropLast.foldlM d.step place
  let around ← d.step around ""
  if path.endsWith "/" then throw .isDirectory
  let place ← parts.getLast?.toList.foldlM d.step around
  match d.entry place with
  | .directory => throw .isDirectory
  | _ => return place

/-- Access to the files of a directory. -/
def access : FileAccess (StateM Directory) where
  read path := return (← get).read path
  create path := do
    match (← get).placeFor path with
    | .ok place => do
      modify (·.put place [])
      return .ok ()
    | .error e => return .error e
  write path bytes := do
    match (← get).resolve path with
    | .ok place => do
      modify (·.put place bytes)
      return .ok ()
    | .error e => return .error e

/-- Runs a command on the files of a directory. -/
def run (d : Directory) (extent : RangeExtent) (supply : GuidSupply) (command : Command) :
    (Except CommandError (Option String) × GuidSupply) × Directory :=
  ((Command.run access extent command).run supply).run d

end Directory

end LayerGraph
