import LayerGraph.Container.Codec

/-! # Features of containers

  Parts of the format have versions of their own, kept in a table at the start of a
  container. A feature that is not in the table has version zero. An unknown feature does
  no harm as long as its version is zero.
-/

namespace LayerGraph

/-- The versions of the parts of the format. -/
structure Features where
  /-- Zero: boundaries are listed by layer number. One: by binding. -/
  bindingIds : UInt32 := 0
  /-- Zero: depthwise weights are `[1, H, W, I * M]`. One: `[M, I, H, W]`. -/
  weightsLayout : UInt32 := 0
  /-- Zero: constants belong to the layers that use them. -/
  constantsAsInputs : UInt32 := 0
deriving DecidableEq, Repr

namespace Features

/-- The versions that are written, which are the newest that are read. -/
def current : Features := ⟨1, 1, 0⟩

/-- The numbers of the features with their versions. -/
def entries (f : Features) : List (UInt16 × UInt32) :=
  [(0, f.bindingIds), (1, f.weightsLayout), (2, f.constantsAsInputs)]

/-- The versions with that of one feature set, if the number is that of a feature. -/
def set? (f : Features) (feature : UInt16) (version : UInt32) : Option Features :=
  match feature.toNat with
  | 0 => some { f with bindingIds := version }
  | 1 => some { f with weightsLayout := version }
  | 2 => some { f with constantsAsInputs := version }
  | _ => none

/-- The newest version of a feature that is understood. -/
def newest (feature : UInt16) : UInt32 := (current.entries.lookup feature).getD 0

/-- An entry of the table. -/
def entry : Codec (UInt16 × UInt32) := Codec.uint16.seq Codec.uint32

/-- The table of features. -/
def write (f : Features) : Except ContainerError (List UInt8) := (Codec.list 6 entry).write f.entries

/-- Reads an entry, after entries for the given features. -/
def readEntry (seen : List UInt16) (f : Features) : Read (List UInt16 × Features) := do
  let start ← Read.offset
  let (feature, version) ← entry.read
  if seen.contains feature then Read.refuse start (.featureTwice feature)
  if newest feature < version then throw (.unsupported start (.feature feature version))
  return (feature :: seen, (f.set? feature version).getD f)

/-- Reads so many entries. -/
def readEntries : Nat → List UInt16 → Features → Read Features
  | 0, _, f => return f
  | count + 1, seen, f => do
    let (seen, f) ← readEntry seen f
    readEntries count seen f

/-- Reads the table. -/
def read : Read Features := do readEntries (← (Codec.length 6).read) [] {}

end Features

end LayerGraph
