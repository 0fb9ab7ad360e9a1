import LayerGraph.Choice
import LayerGraph.Container.Error
import LayerGraph.Numeric.LittleEndian

/-! # Codecs

  A codec writes values of a type as bytes and reads them back. The codecs of containers
  are built from those of numbers by a few combinators, so that what is written for a type
  and what is read for it are said in one place.
-/

namespace LayerGraph

/-! ### Reading -/

/-- A place in the bytes of a container. -/
structure Cursor where
  /-- Number of bytes before the place. -/
  offset : Nat
  /-- The bytes from the place on. -/
  rest : List UInt8
deriving DecidableEq, Repr

/-- The start of some bytes. -/
def Cursor.start (bytes : List UInt8) : Cursor := ⟨0, bytes⟩

/-- A computation that reads bytes from a cursor on. -/
abbrev Read := StateT Cursor (Except ContainerError)

namespace Read

/-- The offset of the cursor. -/
def offset : Read Nat := return (← get).offset

/-- Refuses the bytes at an offset. -/
def refuse {α : Type} (offset : Nat) (fault : ContainerFault) : Read α :=
  throw (.format offset fault)

/-- Reads so many bytes. -/
def bytes (count : Nat) : Read (List UInt8) := fun c =>
  if count ≤ c.rest.length then .ok (c.rest.take count, ⟨c.offset + count, c.rest.drop count⟩)
  else .error (.format c.offset .endOfBuffer)

/-- Repeats a computation, and gives what it read each time. -/
def times {α : Type} (read : Read α) : Nat → Read (List α)
  | 0 => return []
  | count + 1 => do
    let head ← read
    let tail ← times read count
    return head :: tail

end Read

/-! ### Codecs -/

/-- How values of a type are written and read. -/
structure Codec (α : Type) where
  /-- The bytes of a value, unless a length in it is too large. -/
  write : α → Except ContainerError (List UInt8)
  /-- Reads a value. -/
  read : Read α

namespace Codec

variable {α β : Type}

/-- Unsigned bytes. -/
def uint8 : Codec UInt8 where
  write n := .ok [n]
  read := return UInt8.ofNat (LittleEndian.decode (← Read.bytes 1))

/-- Unsigned integers of 16 bits. -/
def uint16 : Codec UInt16 where
  write n := .ok (LittleEndian.encode 2 n.toNat)
  read := return UInt16.ofNat (LittleEndian.decode (← Read.bytes 2))

/-- Unsigned integers of 32 bits. -/
def uint32 : Codec UInt32 where
  write n := .ok (LittleEndian.encode 4 n.toNat)
  read := return UInt32.ofNat (LittleEndian.decode (← Read.bytes 4))

/-- Signed integers of 32 bits. -/
def int32 : Codec Int32 where
  write n := .ok (LittleEndian.encodeInt 4 n.toInt)
  read := return Int32.ofInt (LittleEndian.decodeInt (← Read.bytes 4))

/-- Single precision values. -/
def binary32 : Codec Binary32 where
  write x := .ok (LittleEndian.encodeBinary x)
  read := return LittleEndian.decodeBinary .binary32 (← Read.bytes 4)

/-- Values of another type that stand for the values written. -/
def imap (c : Codec α) (ofRaw : α → β) (toRaw : β → α) : Codec β where
  write b := c.write (toRaw b)
  read := return ofRaw (← c.read)

/-- One value after another. -/
def seq (c : Codec α) (d : Codec β) : Codec (α × β) where
  write := fun (a, b) => do return (← c.write a) ++ (← d.write b)
  read := do
    let a ← c.read
    let b ← d.read
    return (a, b)

/-- Values that not every raw value stands for. A raw value that stands for none is refused
    at the offset where it began. -/
def refine (c : Codec α) (ofRaw : α → Except ContainerFault β) (toRaw : β → α) : Codec β where
  write b := c.write (toRaw b)
  read := do
    let start ← Read.offset
    match ofRaw (← c.read) with
    | .ok b => return b
    | .error fault => Read.refuse start fault

/-- Truth values, zero or one. -/
def bool : Codec Bool :=
  uint8.refine
    (fun byte => if byte = 0 then .ok false else if byte = 1 then .ok true
      else .error (.notBoolean byte))
    Bool.toUInt8

/-- Values of a type with named values, each as the byte given for it. -/
def tagged [DecidableEq α] [Choice α] (tags : List (α × UInt8)) : Codec α :=
  uint8.refine
    (fun byte => match tags.find? (·.2 == byte) with
      | some (a, _) => .ok a
      | none => .error (.notTag byte (Choice.title α)))
    (fun a => (tags.lookup a).getD 0)

/-- Values of a type with named values, each as its position among them. -/
def choice [DecidableEq α] [Choice α] : Codec α :=
  tagged ((Choice.named : List (α × String)).zipIdx.map fun ((a, _), i) => (a, UInt8.ofNat i))

/-- Lengths. A length is refused when that many items, of at least `itemSize` bytes each,
    do not fit in the rest of the bytes. -/
def length (itemSize : Nat) : Codec Nat where
  write n := if n < 2 ^ 32 then uint32.write (.ofNat n) else .error (.lengthTooLarge n)
  read := do
    let start ← Read.offset
    let n := (← uint32.read).toNat
    if (← get).rest.length < n * itemSize then Read.refuse start (.overrun n)
    return n

/-- Lists with their length in front; each item has at least `itemSize` bytes. -/
def list (itemSize : Nat) (item : Codec α) : Codec (List α) where
  write as := do return (← (length itemSize).write as.length) ++ (← as.mapM item.write).flatten
  read := do item.read.times (← (length itemSize).read)

/-- Bytes with their length in front. -/
def blob : Codec (List UInt8) where
  write bytes := do return (← (length 1).write bytes.length) ++ bytes
  read := do Read.bytes (← (length 1).read)

/-- Texts. -/
def text : Codec String := blob.refine (fun bytes => (Utf8.decode bytes).mapError .text) Utf8.encode

/-- Values that may be absent. -/
def optional (c : Codec α) : Codec (Option α) where
  write
    | none => bool.write false
    | some a => do return (← bool.write true) ++ (← c.write a)
  read := do if ← bool.read then return some (← c.read) else return none

/-- Lists of unsigned integers of 32 bits. -/
def uint32s : Codec (List UInt32) := list 4 uint32

/-- Lists of signed integers of 32 bits. -/
def int32s : Codec (List Int32) := list 4 int32

/-- Lists of pairs of unsigned integers of 32 bits. -/
def pairs : Codec (List (UInt32 × UInt32)) := list 8 (uint32.seq uint32)

end Codec

end LayerGraph
