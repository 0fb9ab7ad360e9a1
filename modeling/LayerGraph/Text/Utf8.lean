import LayerGraph.Instances

/-! # Text as bytes

  `Utf8.encode` writes text and `Utf8.decode` reads it. The decoder accepts exactly the
  shortest encodings of scalar values, and says where and how long the first rejected
  sequence is: its length counts the bytes that could still have begun a character.
-/

namespace LayerGraph

namespace Utf8

/-- Why bytes are not text. -/
inductive DecodeError where
  /-- The `length` bytes from `index` on begin no character. -/
  | invalid (length index : Nat)
  /-- The bytes end inside the character that begins at `index`. -/
  | incomplete (index : Nat)
deriving DecidableEq, Repr

/-- Describes where decoding stopped. -/
def DecodeError.message : DecodeError → String
  | .invalid length index => s!"invalid utf-8 sequence of {length} bytes from index {index}"
  | .incomplete index => s!"incomplete utf-8 byte sequence from index {index}"

/-- The bytes of a text. -/
def encode (text : String) : List UInt8 := text.toList.flatMap String.utf8EncodeChar

/-- What the first byte of a character of several bytes says about the others. -/
structure Lead where
  /-- The bits of the scalar value in the first byte. -/
  payload : Nat
  /-- Number of bytes that follow. -/
  extra : Nat
  /-- Least value of the second byte. -/
  lowest : UInt8
  /-- Greatest value of the second byte. -/
  highest : UInt8

/-- Reads a byte that is not ASCII as the first of a character. The bounds on the second
    byte leave out overlong encodings, surrogates and values beyond the last scalar. -/
def lead? (b : UInt8) : Option Lead :=
  if b < 0xC2 then none
  else if b < 0xE0 then some ⟨b.toNat % 32, 1, 0x80, 0xBF⟩
  else if b = 0xE0 then some ⟨0, 2, 0xA0, 0xBF⟩
  else if b = 0xED then some ⟨13, 2, 0x80, 0x9F⟩
  else if b < 0xF0 then some ⟨b.toNat % 16, 2, 0x80, 0xBF⟩
  else if b = 0xF0 then some ⟨0, 3, 0x90, 0xBF⟩
  else if b < 0xF4 then some ⟨b.toNat % 8, 3, 0x80, 0xBF⟩
  else if b = 0xF4 then some ⟨4, 3, 0x80, 0x8F⟩
  else none

/-- Adds the bits of the remaining bytes to the scalar value of the character at `index`,
    of which `taken` bytes have been read. -/
def follow (index taken payload : Nat) (lowest highest : UInt8) :
    Nat → List UInt8 → Except DecodeError Nat
  | 0, _ => .ok payload
  | _ + 1, [] => .error (.incomplete index)
  | extra + 1, b :: rest =>
    if lowest ≤ b ∧ b ≤ highest then
      follow index (taken + 1) (payload * 64 + b.toNat % 64) 0x80 0xBF extra rest
    else .error (.invalid taken index)

/-- Decodes bytes of which the first has the given index. -/
def decodeFrom (index : Nat) (bytes : List UInt8) : Except DecodeError (List Char) :=
  match bytes with
  | [] => .ok []
  | b :: rest =>
    if b < 0x80 then do
      let chars ← decodeFrom (index + 1) rest
      return Char.ofNat b.toNat :: chars
    else match lead? b with
      | none => .error (.invalid 1 index)
      | some lead => do
        let scalar ← follow index 1 lead.payload lead.lowest lead.highest lead.extra rest
        let chars ← decodeFrom (index + 1 + lead.extra) (rest.drop lead.extra)
        return Char.ofNat scalar :: chars
termination_by bytes.length
decreasing_by all_goals (simp only [List.length_cons, List.length_drop]; omega)

/-- The text that the bytes encode. -/
def decode (bytes : List UInt8) : Except DecodeError String := do
  let chars ← decodeFrom 0 bytes
  return String.ofList chars

end Utf8

end LayerGraph
