import LayerGraph.Choice
import LayerGraph.Json.Basic

/-! # Records in JSON documents

  How plain values stand in documents, and how records do. A record is a fixed list of
  named fields. A document writes it as an object, or as an array of the fields in their
  order. Members of an object with other names are passed over, but a field must not be
  named twice.
-/

namespace LayerGraph

namespace Json

/-! ### Reading values -/

/-- An integer from `lo` to `hi`. -/
def intIn? (lo hi : Int) (json : Json) : Option Int :=
  json.int?.filter fun n => lo ≤ n && n ≤ hi

/-- A signed integer of 32 bits. -/
def int32? (json : Json) : Option Int32 := (json.intIn? (-2 ^ 31) (2 ^ 31 - 1)).map Int32.ofInt

/-- A signed integer of 64 bits. -/
def int64? (json : Json) : Option Int64 := (json.intIn? (-2 ^ 63) (2 ^ 63 - 1)).map Int64.ofInt

/-- An unsigned integer of 32 bits. -/
def uint32? (json : Json) : Option UInt32 := (json.intIn? 0 (2 ^ 32 - 1)).map (UInt32.ofNat ·.toNat)

/-- An unsigned byte. -/
def uint8? (json : Json) : Option UInt8 := (json.intIn? 0 255).map (UInt8.ofNat ·.toNat)

/-- A truth value. -/
def bool? : Json → Option Bool
  | .bool value => some value
  | _ => none

/-- A list of values, each read by `item`. -/
def list? {α : Type} (item : Json → Option α) : Json → Option (List α)
  | .array items => items.mapM item
  | _ => none

/-- A value that may be null. -/
def nullable? {α : Type} (item : Json → Option α) : Json → Option (Option α)
  | .null => some none
  | json => (item json).map some

/-- A named value: a string, or an object whose only member has the name and is null. -/
def choiceText? : Json → Option String
  | .string text => text
  | .object [(text, .null)] => text
  | _ => none

/-- A value of a type with named values. -/
def choice? {α : Type} [Choice α] (json : Json) : Option α := json.choiceText?.bind Choice.ofName?

/-! ### Writing values -/

/-- A list of values, each written by `item`. -/
def ofList {α : Type} (item : α → Json) (values : List α) : Json := .array (values.map item)

/-- A value of a type with named values. -/
def ofChoice {α : Type} [DecidableEq α] [Choice α] (value : α) : Json :=
  ofString (Choice.name value)

/-- A single precision value; null when it is not a real number. -/
def ofBinary32 (x : Binary32) : Json :=
  match x.numeral? Binary.binary32Range with
  | some n => .number n
  | none => .null

/-- A signed integer of 32 bits. -/
def ofInt32 (n : Int32) : Json := ofInt n.toInt

/-- An unsigned integer of 32 bits. -/
def ofUInt32 (n : UInt32) : Json := ofInt n.toNat

/-- A member that is left out when there is no value. -/
def optionalMember {α : Type} (name : String) (item : α → Json) (value : Option α) :
    List (String × Json) :=
  (value.map fun value => (name, item value)).toList

/-! ### Records -/

/-- The fields of a record that a document has. -/
abbrev Record := List (String × Json)

/-- Reads a record with the given fields. An array may leave out fields at its end. -/
def record? (fields : List String) : Json → Option Record
  | .object members => do
    let named ← members.mapM fun (name, value) => name.map fun name => (name, value)
    let present := named.filter fun (name, _) => fields.contains name
    if (present.map (·.1)).Nodup then some present else none
  | .array items => if items.length ≤ fields.length then some (fields.zip items) else none
  | _ => none

namespace Record

/-- The value of a field. -/
def get? (record : Record) (name : String) : Option Json := record.lookup name

/-- A field that must be there. -/
def required {α : Type} (record : Record) (name : String) (value : Json → Option α) : Option α :=
  (record.get? name).bind value

/-- A field with a value for when it is not there. -/
def withDefault {α : Type} (record : Record) (name : String) (default : α)
    (value : Json → Option α) : Option α :=
  match record.get? name with
  | none => some default
  | some json => value json

end Record

end Json

end LayerGraph
