import LayerGraph.Numeric.Scaling

/-! # JSON documents

  A document is read and written as a `Json` value. Numbers stay numerals, since what a
  number means depends on the field it stands in; the members of an object keep their order
  and their repetitions, since some readers refuse a repeated name and some do not.
-/

namespace LayerGraph

/-- A JSON value. A text is absent when its escapes name half of a surrogate pair: such a
    string can be passed over but has no value. -/
inductive Json where
  /-- The literal null. -/
  | null
  /-- A truth value. -/
  | bool (value : Bool)
  /-- A number as it was written. -/
  | number (value : Numeral)
  /-- A string. -/
  | string (value : Option String)
  /-- A list of values. -/
  | array (items : List Json)
  /-- Named values, in order. -/
  | object (members : List (Option String × Json))
deriving Inhabited

namespace Json

/-- A string that has a value. -/
def ofString (text : String) : Json := .string (some text)

/-- An integer. -/
def ofInt (n : Int) : Json := .number (.ofInt n)

/-- An object with the given members. -/
def ofMembers (members : List (String × Json)) : Json :=
  .object (members.map fun (name, value) => (some name, value))

/-- The value of the last member of the given name. -/
def member? (json : Json) (name : String) : Option Json :=
  match json with
  | .object members => (members.reverse.find? (·.1 == some name)).map (·.2)
  | _ => none

/-- The value of a string. -/
def text? : Json → Option String
  | .string value => value
  | _ => none

/-- The value of a number that is written as an integer. A zero with a minus sign is not
    one. -/
def int? : Json → Option Int
  | .number n =>
    let magnitude := Numeral.ofDigits n.whole
    if !n.isInteger then none
    else if n.negative then if magnitude = 0 then none else some (-magnitude)
    else some magnitude
  | _ => none

/-- The value of a number as double precision. A number that is too large has none. -/
def binary64? : Json → Option Binary64
  | .number n => n.toBinary64?
  | _ => none

/-- The value of a number as single precision. An integer of at most 64 bits is rounded
    once. Any other number is read as double precision first. -/
def binary32? (json : Json) : Option Binary32 :=
  match json.int? with
  | some n => if -2 ^ 63 ≤ n ∧ n < 2 ^ 64 then some (.ofInt n) else viaBinary64
  | none => viaBinary64
where
  /-- Rounds the value in double precision once more. -/
  viaBinary64 : Option Binary32 := json.binary64?.map (Binary.convert .binary32)

end Json

end LayerGraph
