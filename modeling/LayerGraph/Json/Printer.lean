import LayerGraph.Json.Basic

/-! # Writing JSON text

  Two layouts of a value: `Json.compact` has no blanks, `Json.pretty` puts every item and
  member on a line of its own, two spaces deeper than what holds it.
-/

namespace LayerGraph

namespace Json

/-! ### Strings -/

/-- The hexadecimal digit of a number below sixteen. -/
def hexDigit (n : Nat) : Char := Nat.digitChar n

/-- A character as it stands in a string. Control characters without an escape of one
    letter are numbered. -/
def escapeChar (c : Char) : List Char :=
  match c with
  | '"' => ['\\', '"']
  | '\\' => ['\\', '\\']
  | '\x08' => ['\\', 'b']
  | '\x0c' => ['\\', 'f']
  | '\n' => ['\\', 'n']
  | '\r' => ['\\', 'r']
  | '\t' => ['\\', 't']
  | c =>
    if c.toNat < 0x20 then
      ['\\', 'u', '0', '0', hexDigit (c.toNat / 16), hexDigit (c.toNat % 16)]
    else [c]

/-- A string in quotes. -/
def quote (text : String) : List Char := '"' :: (text.toList.flatMap escapeChar ++ ['"'])

/-- A string that may have no value; the printer writes such a one as empty. -/
def quote? (text : Option String) : List Char := quote (text.getD "")

/-! ### Layouts -/

/-- The texts of a list, with `separator` between them. -/
def join (separator : List Char) (texts : List (List Char)) : List Char :=
  (texts.intersperse separator).flatten

mutual

/-- A value without blanks. -/
def compact : Json → List Char
  | .null => ['n', 'u', 'l', 'l']
  | .bool true => ['t', 'r', 'u', 'e']
  | .bool false => ['f', 'a', 'l', 's', 'e']
  | .number n => n.toList
  | .string text => quote? text
  | .array list => '[' :: (join [','] (compactItems list) ++ [']'])
  | .object list => '\x7b' :: (join [','] (compactMembers list) ++ ['\x7d'])

/-- The items of an array without blanks. -/
def compactItems : List Json → List (List Char)
  | [] => []
  | item :: rest => compact item :: compactItems rest

/-- The members of an object without blanks. -/
def compactMembers : List (Option String × Json) → List (List Char)
  | [] => []
  | (name, item) :: rest => (quote? name ++ ':' :: compact item) :: compactMembers rest

end

/-- The start of a line at the given depth. -/
def newline (depth : Nat) : List Char := '\n' :: List.replicate (2 * depth) ' '

/-- Lines between two brackets, each one deeper than the brackets. -/
def block (opening closing : Char) (depth : Nat) (lines : List (List Char)) : List Char :=
  if lines.isEmpty then [opening, closing]
  else
    opening :: (newline (depth + 1) ++ join (',' :: newline (depth + 1)) lines
      ++ newline depth ++ [closing])

mutual

/-- A value whose first line stands at the given depth. -/
def prettyAt (depth : Nat) : Json → List Char
  | .null => ['n', 'u', 'l', 'l']
  | .bool true => ['t', 'r', 'u', 'e']
  | .bool false => ['f', 'a', 'l', 's', 'e']
  | .number n => n.toList
  | .string text => quote? text
  | .array list => block '[' ']' depth (prettyItems (depth + 1) list)
  | .object list => block '\x7b' '\x7d' depth (prettyMembers (depth + 1) list)

/-- The items of an array at the given depth. -/
def prettyItems (depth : Nat) : List Json → List (List Char)
  | [] => []
  | item :: rest => prettyAt depth item :: prettyItems depth rest

/-- The members of an object at the given depth. -/
def prettyMembers (depth : Nat) : List (Option String × Json) → List (List Char)
  | [] => []
  | (name, item) :: rest =>
    (quote? name ++ ':' :: ' ' :: prettyAt depth item) :: prettyMembers depth rest

end

/-- A document in the layout with lines. -/
def pretty (json : Json) : String := String.ofList (prettyAt 0 json)

end Json

end LayerGraph
