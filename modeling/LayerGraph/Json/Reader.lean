import LayerGraph.Json.Basic

/-! # Reading JSON text

  A recursive descent over the characters. Each function takes the text from where it
  stands and gives what it read together with the rest; nothing is read when the text does
  not fit. The nesting is bounded by the length of the text.
-/

namespace LayerGraph

namespace Json

/-! ### Characters -/

/-- The characters that may stand between tokens. -/
def isBlank (c : Char) : Bool := c == ' ' || c == '\t' || c == '\n' || c == '\r'

/-- The text from its first character that is not blank. -/
def skipBlank (text : List Char) : List Char := text.dropWhile isBlank

/-- Value of a hexadecimal digit. -/
def hexValue? (c : Char) : Option Nat :=
  if '0' ≤ c ∧ c ≤ '9' then some (c.toNat - '0'.toNat)
  else if 'a' ≤ c ∧ c ≤ 'f' then some (c.toNat - 'a'.toNat + 10)
  else if 'A' ≤ c ∧ c ≤ 'F' then some (c.toNat - 'A'.toNat + 10)
  else none

/-- Reads the four digits of a numbered escape. -/
def codeUnit : List Char → Option (Nat × List Char)
  | a :: b :: c :: d :: rest => do
    let a ← hexValue? a
    let b ← hexValue? b
    let c ← hexValue? c
    let d ← hexValue? d
    return (((a * 16 + b) * 16 + c) * 16 + d, rest)
  | _ => none

/-- Whether a code unit is the first half of a surrogate pair. -/
def isHighSurrogate (unit : Nat) : Bool := 0xD800 ≤ unit && unit < 0xDC00

/-- Whether a code unit is the second half of a surrogate pair. -/
def isLowSurrogate (unit : Nat) : Bool := 0xDC00 ≤ unit && unit < 0xE000

/-! ### Strings -/

/-- The escapes of one letter. -/
def simpleEscape? : Char → Option Char
  | '"' => some '"'
  | '\\' => some '\\'
  | '/' => some '/'
  | 'b' => some '\x08'
  | 'f' => some '\x0c'
  | 'n' => some '\n'
  | 'r' => some '\r'
  | 't' => some '\t'
  | _ => none

/-- Reads one character of a string: none at all when it is half of a surrogate pair. -/
def stringChar : List Char → Option (Option Char × List Char)
  | '\\' :: 'u' :: rest => do
    let (unit, rest) ← codeUnit rest
    if isHighSurrogate unit then
      match rest with
      | '\\' :: 'u' :: next => do
        let (low, next) ← codeUnit next
        if isLowSurrogate low then
          return (some (Char.ofNat (0x10000 + (unit - 0xD800) * 0x400 + (low - 0xDC00))), next)
        else return (none, rest)
      | _ => return (none, rest)
    else if isLowSurrogate unit then return (none, rest)
    else return (some (Char.ofNat unit), rest)
  | '\\' :: c :: rest => (simpleEscape? c).map fun c => (some c, rest)
  | '\\' :: [] => none
  | c :: rest => if c.toNat < 0x20 then none else some (some c, rest)
  | [] => none

/-- Reads a string up to and with its closing quote. -/
def stringBody : Nat → List Char → Option (Option (List Char) × List Char)
  | 0, _ => none
  | _ + 1, '"' :: rest => some (some [], rest)
  | fuel + 1, text => do
    let (c, rest) ← stringChar text
    let (tail, rest) ← stringBody fuel rest
    return (do return (← c) :: (← tail), rest)

/-! ### Numbers -/

/-- Reads digits, at least one. -/
def someDigits (text : List Char) : Option (List Char × List Char) :=
  let digits := text.takeWhile Char.isDigit
  if digits.isEmpty then none else some (digits, text.dropWhile Char.isDigit)

/-- Reads the digits before the point: a single zero, or digits that begin with another. -/
def wholeDigits : List Char → Option (List Char × List Char)
  | '0' :: rest => some (['0'], rest)
  | text => someDigits text

/-- Reads the point and the digits behind it, if there is a point. -/
def fractionDigits : List Char → Option (List Char × List Char)
  | '.' :: rest => someDigits rest
  | text => some ([], text)

/-- Reads the digits of an exponent. -/
def exponentDigits (negative : Bool) (text : List Char) : Option (Option Int × List Char) := do
  let (digits, rest) ← someDigits text
  let power : Int := Numeral.ofDigits digits
  return (some (if negative then -power else power), rest)

/-- Reads the exponent, if there is one. -/
def exponentPart : List Char → Option (Option Int × List Char)
  | c :: rest =>
    if c = 'e' ∨ c = 'E' then
      match rest with
      | '+' :: rest => exponentDigits false rest
      | '-' :: rest => exponentDigits true rest
      | rest => exponentDigits false rest
    else some (none, c :: rest)
  | [] => some (none, [])

/-- Reads a number without its sign. -/
def unsignedNumeral (negative : Bool) (text : List Char) : Option (Numeral × List Char) := do
  let (whole, rest) ← wholeDigits text
  let (fraction, rest) ← fractionDigits rest
  let (exponent, rest) ← exponentPart rest
  return (⟨negative, whole, fraction, exponent⟩, rest)

/-- Reads a number. -/
def numeral : List Char → Option (Numeral × List Char)
  | '-' :: rest => unsignedNumeral true rest
  | text => unsignedNumeral false text

/-! ### Values -/

/-- Reads the items of an array after its first bracket, each with `item`. -/
def items (item : List Char → Option (Json × List Char)) :
    Nat → List Char → Option (List Json × List Char)
  | 0, _ => none
  | fuel + 1, text => do
    let (head, rest) ← item text
    match skipBlank rest with
    | ',' :: rest => do
      let (tail, rest) ← items item fuel rest
      return (head :: tail, rest)
    | ']' :: rest => return ([head], rest)
    | _ => none

/-- Reads the members of an object after its first brace, each value with `item`. -/
def members (item : List Char → Option (Json × List Char)) :
    Nat → List Char → Option (List (Option String × Json) × List Char)
  | 0, _ => none
  | fuel + 1, text => do
    match skipBlank text with
    | '"' :: rest => do
      let (name, rest) ← stringBody fuel rest
      match skipBlank rest with
      | ':' :: rest => do
        let (value, rest) ← item rest
        let head := (name.map String.ofList, value)
        match skipBlank rest with
        | ',' :: rest => do
          let (tail, rest) ← members item fuel rest
          return (head :: tail, rest)
        | '\x7d' :: rest => return ([head], rest)
        | _ => none
      | _ => none
    | _ => none

/-- Reads a value. -/
def value : Nat → List Char → Option (Json × List Char)
  | 0, _ => none
  | fuel + 1, text =>
    match skipBlank text with
    | 'n' :: 'u' :: 'l' :: 'l' :: rest => some (.null, rest)
    | 't' :: 'r' :: 'u' :: 'e' :: rest => some (.bool true, rest)
    | 'f' :: 'a' :: 'l' :: 's' :: 'e' :: rest => some (.bool false, rest)
    | '"' :: rest => do
      let (chars, rest) ← stringBody fuel rest
      return (.string (chars.map String.ofList), rest)
    | '[' :: rest =>
      match skipBlank rest with
      | ']' :: rest => some (.array [], rest)
      | rest => do
        let (list, rest) ← items (value fuel) fuel rest
        return (.array list, rest)
    | '\x7b' :: rest =>
      match skipBlank rest with
      | '\x7d' :: rest => some (.object [], rest)
      | rest => do
        let (list, rest) ← members (value fuel) fuel rest
        return (.object list, rest)
    | rest => do
      let (n, rest) ← numeral rest
      return (.number n, rest)

/-- Reads a whole text as one value, with nothing but blanks around it. -/
def parse? (text : String) : Option Json := do
  let chars := text.toList
  let (json, rest) ← value (chars.length + 1) chars
  if (skipBlank rest).isEmpty then some json else none

end Json

end LayerGraph
