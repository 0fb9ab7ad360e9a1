import LayerGraph.Json.Printer
import LayerGraph.Json.Reader

/-! # Reading what was printed

  A value in the layout with lines is read back as the same value. This holds of every value that
  text can carry: its strings are all there, and its numbers are written as documents write them.
  What is not in the text is where a value ends, so everything is said of a value with more text
  behind it; only a number must not be followed by anything that it could go on with.

  The reader counts down at every level and at every item and character, and the text of a value is
  longer than what it counts.
-/

namespace LayerGraph

/-! ### Numbers -/

namespace Numeral

theorem ofDigits_digits (n : Nat) : ofDigits (digits n) = n :=
  Nat.ofDigitChars_toDigits (by decide) (by decide)

theorem isDigit_of_mem_digits {n : Nat} {c : Char} (h : c ∈ digits n) : c.isDigit = true :=
  Nat.isDigit_of_mem_toDigits (by decide) (by decide) h

theorem digits_ne_nil (n : Nat) : digits n ≠ [] := Nat.toDigits_ne_nil

/-- Numbers as documents have them. -/
structure WellFormed (n : Numeral) : Prop where
  /-- There is something before the point. -/
  whole_ne_nil : n.whole ≠ []
  /-- Before the point stand digits. -/
  isDigit_whole : ∀ c ∈ n.whole, c.isDigit = true
  /-- They begin with a zero only when it is all there is. -/
  whole_of_zero : n.whole.head? = some '0' → n.whole = ['0']
  /-- Behind the point stand digits. -/
  isDigit_fraction : ∀ c ∈ n.fraction, c.isDigit = true

end Numeral

namespace Json

/-- Text that begins with no digit. -/
def NoDigit (rest : List Char) : Prop := ∀ c ∈ rest.head?, c.isDigit = false

/-- Text that a number does not go on with. -/
def Stops (rest : List Char) : Prop :=
  ∀ c ∈ rest.head?, c.isDigit = false ∧ c ≠ '.' ∧ c ≠ 'e' ∧ c ≠ 'E'

variable {rest : List Char}

theorem Stops.noDigit (h : Stops rest) : NoDigit rest := fun c hc => (h c hc).1

theorem stops_cons {c : Char} (h : c = ',' ∨ c = '\n') : Stops (c :: rest) := by
  intro d hd
  obtain rfl : c = d := by simpa using hd
  obtain rfl | rfl := h <;> decide

theorem someDigits_append {ds : List Char} (hne : ds ≠ []) (hds : ∀ c ∈ ds, c.isDigit = true)
    (hrest : NoDigit rest) : someDigits (ds ++ rest) = some (ds, rest) := by
  have htake : rest.takeWhile Char.isDigit = [] := by
    cases rest with
    | nil => rfl
    | cons c rest => simp [hrest c rfl]
  have hdrop : rest.dropWhile Char.isDigit = rest := by
    cases rest with
    | nil => rfl
    | cons c rest => simp [hrest c rfl]
  simp [someDigits, List.takeWhile_append_of_pos hds, List.dropWhile_append_of_pos hds, htake,
    hdrop, hne]

theorem wholeDigits_append {ds : List Char} (hne : ds ≠ []) (hds : ∀ c ∈ ds, c.isDigit = true)
    (hzero : ds.head? = some '0' → ds = ['0']) (hrest : NoDigit rest) :
    wholeDigits (ds ++ rest) = some (ds, rest) := by
  cases ds with
  | nil => exact absurd rfl hne
  | cons c ds =>
    by_cases hc : c = '0'
    · subst hc
      obtain rfl : ds = [] := by simpa using hzero rfl
      rfl
    · rw [← someDigits_append hne hds hrest, List.cons_append, wholeDigits]
      simpa using hc

/-- The text of the digits behind the point. -/
def fractionText (ds : List Char) : List Char := if ds.isEmpty then [] else '.' :: ds

theorem fractionDigits_append {ds : List Char} (hds : ∀ c ∈ ds, c.isDigit = true)
    (hrest : NoDigit rest) (hpoint : rest.head? ≠ some '.') :
    fractionDigits (fractionText ds ++ rest) = some (ds, rest) := by
  cases ds with
  | nil =>
    show fractionDigits rest = some ([], rest)
    rw [fractionDigits]
    rintro tail rfl
    exact hpoint rfl
  | cons c ds => exact someDigits_append (by simp) hds hrest

theorem exponentDigits_append (negative : Bool) (n : Nat) (hrest : NoDigit rest) :
    exponentDigits negative (Numeral.digits n ++ rest) =
      some (some (if negative then -(n : Int) else n), rest) := by
  simp [exponentDigits, someDigits_append (Numeral.digits_ne_nil n)
    (fun _ => Numeral.isDigit_of_mem_digits) hrest, Numeral.ofDigits_digits]

/-- The text of an exponent. -/
def exponentText : Option Int → List Char
  | none => []
  | some power => 'e' :: (if power < 0 then '-' else '+') :: Numeral.digits power.natAbs

theorem exponentPart_append (exponent : Option Int) (hrest : Stops rest) :
    exponentPart (exponentText exponent ++ rest) = some (exponent, rest) := by
  cases exponent with
  | none =>
    cases rest with
    | nil => rfl
    | cons c rest =>
      obtain ⟨-, -, he, hE⟩ := hrest c rfl
      simp [exponentText, exponentPart, he, hE]
  | some power =>
    have hdigits := fun negative => exponentDigits_append negative power.natAbs hrest.noDigit
    -- The sign is read first, and the digits are those of the magnitude.
    by_cases hneg : power < 0
    · have habs : (if true then -(power.natAbs : Int) else power.natAbs) = power := by
        rw [if_pos rfl]
        omega
      have hread := hdigits true
      rw [habs] at hread
      simp [exponentText, exponentPart, hneg, hread]
    · have habs : (if false then -(power.natAbs : Int) else power.natAbs) = power := by
        rw [if_neg Bool.false_ne_true]
        omega
      have hread := hdigits false
      rw [habs] at hread
      simp [exponentText, exponentPart, hneg, hread]

theorem toList_eq (n : Numeral) :
    n.toList = (if n.negative then ['-'] else []) ++
      (n.whole ++ (fractionText n.fraction ++ exponentText n.exponent)) := by
  obtain ⟨negative, whole, fraction, exponent⟩ := n
  cases exponent <;> simp [Numeral.toList, fractionText, exponentText]

/-- Each part is stopped by what comes next, whichever of the later parts are there. -/
theorem unsignedNumeral_append {n : Numeral} (hn : n.WellFormed) (hrest : Stops rest) :
    unsignedNumeral n.negative
      (n.whole ++ (fractionText n.fraction ++ (exponentText n.exponent ++ rest)))
      = some (n, rest) := by
  have hexponent : ∀ c ∈ (exponentText n.exponent ++ rest).head?, c.isDigit = false ∧ c ≠ '.' := by
    cases n.exponent with
    | none => exact fun c hc => ⟨(hrest c hc).1, (hrest c hc).2.1⟩
    | some power =>
      intro c hc
      obtain rfl : 'e' = c := by simpa [exponentText] using hc
      decide
  have hnopoint : (exponentText n.exponent ++ rest).head? ≠ some '.' :=
    fun h => (hexponent '.' h).2 rfl
  have hfraction : NoDigit (fractionText n.fraction ++ (exponentText n.exponent ++ rest)) := by
    cases n.fraction with
    | nil => exact fun c hc => (hexponent c hc).1
    | cons d ds =>
      intro c hc
      obtain rfl : '.' = c := by simpa [fractionText] using hc
      decide
  rw [unsignedNumeral,
    wholeDigits_append hn.whole_ne_nil hn.isDigit_whole hn.whole_of_zero hfraction]
  simp only [Option.bind_eq_bind, Option.bind_some]
  rw [fractionDigits_append hn.isDigit_fraction (fun c hc => (hexponent c hc).1) hnopoint]
  simp only [Option.bind_some]
  rw [exponentPart_append n.exponent hrest]
  rfl

/-- A number is read as it was written, when the text behind it stops it. -/
theorem numeral_append {n : Numeral} (hn : n.WellFormed) (hrest : Stops rest) :
    numeral (n.toList ++ rest) = some (n, rest) := by
  rw [← unsignedNumeral_append hn hrest, toList_eq]
  cases hnegative : n.negative with
  | true => simp [numeral]
  | false =>
    have hhead : n.whole.head? ≠ some '-' := by
      intro h
      exact absurd (hn.isDigit_whole '-' (List.mem_of_head? h)) (by decide)
    simp only [Bool.false_eq_true, if_false, List.nil_append, List.append_assoc]
    rw [numeral]
    rintro tail htail
    cases hwhole : n.whole with
    | nil => exact hn.whole_ne_nil hwhole
    | cons d ds => simp_all

/-! ### Strings -/

theorem hexValue?_hexDigit : ∀ n < 16, hexValue? (hexDigit n) = some n := by decide

/-- A numbered escape is read as the character of that number. -/
theorem stringChar_numbered {c : Char} (h : c.toNat < 0x20) :
    stringChar ('\\' :: 'u' :: '0' :: '0' :: hexDigit (c.toNat / 16) :: hexDigit (c.toNat % 16) ::
      rest) = some (some c, rest) := by
  have hhigh := hexValue?_hexDigit (c.toNat / 16) (by omega)
  have hlow := hexValue?_hexDigit (c.toNat % 16) (by omega)
  have hunit : ((0 * 16 + 0) * 16 + c.toNat / 16) * 16 + c.toNat % 16 = c.toNat := by omega
  have hcode : codeUnit ('0' :: '0' :: hexDigit (c.toNat / 16) :: hexDigit (c.toNat % 16) :: rest) =
      some (c.toNat, rest) := by
    simp only [codeUnit, hhigh, hlow, show hexValue? '0' = some 0 by decide, Option.bind_eq_bind,
      Option.bind_some, hunit]
    rfl
  have hnothigh : isHighSurrogate c.toNat = false := by simp [isHighSurrogate]; omega
  have hnotlow : isLowSurrogate c.toNat = false := by simp [isLowSurrogate]; omega
  simp [stringChar, hcode, hnothigh, hnotlow]

/-- A character is read as itself, in whichever way it was written. -/
theorem stringChar_escapeChar (c : Char) :
    stringChar (escapeChar c ++ rest) = some (some c, rest) := by
  unfold escapeChar
  split
  case h_8 hquote hslash _ _ _ _ _ =>
    split
    · next hsmall => exact stringChar_numbered hsmall
    · next hlarge =>
      rw [List.singleton_append, stringChar]
      · simp [hlarge]
      all_goals simp_all
  all_goals rfl

theorem head?_escapeChar (c : Char) : (escapeChar c ++ rest).head? ≠ some '"' := by
  unfold escapeChar
  split
  case h_8 hquote _ _ _ _ _ _ =>
    split
    · simp
    · simpa using hquote
  all_goals simp

theorem stringBody_append (text rest : List Char) {fuel : Nat} (hfuel : text.length < fuel) :
    stringBody fuel (text.flatMap escapeChar ++ '"' :: rest) = some (some text, rest) := by
  induction text generalizing fuel with
  | nil =>
    obtain ⟨fuel, rfl⟩ := Nat.exists_eq_succ_of_ne_zero (Nat.ne_of_gt hfuel)
    rfl
  | cons c text ih =>
    obtain ⟨fuel, rfl⟩ := Nat.exists_eq_succ_of_ne_zero (Nat.ne_of_gt (Nat.zero_lt_of_lt hfuel))
    rw [List.flatMap_cons, List.append_assoc, stringBody, stringChar_escapeChar]
    · simp [ih (Nat.lt_of_succ_lt_succ hfuel)]
    · intro tail htail
      exact head?_escapeChar c (by rw [htail]; rfl)

theorem length_le_flatMap_escapeChar (text : List Char) :
    text.length ≤ (text.flatMap escapeChar).length := by
  induction text with
  | nil => exact Nat.le_refl 0
  | cons c text ih =>
    have hpos : 0 < (escapeChar c).length := by
      unfold escapeChar
      split <;> try split
      all_goals simp
    simp only [List.flatMap_cons, List.length_append, List.length_cons]
    omega

/-! ### Values -/

/-- Values that text can carry. -/
inductive Printable : Json → Prop
  | null : Printable .null
  | bool (value : Bool) : Printable (.bool value)
  | number {value : Numeral} (h : value.WellFormed) : Printable (.number value)
  | string (text : String) : Printable (.string (some text))
  | array {items : List Json} (h : ∀ item ∈ items, Printable item) : Printable (.array items)
  | object {members : List (Option String × Json)}
      (hname : ∀ member ∈ members, member.1.isSome) (h : ∀ member ∈ members, Printable member.2) :
      Printable (.object members)

/-! ### Layout -/

section Layout

variable {depth fuel : Nat}

theorem skipBlank_newline (text : List Char) :
    skipBlank (newline depth ++ text) = skipBlank text := by
  have hblanks : ∀ c ∈ newline depth, isBlank c = true := by
    intro c hc
    simp only [newline, List.mem_cons, List.mem_replicate] at hc
    obtain rfl | ⟨-, rfl⟩ := hc <;> rfl
  exact List.dropWhile_append_of_pos hblanks

theorem skipBlank_cons {c : Char} (h : isBlank c = false) : skipBlank (c :: rest) = c :: rest := by
  simp [skipBlank, h]

theorem value_newline (fuel depth : Nat) (text : List Char) :
    value fuel (newline depth ++ text) = value fuel text := by
  cases fuel with
  | zero => rfl
  | succ fuel => simp only [value, skipBlank_newline]

theorem value_space (text : List Char) : value fuel (' ' :: text) = value fuel text := by
  cases fuel with
  | zero => rfl
  | succ fuel => rfl

theorem prettyItems_eq_map (list : List Json) :
    prettyItems depth list = list.map (prettyAt depth) := by
  induction list with
  | nil => rfl
  | cons item list ih => rw [prettyItems, ih, List.map_cons]

/-- The text of a member whose value is written by `write`. -/
def memberText (write : Json → List Char) (member : Option String × Json) : List Char :=
  quote? member.1 ++ ':' :: ' ' :: write member.2

theorem prettyMembers_eq_map (list : List (Option String × Json)) :
    prettyMembers depth list = list.map (memberText (prettyAt depth)) := by
  induction list with
  | nil => rfl
  | cons member list ih => rw [prettyMembers, ih, List.map_cons, memberText]

variable {separator : List Char} {first second : List Char} {texts : List (List Char)}

theorem join_singleton : join separator [first] = first := by simp [join]

theorem join_cons_cons : join separator (first :: second :: texts) =
    first ++ (separator ++ join separator (second :: texts)) := by
  simp [join]

theorem length_le_join (separator : List Char) {text : List Char} (h : text ∈ texts) :
    text.length ≤ (join separator texts).length := by
  induction texts with
  | nil => cases h
  | cons first texts ih =>
    cases texts with
    | nil =>
      obtain rfl : text = first := by simpa using h
      simp [join_singleton]
    | cons second texts =>
      rw [join_cons_cons, List.length_append, List.length_append]
      obtain rfl | h := List.mem_cons.mp h
      · omega
      · have := ih h
        omega

theorem stops_newline : Stops (newline depth ++ rest) := stops_cons (.inr rfl)

/-- The items of an array are read one after the other, up to the closing bracket. -/
theorem items_append (outer : Nat) (rest : List Char)
    {read : List Char → Option (Json × List Char)} {write : Json → List Char} {inner : Nat}
    (hblank : ∀ text, read (newline inner ++ text) = read text)
    {item : Json} {list : List Json}
    (hread : ∀ next ∈ item :: list, ∀ rest, Stops rest →
      read (write next ++ rest) = some (next, rest))
    (hfuel : (join (',' :: newline inner) ((item :: list).map write)).length < fuel) :
    items read fuel (join (',' :: newline inner) ((item :: list).map write) ++
      (newline outer ++ ']' :: rest)) = some (item :: list, rest) := by
  induction list generalizing item fuel with
  | nil =>
    obtain ⟨fuel, rfl⟩ := Nat.exists_eq_succ_of_ne_zero (Nat.ne_of_gt (Nat.zero_lt_of_lt hfuel))
    have hhead := hread item (by simp) (newline outer ++ ']' :: rest) stops_newline
    simp [items, join_singleton, hhead, skipBlank_newline,
      skipBlank_cons (show isBlank ']' = false by decide)]
  | cons next list ih =>
    obtain ⟨fuel, rfl⟩ := Nat.exists_eq_succ_of_ne_zero (Nat.ne_of_gt (Nat.zero_lt_of_lt hfuel))
    simp only [List.map_cons, join_cons_cons, List.length_append, List.length_cons] at hfuel
    have hshort : (join (',' :: newline inner) ((next :: list).map write)).length < fuel := by
      simp only [List.map_cons]
      omega
    have htail := ih (fun item hitem => hread item (List.mem_cons_of_mem _ hitem)) hshort
    -- The blank behind the comma is skipped by the reader of the next item.
    have hnext : ∀ text, items read fuel (newline inner ++ text) = items read fuel text := by
      intro text
      cases fuel with
      | zero => rfl
      | succ fuel => simp only [items, hblank]
    have hhead := hread item (by simp) (',' :: (newline inner ++ (join (',' :: newline inner)
      ((next :: list).map write) ++ (newline outer ++ ']' :: rest)))) (stops_cons (.inl rfl))
    rw [List.map_cons, List.map_cons, join_cons_cons, List.append_assoc, items, List.append_assoc,
      List.cons_append, ← List.map_cons, hhead]
    rw [List.map_cons] at htail
    simp [skipBlank_cons (show isBlank ',' = false by decide), hnext, htail]

section Member

variable {read : List Char → Option (Json × List Char)} {write : Json → List Char}
variable {name : String} {value : Json} {tail : List Char}

/-- The name of a member is read within the count for its text. -/
theorem stringBody_memberText (rest : List Char)
    (hfuel : (memberText write (some name, value)).length < fuel + 1) :
    stringBody fuel (name.toList.flatMap escapeChar ++ '"' :: rest) =
      some (some name.toList, rest) := by
  have hle := length_le_flatMap_escapeChar name.toList
  simp only [memberText, quote?, quote, Option.getD_some, List.length_cons, List.length_append]
    at hfuel
  exact stringBody_append name.toList rest (by omega)

/-- A member with more behind it. -/
theorem members_more (hblank : ∀ text, read (' ' :: text) = read text)
    (hread : read (write value ++ tail) = some (value, tail))
    (hfuel : (memberText write (some name, value)).length < fuel + 1)
    (htail : skipBlank tail = ',' :: rest) {more : List (Option String × Json)}
    {behind : List Char} (hmore : members read fuel rest = some (more, behind)) :
    members read (fuel + 1) (memberText write (some name, value) ++ tail) =
      some ((some name, value) :: more, behind) := by
  have hname := stringBody_memberText (':' :: ' ' :: (write value ++ tail)) hfuel
  simp only [memberText, quote?, quote, Option.getD_some, List.cons_append, List.append_assoc,
    List.nil_append, members, skipBlank_cons (show isBlank '"' = false by decide), hname,
    skipBlank_cons (show isBlank ':' = false by decide), hblank, hread, htail, hmore,
    Option.bind_eq_bind, Option.bind_some, Option.map_some, String.ofList_toList, Option.pure_def]

/-- The last member. -/
theorem members_last (hblank : ∀ text, read (' ' :: text) = read text)
    (hread : read (write value ++ tail) = some (value, tail))
    (hfuel : (memberText write (some name, value)).length < fuel + 1)
    (htail : skipBlank tail = '\x7d' :: rest) :
    members read (fuel + 1) (memberText write (some name, value) ++ tail) =
      some ([(some name, value)], rest) := by
  have hname := stringBody_memberText (':' :: ' ' :: (write value ++ tail)) hfuel
  simp only [memberText, quote?, quote, Option.getD_some, List.cons_append, List.append_assoc,
    List.nil_append, members, skipBlank_cons (show isBlank '"' = false by decide), hname,
    skipBlank_cons (show isBlank ':' = false by decide), hblank, hread, htail,
    Option.bind_eq_bind, Option.bind_some, Option.map_some, String.ofList_toList, Option.pure_def]

end Member

/-- The members of an object are read one after the other, up to the closing brace. -/
theorem members_append (outer : Nat) (rest : List Char)
    {read : List Char → Option (Json × List Char)} {write : Json → List Char} {inner : Nat}
    (hblank : ∀ text, read (' ' :: text) = read text)
    {member : Option String × Json} {list : List (Option String × Json)}
    (hname : ∀ next ∈ member :: list, next.1.isSome)
    (hread : ∀ next ∈ member :: list, ∀ rest, Stops rest →
      read (write next.2 ++ rest) = some (next.2, rest))
    (hfuel :
      (join (',' :: newline inner) ((member :: list).map (memberText write))).length < fuel) :
    members read fuel (join (',' :: newline inner) ((member :: list).map (memberText write)) ++
      (newline outer ++ '\x7d' :: rest)) = some (member :: list, rest) := by
  induction list generalizing member fuel with
  | nil =>
    obtain ⟨fuel, rfl⟩ := Nat.exists_eq_succ_of_ne_zero (Nat.ne_of_gt (Nat.zero_lt_of_lt hfuel))
    obtain ⟨name, value⟩ := member
    obtain ⟨name, rfl⟩ := Option.isSome_iff_exists.mp (hname (name, value) (by simp))
    simp only [List.map_cons, List.map_nil, join_singleton] at hfuel ⊢
    refine members_last hblank (hread (some name, value) (by simp) _ stops_newline) hfuel ?_
    rw [skipBlank_newline, skipBlank_cons (by decide)]
  | cons next list ih =>
    obtain ⟨fuel, rfl⟩ := Nat.exists_eq_succ_of_ne_zero (Nat.ne_of_gt (Nat.zero_lt_of_lt hfuel))
    obtain ⟨name, value⟩ := member
    obtain ⟨name, rfl⟩ := Option.isSome_iff_exists.mp (hname (name, value) (by simp))
    simp only [List.map_cons, join_cons_cons, List.length_append, List.length_cons] at hfuel
    have hshort : (join (',' :: newline inner) ((next :: list).map (memberText write))).length <
        fuel := by
      simp only [List.map_cons]
      omega
    have htail := ih (fun member hmember => hname member (List.mem_cons_of_mem _ hmember))
      (fun member hmember => hread member (List.mem_cons_of_mem _ hmember)) hshort
    -- The blank behind the comma is skipped before the next name.
    have hnext : ∀ text, members read fuel (newline inner ++ text) = members read fuel text := by
      intro text
      cases fuel with
      | zero => rfl
      | succ fuel => simp only [members, skipBlank_newline]
    rw [← hnext] at htail
    rw [List.map_cons, List.map_cons, join_cons_cons, List.append_assoc, List.append_assoc,
      List.cons_append, ← List.map_cons]
    have hhead : (memberText write (some name, value)).length < fuel + 1 := by omega
    exact members_more hblank (hread (some name, value) (by simp) _ (stops_cons (.inl rfl))) hhead
      (skipBlank_cons (by decide)) htail

/-- The first character of a number. -/
theorem exists_cons_toList {n : Numeral} (hn : n.WellFormed) :
    ∃ c text, n.toList = c :: text ∧ (c = '-' ∨ c.isDigit = true) := by
  rw [toList_eq]
  cases n.negative with
  | true => exact ⟨'-', _, rfl, .inl rfl⟩
  | false =>
    cases hwhole : n.whole with
    | nil => exact absurd hwhole hn.whole_ne_nil
    | cons c text => exact ⟨c, _, rfl, .inr (hn.isDigit_whole c (by simp [hwhole]))⟩

theorem not_isBlank_of_isDigit {c : Char} (h : c.isDigit = true) : isBlank c = false := by
  rw [Bool.eq_false_iff]
  intro hblank
  simp only [isBlank, Bool.or_eq_true, beq_iff_eq] at hblank
  obtain ((rfl | rfl) | rfl) | rfl := hblank <;> exact absurd h (by decide)

/-- The first character of a value opens it: it is no blank, and it closes nothing. -/
theorem exists_cons_prettyAt {json : Json} (h : json.Printable) (depth : Nat) :
    ∃ c text, prettyAt depth json = c :: text ∧ isBlank c = false ∧ c ≠ ']' := by
  cases h with
  | null => exact ⟨_, _, rfl, rfl, by decide⟩
  | bool value => cases value <;> exact ⟨_, _, rfl, rfl, by decide⟩
  | number hn =>
    obtain ⟨c, text, htext, rfl | hc⟩ := exists_cons_toList hn
    · exact ⟨_, _, htext, rfl, by decide⟩
    · refine ⟨_, _, htext, not_isBlank_of_isDigit hc, ?_⟩
      rintro rfl
      exact absurd hc (by decide)
  | string text => exact ⟨_, _, rfl, rfl, by decide⟩
  | array h =>
    rw [prettyAt, block]
    split <;> exact ⟨_, _, rfl, rfl, by decide⟩
  | object hname h =>
    rw [prettyAt, block]
    split <;> exact ⟨_, _, rfl, rfl, by decide⟩

/-- A number is recognised by its first character. -/
theorem value_numeral {n : Numeral} (hn : n.WellFormed) (hrest : Stops rest) :
    value (fuel + 1) (n.toList ++ rest) = some (.number n, rest) := by
  have hread := numeral_append hn hrest
  obtain ⟨c, text, htext, hc⟩ := exists_cons_toList hn
  have hblank : isBlank c = false := by
    obtain rfl | hc := hc
    · rfl
    · exact not_isBlank_of_isDigit hc
  rw [htext, List.cons_append] at hread ⊢
  rw [value, skipBlank_cons hblank]
  split
  case h_7 => simp [hread]
  all_goals
    rename_i heq
    obtain rfl := (List.cons.inj heq).1
    simp at hc

/-- An array that does not end at once is read item by item. -/
theorem value_bracket (depth : Nat) {c : Char} {text : List Char} {list : List Json}
    (hblank : isBlank c = false) (hc : c ≠ ']')
    (hitems : items (value fuel) fuel (c :: text) = some (list, rest)) :
    value (fuel + 1) ('[' :: (newline depth ++ c :: text)) = some (.array list, rest) := by
  rw [value, skipBlank_cons (by decide)]
  simp only [skipBlank_newline, skipBlank_cons hblank]
  split
  · next heq => exact absurd (List.cons.inj heq).1 hc
  · simp [hitems]

/-- An object that does not end at once is read member by member. -/
theorem value_brace (depth : Nat) {c : Char} {text : List Char} {list : List (Option String × Json)}
    (hblank : isBlank c = false) (hc : c ≠ '\x7d')
    (hmembers : members (value fuel) fuel (c :: text) = some (list, rest)) :
    value (fuel + 1) ('\x7b' :: (newline depth ++ c :: text)) = some (.object list, rest) := by
  rw [value, skipBlank_cons (by decide)]
  simp only [skipBlank_newline, skipBlank_cons hblank]
  split
  · next heq => exact absurd (List.cons.inj heq).1 hc
  · simp [hmembers]

/-- The first text of a list of texts begins the list. -/
theorem join_eq_cons (separator : List Char) (c : Char) (text : List Char)
    (texts : List (List Char)) :
    ∃ tail, join separator ((c :: text) :: texts) = c :: tail := by
  cases texts with
  | nil => exact ⟨text, join_singleton⟩
  | cons next texts => exact ⟨_, by rw [join_cons_cons, List.cons_append]⟩

/-- A value is read as it was written, when the text behind it stops it. -/
theorem value_prettyAt {json : Json} (h : json.Printable) {depth fuel : Nat} {rest : List Char}
    (hrest : Stops rest) (hfuel : (prettyAt depth json).length < fuel) :
    value fuel (prettyAt depth json ++ rest) = some (json, rest) := by
  -- At every level one is taken from the count, and the text inside is shorter by more than that.
  obtain ⟨fuel, rfl⟩ := Nat.exists_eq_succ_of_ne_zero (Nat.ne_of_gt (Nat.zero_lt_of_lt hfuel))
  induction h generalizing depth fuel rest with
  | null => rfl
  | bool b => cases b <;> rfl
  | number hn => exact value_numeral hn hrest
  | string text =>
    have hlength : text.toList.length < fuel := by
      have := length_le_flatMap_escapeChar text.toList
      simp only [prettyAt, quote?, quote, Option.getD_some, List.length_cons, List.length_append]
        at hfuel
      omega
    simp [prettyAt, quote?, quote, value, skipBlank_cons (show isBlank '"' = false by decide),
      stringBody_append text.toList rest hlength]
  | @array list h ih =>
    cases list with
    | nil => rfl
    | cons item list =>
      simp only [prettyAt, prettyItems_eq_map, block, List.map_cons, List.isEmpty_cons,
        Bool.false_eq_true, if_false, List.length_cons, List.length_append] at hfuel
      rw [← List.map_cons] at hfuel
      have hread : ∀ next ∈ item :: list, ∀ rest, Stops rest →
          value fuel (prettyAt (depth + 1) next ++ rest) = some (next, rest) := by
        intro next hnext rest hrest
        have hle := length_le_join (',' :: newline (depth + 1))
          (List.mem_map_of_mem (f := prettyAt (depth + 1)) hnext)
        obtain ⟨fuel, rfl⟩ := Nat.exists_eq_succ_of_ne_zero (show fuel ≠ 0 by omega)
        exact ih next hnext hrest fuel (by omega)
      have hshort : (join (',' :: newline (depth + 1))
          ((item :: list).map (prettyAt (depth + 1)))).length < fuel := by omega
      have hitems := items_append depth rest (value_newline fuel (depth + 1)) hread hshort
      obtain ⟨c, text, hitem, hblank, hc⟩ := exists_cons_prettyAt (h item (by simp)) (depth + 1)
      obtain ⟨tail, hjoin⟩ := join_eq_cons (',' :: newline (depth + 1)) c text
        (list.map (prettyAt (depth + 1)))
      rw [List.map_cons, hitem, hjoin, List.cons_append] at hitems
      have hvalue := value_bracket (depth + 1) hblank hc hitems
      simpa [prettyAt, prettyItems_eq_map, block, hitem, hjoin] using hvalue
  | @object list hname h ih =>
    cases list with
    | nil => rfl
    | cons member list =>
      simp only [prettyAt, prettyMembers_eq_map, block, List.map_cons, List.isEmpty_cons,
        Bool.false_eq_true, if_false, List.length_cons, List.length_append] at hfuel
      rw [← List.map_cons] at hfuel
      have hread : ∀ next ∈ member :: list, ∀ rest, Stops rest →
          value fuel (prettyAt (depth + 1) next.2 ++ rest) = some (next.2, rest) := by
        intro next hnext rest hrest
        have hle := length_le_join (',' :: newline (depth + 1))
          (List.mem_map_of_mem (f := memberText (prettyAt (depth + 1))) hnext)
        simp only [memberText, List.length_append, List.length_cons] at hle
        obtain ⟨fuel, rfl⟩ := Nat.exists_eq_succ_of_ne_zero (show fuel ≠ 0 by omega)
        exact ih next hnext hrest fuel (by omega)
      have hshort : (join (',' :: newline (depth + 1))
          ((member :: list).map (memberText (prettyAt (depth + 1))))).length < fuel := by omega
      have hmembers := members_append depth rest value_space hname hread hshort
      obtain ⟨text, hmember⟩ : ∃ text, memberText (prettyAt (depth + 1)) member = '"' :: text :=
        ⟨_, rfl⟩
      obtain ⟨tail, hjoin⟩ := join_eq_cons (',' :: newline (depth + 1)) '"' text
        (list.map (memberText (prettyAt (depth + 1))))
      rw [List.map_cons, hmember, hjoin, List.cons_append] at hmembers
      have hvalue := value_brace (depth + 1) (by decide) (by decide) hmembers
      simpa [prettyAt, prettyMembers_eq_map, block, hmember, hjoin] using hvalue

end Layout

/-- A document is read as it was written. -/
theorem parse?_pretty {json : Json} (h : json.Printable) : parse? json.pretty = some json := by
  have hstops : Stops [] := fun c hc => nomatch hc
  have hvalue := value_prettyAt h hstops (Nat.lt_succ_self (prettyAt 0 json).length)
  rw [List.append_nil] at hvalue
  simp [parse?, pretty, hvalue, skipBlank]

end Json

end LayerGraph
