import LayerGraph.Proofs.Container.Reading
import LayerGraph.Proofs.Numeric.LittleEndian
import LayerGraph.Proofs.Text.Utf8

/-! # Laws of codecs

  `Codec.Lawful` says how writing and reading fit together, for the values that are good enough
  to be read. Written bytes are read as the value they were written for; and what is read, from
  bytes of whatever origin, is good and can be written in as many bytes.

  The laws are proved for the numbers and for each combinator, so they hold of every codec built
  from these.
-/

namespace LayerGraph

namespace Codec

variable {α β : Type}

/-- The value is written in so many bytes. -/
def Fits (c : Codec α) (a : α) (n : Nat) : Prop := ∃ bytes, c.write a = .ok bytes ∧ bytes.length = n

/-- Writing and reading agree. Good values are read back, and have at least `size` bytes. -/
structure Lawful (c : Codec α) (good : α → Prop) (size : Nat) : Prop where
  /-- What is written for a good value is read as this value. -/
  takes : ∀ {a bytes}, good a → c.write a = .ok bytes → c.read.Takes bytes a
  /-- What is written has a least size. -/
  least : ∀ {a bytes}, c.write a = .ok bytes → size ≤ bytes.length
  /-- What is read is good, and is written in as many bytes as it was read from. -/
  yields : c.read.Yields fun a n => good a ∧ c.Fits a n
  /-- Whatever is read, no place outside the bytes is come to. -/
  stays : ∀ bytes, c.read.StaysIn bytes fun _ => True
  /-- What is read does not depend on the bytes behind it. -/
  steady : c.read.Steady
  /-- What is read does not depend on the place. -/
  parallel : Read.Parallel Eq c.read c.read

/-- Writing and reading agree for every value. -/
def Plain (c : Codec α) (size : Nat) : Prop := c.Lawful (fun _ => True) size

variable {c : Codec α} {d : Codec β} {good good' : α → Prop} {good₂ : β → Prop} {m n size : Nat}

theorem Lawful.congr (h : c.Lawful good size) (hgood : ∀ a, good a ↔ good' a) :
    c.Lawful good' size := by
  have heq : good = good' := funext fun a => propext (hgood a)
  exact heq ▸ h

theorem Fits.unique {a : α} (hm : c.Fits a m) (hn : c.Fits a n) : m = n := by
  obtain ⟨xs, hxs, rfl⟩ := hm
  obtain ⟨ys, hys, rfl⟩ := hn
  rw [hxs] at hys
  cases hys
  rfl

/-- A codec that writes every value in the same number of bytes. -/
theorem fits_iff (h : ∀ a, c.Fits a size) {a : α} : c.Fits a n ↔ n = size := by
  constructor
  · exact fun hn => hn.unique (h a)
  · rintro rfl
    exact h a

/-- What is written for fair values is refused unless they are good. -/
def Strict (c : Codec α) (fair good : α → Prop) : Prop :=
  ∀ ⦃a bytes⦄, fair a → ¬ good a → c.write a = .ok bytes → c.read.Refuses bytes

/-! ### Numbers -/

/-- A codec that writes any value in so many bytes, and reads it back from them. -/
theorem plain_of_bytes {width : Nat} {encode : α → List UInt8} {decode : List UInt8 → α}
    (hlength : ∀ a, (encode a).length = width) (hdecode : ∀ a, decode (encode a) = a) :
    Plain ⟨fun a => .ok (encode a), return decode (← Read.bytes width)⟩ width where
  takes := by
    rintro a _ - ⟨⟩
    have h := (Read.Takes.bytes (hlength a)).map (f := decode)
    rwa [hdecode] at h
  least := by
    rintro a _ ⟨⟩
    exact Nat.le_of_eq (hlength a).symm
  yields := by
    refine Read.Yields.map ((Read.Yields.bytes width).mono ?_)
    rintro bytes n ⟨-, rfl⟩
    exact ⟨trivial, _, rfl, hlength _⟩
  stays bytes := (Read.StaysIn.bytes width).map
  steady := (Read.Steady.bytes width).map
  parallel := (Read.Parallel.bytes width).map

theorem uint8_fits (n : UInt8) : uint8.Fits n 1 := ⟨[n], rfl, rfl⟩

theorem uint32_fits (n : UInt32) : uint32.Fits n 4 := ⟨_, rfl, LittleEndian.length_encode _ _⟩

theorem int32_fits (n : Int32) : int32.Fits n 4 := ⟨_, rfl, LittleEndian.length_encodeInt _ _⟩

theorem binary32_fits (x : Binary32) : binary32.Fits x 4 :=
  ⟨_, rfl, LittleEndian.length_encodeBinary _⟩

theorem bool_fits (b : Bool) : bool.Fits b 1 := ⟨[b.toUInt8], rfl, rfl⟩

theorem uint8_plain : uint8.Plain 1 :=
  plain_of_bytes (fun n : UInt8 => (rfl : [n].length = 1)) fun n => by
    simp [LittleEndian.decode]

theorem uint16_plain : uint16.Plain 2 :=
  plain_of_bytes (fun _ => LittleEndian.length_encode _ _) fun n => by
    rw [LittleEndian.decode_encode_of_lt n.toNat_lt, UInt16.ofNat_toNat]

theorem uint32_plain : uint32.Plain 4 :=
  plain_of_bytes (fun _ => LittleEndian.length_encode _ _) fun n => by
    rw [LittleEndian.decode_encode_of_lt n.toNat_lt, UInt32.ofNat_toNat]

theorem int32_plain : int32.Plain 4 :=
  plain_of_bytes (fun _ => LittleEndian.length_encodeInt _ _) fun n => by
    rw [LittleEndian.decodeInt_encodeInt]
    have h : n.toInt.bmod (2 ^ (8 * 4)) = n.toInt := Int32.toInt_bmod_size n
    rw [h, Int32.ofInt_toInt]

theorem binary32_plain : binary32.Plain 4 :=
  plain_of_bytes (fun _ => LittleEndian.length_encodeBinary _) fun x =>
    LittleEndian.decodeBinary_encodeBinary x (by decide)

/-! ### Values that stand for others -/

/-- Values that raw values stand for. A raw value need not be the one that is written, if that
    one has as many bytes. -/
theorem Lawful.imap (h : c.Lawful good size) {ofRaw : α → β} {toRaw : β → α}
    (hof : ∀ b, ofRaw (toRaw b) = b)
    (hto : ∀ a n, good a → c.Fits a n → good (toRaw (ofRaw a)) ∧ c.Fits (toRaw (ofRaw a)) n) :
    (c.imap ofRaw toRaw).Lawful (fun b => good (toRaw b)) size where
  takes := by
    intro b bytes hgood hwrite
    have htakes := (h.takes hgood hwrite).map (f := ofRaw)
    rwa [hof] at htakes
  least := h.least
  yields := by
    refine Read.Yields.map (h.yields.mono ?_)
    rintro a n ⟨hgood, hfits⟩
    exact hto a n hgood hfits
  stays bytes := (h.stays bytes).map
  steady := h.steady.map
  parallel := h.parallel.map

/-- Values that stand for each other one to one are written alike. -/
theorem Plain.imap (h : c.Plain size) {ofRaw : α → β} {toRaw : β → α}
    (hof : ∀ b, ofRaw (toRaw b) = b) (hto : ∀ a, toRaw (ofRaw a) = a) :
    (c.imap ofRaw toRaw).Plain size := by
  refine Lawful.imap h hof fun a n hgood hfits => ?_
  rw [hto]
  exact ⟨hgood, hfits⟩

/-- Values that not every raw value stands for. -/
theorem Lawful.refine (h : c.Lawful good size) {ofRaw : α → Except ContainerFault β} {toRaw : β → α}
    (hgood : ∀ b, good₂ b → good (toRaw b))
    (hof : ∀ b bytes, good₂ b → c.write (toRaw b) = .ok bytes → ofRaw (toRaw b) = .ok b)
    (hto : ∀ a b n, good a → c.Fits a n → ofRaw a = .ok b → good₂ b ∧ c.Fits (toRaw b) n) :
    (c.refine ofRaw toRaw).Lawful good₂ size where
  takes := by
    intro b bytes hb hwrite
    refine Read.Takes.offset fun start => ?_
    refine (h.takes (hgood b hb) hwrite).then ?_
    rw [hof b bytes hb hwrite]
    exact Read.Takes.pure
  least := h.least
  yields := by
    refine Read.Yields.offset fun start => h.yields.bind ?_
    rintro a n ⟨ha, hfits⟩
    split
    · next b hb => exact .pure (hto a b n ha hfits hb)
    · exact .refuse
  stays bytes := by
    refine Read.StaysIn.offset fun start hstart => (h.stays bytes).bind fun a _ => ?_
    split
    · exact .pure trivial
    · exact .refuse hstart
  steady := by
    refine Read.Steady.offset fun start => h.steady.bind fun a => ?_
    split
    · exact .pure
    · exact .refuse
  parallel := by
    refine Read.Parallel.offset fun start start' => h.parallel.bind_eq fun a => ?_
    cases ofRaw a with
    | ok b => exact .pure rfl
    | error fault => exact .refuse

/-! ### One value after another -/

theorem seq_write_eq_ok_iff {a : α} {b : β} {bytes : List UInt8} :
    (c.seq d).write (a, b) = .ok bytes ↔
      ∃ xs ys, c.write a = .ok xs ∧ d.write b = .ok ys ∧ bytes = xs ++ ys := by
  simp only [seq, Except.bind_eq_ok_iff, Except.pure_eq_ok_iff, eq_comm (b := bytes)]
  constructor
  · rintro ⟨xs, hxs, ys, hys, h⟩
    exact ⟨xs, ys, hxs, hys, h⟩
  · rintro ⟨xs, ys, hxs, hys, h⟩
    exact ⟨xs, hxs, ys, hys, h⟩

theorem seq_fits_iff {a : α} {b : β} :
    (c.seq d).Fits (a, b) n ↔ ∃ i j, c.Fits a i ∧ d.Fits b j ∧ n = i + j := by
  simp only [Fits, seq_write_eq_ok_iff]
  constructor
  · rintro ⟨_, ⟨xs, ys, hxs, hys, rfl⟩, rfl⟩
    exact ⟨_, _, ⟨xs, hxs, rfl⟩, ⟨ys, hys, rfl⟩, List.length_append⟩
  · rintro ⟨_, _, ⟨xs, hxs, rfl⟩, ⟨ys, hys, rfl⟩, rfl⟩
    exact ⟨_, ⟨xs, ys, hxs, hys, rfl⟩, List.length_append⟩

theorem Lawful.seq (hc : c.Lawful good m) (hd : d.Lawful good₂ n) :
    (c.seq d).Lawful (fun p => good p.1 ∧ good₂ p.2) (m + n) where
  takes := by
    rintro ⟨a, b⟩ bytes ⟨ha, hb⟩ hwrite
    obtain ⟨xs, ys, hxs, hys, rfl⟩ := seq_write_eq_ok_iff.mp hwrite
    exact (hc.takes ha hxs).bind (hd.takes hb hys).map
  least := by
    rintro ⟨a, b⟩ bytes hwrite
    obtain ⟨xs, ys, hxs, hys, rfl⟩ := seq_write_eq_ok_iff.mp hwrite
    rw [List.length_append]
    exact Nat.add_le_add (hc.least hxs) (hd.least hys)
  yields := by
    refine hc.yields.bind ?_
    rintro a i ⟨ha, xs, hxs, rfl⟩
    refine Read.Yields.map (hd.yields.mono ?_)
    rintro b j ⟨hb, ys, hys, rfl⟩
    exact ⟨⟨ha, hb⟩, xs ++ ys, seq_write_eq_ok_iff.mpr ⟨xs, ys, hxs, hys, rfl⟩, List.length_append⟩
  stays bytes := (hc.stays bytes).bind fun _ _ => (hd.stays bytes).map
  steady := hc.steady.bind fun _ => hd.steady.map
  parallel := hc.parallel.bind_eq fun _ => hd.parallel.map

/-- The first value that is not good is where reading ends. -/
theorem Strict.seq {fair : α → Prop} {fair₂ : β → Prop} (hlawful : c.Lawful good m)
    (hc : c.Strict fair good) (hd : d.Strict fair₂ good₂) :
    (c.seq d).Strict (fun p => fair p.1 ∧ fair₂ p.2) (fun p => good p.1 ∧ good₂ p.2) := by
  rintro ⟨a, b⟩ bytes ⟨hfair, hfair₂⟩ hbad hwrite
  obtain ⟨xs, ys, hxs, hys, rfl⟩ := seq_write_eq_ok_iff.mp hwrite
  by_cases ha : good a
  · have hb : ¬ good₂ b := fun hb => hbad ⟨ha, hb⟩
    exact (hlawful.takes ha hxs).bind_refuses (hd hfair₂ hb hys).bind
  · exact (hc hfair ha hxs).bind.append

theorem Plain.strict : c.Strict (fun _ => True) (fun _ => True) :=
  fun _ _ _ hbad _ => absurd trivial hbad

theorem Strict.congr {fair fair' : α → Prop} (h : c.Strict fair good)
    (hfair : ∀ a, fair a ↔ fair' a) (hgood : ∀ a, good a ↔ good' a) : c.Strict fair' good' := by
  intro a bytes ha hbad hwrite
  exact h ((hfair a).mpr ha) (fun hgood' => hbad ((hgood a).mp hgood')) hwrite

theorem Plain.seq (hc : c.Plain m) (hd : d.Plain n) : (c.seq d).Plain (m + n) :=
  (Lawful.seq hc hd).congr fun _ => and_self_iff

/-! ### Truth values and named values -/

theorem bool_plain : bool.Plain 1 := by
  refine Lawful.refine uint8_plain (fun _ _ => trivial) ?_ ?_
  · rintro (_ | _) bytes - - <;> rfl
  · rintro byte b n - ⟨bytes, hwrite, rfl⟩ -
    cases hwrite
    exact ⟨trivial, [b.toUInt8], rfl, rfl⟩

/-- Tags that tell the values apart. -/
theorem tagged_plain [DecidableEq α] [Choice α] {tags : List (α × UInt8)}
    (h : ∀ a, (tags.find? (·.2 == (tags.lookup a).getD 0)).map (·.1) = some a) :
    (tagged tags).Plain 1 := by
  refine Lawful.refine uint8_plain (fun _ _ => trivial) ?_ ?_
  · intro a bytes _ _
    obtain ⟨⟨b, tag⟩, hfind, rfl⟩ := Option.map_eq_some_iff.mp (h a)
    simp only [hfind]
  · rintro byte a n - ⟨bytes, hwrite, rfl⟩ -
    cases hwrite
    exact ⟨trivial, [(tags.lookup a).getD 0], rfl, rfl⟩

/-- A type with named values, each of which is found by its position among them. -/
class LawfulChoice (α : Type) [DecidableEq α] [Choice α] : Prop where
  /-- The position of a value leads back to it. -/
  found : ∀ a : α,
    (((Choice.named : List (α × String)).zipIdx.map fun ((a, _), i) => (a, UInt8.ofNat i)).find?
      (·.2 == ((((Choice.named : List (α × String)).zipIdx.map
        fun ((a, _), i) => (a, UInt8.ofNat i)).lookup a).getD 0))).map (·.1) = some a

theorem choice_plain [DecidableEq α] [Choice α] [LawfulChoice α] : (choice : Codec α).Plain 1 :=
  tagged_plain LawfulChoice.found

/-! ### Lengths -/

theorem length_write_eq_ok_iff {itemSize count : Nat} {bytes : List UInt8} :
    (length itemSize).write count = .ok bytes ↔
      count < 2 ^ 32 ∧ bytes = LittleEndian.encode 4 count := by
  simp only [length]
  split
  · next h =>
    have htoNat : (UInt32.ofNat count).toNat = count := UInt32.toNat_ofNat_of_lt' h
    simp only [uint32, htoNat, Except.ok.injEq, eq_comm (b := bytes)]
    exact ⟨fun heq => ⟨h, heq⟩, fun h => h.2⟩
  · next h =>
    constructor
    · intro hwrite
      cases hwrite
    · intro hfits
      exact absurd hfits.1 h

theorem length_length {itemSize count : Nat} {bytes : List UInt8}
    (h : (length itemSize).write count = .ok bytes) : bytes.length = 4 := by
  rw [(length_write_eq_ok_iff.mp h).2, LittleEndian.length_encode]

/-- A length is read when the bytes behind it can hold the items. -/
theorem run_length {itemSize count offset : Nat} {front rest : List UInt8}
    (hwrite : (length itemSize).write count = .ok front) (hroom : count * itemSize ≤ rest.length) :
    (length itemSize).read.run ⟨offset, front ++ rest⟩ =
      .ok (count, ⟨offset + front.length, rest⟩) := by
  obtain ⟨hlt, rfl⟩ := length_write_eq_ok_iff.mp hwrite
  have htoNat : (UInt32.ofNat count).toNat = count := UInt32.toNat_ofNat_of_lt' hlt
  have huint : uint32.read.Takes (LittleEndian.encode 4 count) (.ofNat count) :=
    uint32_plain.takes trivial (by simp only [uint32, htoNat])
  refine Read.bind_eq_ok_iff.mpr ⟨offset, _, Read.run_offset, ?_⟩
  refine Read.bind_eq_ok_iff.mpr ⟨_, _, huint offset rest, ?_⟩
  refine Read.bind_eq_ok_iff.mpr ⟨_, _, Read.run_get, ?_⟩
  rw [htoNat, if_neg (Nat.not_lt.mpr hroom)]
  rfl

/-- A length and what it counts are taken together. -/
theorem length_takes {itemSize count : Nat} {front back : List UInt8} {f : Nat → Read β} {b : β}
    (hwrite : (length itemSize).write count = .ok front) (hroom : count * itemSize ≤ back.length)
    (hf : (f count).Takes back b) : ((length itemSize).read >>= f).Takes (front ++ back) b := by
  intro offset rest
  rw [List.append_assoc, List.length_append, ← Nat.add_assoc]
  refine Read.bind_eq_ok_iff.mpr ⟨count, _, run_length hwrite ?_, hf _ rest⟩
  rw [List.length_append]
  omega

theorem length_refuses {itemSize count : Nat} {front back : List UInt8} {f : Nat → Read β}
    (hwrite : (length itemSize).write count = .ok front) (hroom : count * itemSize ≤ back.length)
    (hf : (f count).Refuses back) : ((length itemSize).read >>= f).Refuses (front ++ back) := by
  intro offset rest
  obtain ⟨e, he⟩ := hf (offset + front.length) rest
  refine ⟨e, ?_⟩
  rw [List.append_assoc, Read.run_bind_of_ok (run_length hwrite ?_), he]
  rw [List.length_append]
  omega

theorem length_yields (itemSize : Nat) :
    (length itemSize).read.Yields fun count n => count < 2 ^ 32 ∧ n = 4 := by
  refine Read.Yields.offset fun start => uint32_plain.yields.bind ?_
  rintro count n ⟨-, bytes, hwrite, rfl⟩
  cases hwrite
  refine Read.Yields.get fun c => Read.Yields.check fun _ => .pure ⟨count.toNat_lt, ?_⟩
  rw [LittleEndian.length_encode]

theorem length_stays (itemSize : Nat) (bytes : List UInt8) :
    (length itemSize).read.StaysIn bytes fun _ => True := by
  refine Read.StaysIn.offset fun start hstart => (uint32_plain.stays bytes).bind fun count _ => ?_
  exact Read.StaysIn.get fun c => Read.StaysIn.check hstart (.pure trivial)

/-- A length is refused when its items have no room, and has room in more bytes when it has. -/
theorem length_steady (itemSize : Nat) : (length itemSize).read.Steady := by
  refine Read.Steady.offset fun start => uint32_plain.steady.bind fun raw => ?_
  intro c more
  rw [Read.run_bind_of_ok Read.run_get, Read.run_bind_of_ok Read.run_get, Cursor.rest_extend,
    List.length_append]
  by_cases hover : c.rest.length < raw.toNat * itemSize
  · rw [if_pos hover]
    exact .malformed ⟨start, .overrun raw.toNat, rfl⟩
  · have hroom : ¬ c.rest.length + more.length < raw.toNat * itemSize := by omega
    rw [if_neg hover, if_neg hroom]
    exact .ok

/-- A length is checked against what is left, which is as much at the other place. -/
theorem length_parallel (itemSize : Nat) :
    Read.Parallel Eq (length itemSize).read (length itemSize).read := by
  refine Read.Parallel.offset fun start start' => uint32_plain.parallel.bind_eq fun raw => ?_
  refine Read.Parallel.get fun c c' hroom => Read.Parallel.check ?_ rfl (.pure rfl)
  rw [hroom]

/-- The items that a length counts have room behind it. -/
theorem length_room {itemSize count : Nat} {c c' : Cursor}
    (h : (length itemSize).read.run c = .ok (count, c')) : count * itemSize ≤ c'.rest.length := by
  obtain ⟨start, _, hstart, h⟩ := Read.bind_eq_ok_iff.mp h
  obtain ⟨raw, c₁, hraw, h⟩ := Read.bind_eq_ok_iff.mp h
  obtain ⟨here, _, hget, h⟩ := Read.bind_eq_ok_iff.mp h
  cases hget
  by_cases hover : c₁.rest.length < raw.toNat * itemSize
  · rw [if_pos hover] at h
    cases h
  · rw [if_neg hover] at h
    cases h
    exact Nat.not_lt.mp hover

theorem length_write_of_lt {itemSize count : Nat} (h : count < 2 ^ 32) :
    (length itemSize).write count = .ok (LittleEndian.encode 4 count) :=
  length_write_eq_ok_iff.mpr ⟨h, rfl⟩

/-! ### Lists -/

/-- Parts of a least size, one for each item, have at least so many bytes together. -/
theorem length_flatten_le {r : α → List UInt8 → Prop} {as : List α} {parts : List (List UInt8)}
    (h : List.Forall₂ r as parts) (hleast : ∀ a part, r a part → size ≤ part.length) :
    as.length * size ≤ parts.flatten.length := by
  induction h with
  | nil => simp
  | cons hpart _ ih =>
    have hle := hleast _ _ hpart
    rw [List.length_cons, List.flatten_cons, List.length_append, Nat.succ_mul]
    omega

theorem list_write_eq_ok_iff {itemSize : Nat} {as : List α} {bytes : List UInt8} :
    (list itemSize c).write as = .ok bytes ↔
      ∃ parts, List.Forall₂ (fun a part => c.write a = .ok part) as parts ∧
        as.length < 2 ^ 32 ∧ bytes = LittleEndian.encode 4 as.length ++ parts.flatten := by
  simp only [list, Except.bind_eq_ok_iff, Except.pure_eq_ok_iff, length_write_eq_ok_iff,
    Except.mapM_eq_ok_iff, eq_comm (b := bytes)]
  constructor
  · rintro ⟨_, ⟨hlt, rfl⟩, parts, hparts, h⟩
    exact ⟨parts, hparts, hlt, h⟩
  · rintro ⟨parts, hparts, hlt, h⟩
    exact ⟨_, ⟨hlt, rfl⟩, parts, hparts, h⟩

/-- What repetitions yield can be written one by one. -/
theorem exists_parts {as : List α} {sizes : List Nat} {P : α → Prop}
    (h : List.Forall₂ (fun a n => P a ∧ c.Fits a n) as sizes) :
    (∀ a ∈ as, P a) ∧ ∃ parts, List.Forall₂ (fun a part => c.write a = .ok part) as parts ∧
      parts.flatten.length = sizes.sum := by
  induction h with
  | nil => exact ⟨by simp, [], .nil, rfl⟩
  | cons hhead _ ih =>
    obtain ⟨hgood, part, hwrite, rfl⟩ := hhead
    obtain ⟨hall, parts, hparts, hsum⟩ := ih
    refine ⟨List.forall_mem_cons.mpr ⟨hgood, hall⟩, part :: parts, .cons hwrite hparts, ?_⟩
    rw [List.flatten_cons, List.length_append, List.sum_cons, hsum]

theorem Lawful.list (h : c.Lawful good size) {itemSize : Nat} (hsize : itemSize ≤ size) :
    (list itemSize c).Lawful (fun as => ∀ a ∈ as, good a) 4 where
  takes := by
    intro as bytes hgood hwrite
    obtain ⟨parts, hparts, hlt, rfl⟩ := list_write_eq_ok_iff.mp hwrite
    -- The length is checked against items of a size that no item falls below.
    refine length_takes (length_write_of_lt hlt) ?_ (Read.Takes.times ?_)
    · exact Nat.le_trans (Nat.mul_le_mul_left _ hsize) (length_flatten_le hparts fun _ _ => h.least)
    · clear hwrite hlt
      induction hparts with
      | nil => exact .nil
      | cons hwrite _ ih =>
        obtain ⟨hhead, htail⟩ := List.forall_mem_cons.mp hgood
        exact .cons (h.takes hhead hwrite) (ih htail)
  least := by
    intro as bytes hwrite
    obtain ⟨parts, -, -, rfl⟩ := list_write_eq_ok_iff.mp hwrite
    rw [List.length_append, LittleEndian.length_encode]
    exact Nat.le_add_right 4 _
  yields := by
    refine (length_yields itemSize).bind ?_
    rintro count n ⟨hlt, rfl⟩
    refine (Read.Yields.times h.yields count).mono ?_
    rintro as n ⟨rfl, sizes, hsizes, rfl⟩
    obtain ⟨hall, parts, hparts, hsum⟩ := exists_parts hsizes
    refine ⟨hall, _, list_write_eq_ok_iff.mpr ⟨parts, hparts, hlt, rfl⟩, ?_⟩
    rw [List.length_append, LittleEndian.length_encode, hsum]
  stays bytes := (length_stays itemSize bytes).bind fun count _ => (h.stays bytes).times count
  steady := (length_steady itemSize).bind fun count => h.steady.times count
  parallel := (length_parallel itemSize).bind_eq fun count => h.parallel.times count

/-- Items of one size make the size of a list depend on its length alone. -/
theorem list_fits_iff {itemSize : Nat} (h : ∀ a, c.Fits a size) {as : List α} :
    (Codec.list itemSize c).Fits as n ↔ as.length < 2 ^ 32 ∧ n = 4 + as.length * size := by
  have hlength {parts : List (List UInt8)}
      (hparts : List.Forall₂ (fun a part => c.write a = .ok part) as parts) :
      parts.flatten.length = as.length * size := by
    induction hparts with
    | nil => simp
    | cons hwrite _ ih =>
      rw [List.flatten_cons, List.length_append, ih, List.length_cons, Nat.succ_mul, Nat.add_comm,
        (fits_iff h).mp ⟨_, hwrite, rfl⟩]
  have hexists : ∃ parts, List.Forall₂ (fun a part => c.write a = .ok part) as parts := by
    apply exists_forall₂
    intro a _
    obtain ⟨part, hwrite, -⟩ := h a
    exact ⟨part, hwrite⟩
  simp only [Fits, list_write_eq_ok_iff]
  constructor
  · rintro ⟨_, ⟨parts, hparts, hlt, rfl⟩, rfl⟩
    exact ⟨hlt, by rw [List.length_append, LittleEndian.length_encode, hlength hparts]⟩
  · rintro ⟨hlt, rfl⟩
    obtain ⟨parts, hparts⟩ := hexists
    exact ⟨_, ⟨parts, hparts, hlt, rfl⟩,
      by rw [List.length_append, LittleEndian.length_encode, hlength hparts]⟩

theorem Plain.list (h : c.Plain size) {itemSize : Nat} (hsize : itemSize ≤ size) :
    (list itemSize c).Plain 4 :=
  (Lawful.list h hsize).congr fun _ => by simp

theorem uint32s_plain : uint32s.Plain 4 := uint32_plain.list (Nat.le_refl 4)

theorem int32s_plain : int32s.Plain 4 := int32_plain.list (Nat.le_refl 4)

theorem pairs_plain : pairs.Plain 4 := (uint32_plain.seq uint32_plain).list (Nat.le_refl 8)

/-! ### Bytes and texts -/

theorem blob_write_eq_ok_iff {data bytes : List UInt8} :
    blob.write data = .ok bytes ↔
      data.length < 2 ^ 32 ∧ bytes = LittleEndian.encode 4 data.length ++ data := by
  simp only [blob, Except.bind_eq_ok_iff, Except.pure_eq_ok_iff, length_write_eq_ok_iff,
    eq_comm (b := bytes)]
  constructor
  · rintro ⟨_, ⟨hlt, rfl⟩, h⟩
    exact ⟨hlt, h⟩
  · rintro ⟨hlt, h⟩
    exact ⟨_, ⟨hlt, rfl⟩, h⟩

theorem blob_plain : blob.Plain 4 where
  takes := by
    intro data bytes _ hwrite
    obtain ⟨hlt, rfl⟩ := blob_write_eq_ok_iff.mp hwrite
    exact length_takes (length_write_of_lt hlt) (by simp) (Read.Takes.bytes rfl)
  least := by
    intro data bytes hwrite
    obtain ⟨-, rfl⟩ := blob_write_eq_ok_iff.mp hwrite
    rw [List.length_append, LittleEndian.length_encode]
    exact Nat.le_add_right 4 _
  yields := by
    refine (length_yields 1).bind ?_
    rintro count n ⟨hlt, rfl⟩
    refine (Read.Yields.bytes count).mono ?_
    rintro data n ⟨rfl, rfl⟩
    refine ⟨trivial, _, blob_write_eq_ok_iff.mpr ⟨hlt, rfl⟩, ?_⟩
    rw [List.length_append, LittleEndian.length_encode]
  stays bytes := (length_stays 1 bytes).bind fun count _ => .bytes count
  steady := (length_steady 1).bind fun count => .bytes count
  parallel := (length_parallel 1).bind_eq fun count => .bytes count

theorem text_plain : text.Plain 4 := by
  refine Lawful.refine blob_plain (fun _ _ => trivial) ?_ ?_
  · intro s bytes _ _
    rw [Utf8.decode_encode]
    rfl
  · intro bytes s n _ hfits hdecode
    have hencode := Utf8.encode_of_decode (Except.mapError_eq_ok_iff.mp hdecode)
    exact ⟨trivial, hencode.symm ▸ hfits⟩

/-! ### Values that may be absent -/

theorem optional_write_some_eq_ok_iff {a : α} {bytes : List UInt8} :
    (optional c).write (some a) = .ok bytes ↔ ∃ xs, c.write a = .ok xs ∧ bytes = 1 :: xs := by
  have hbool : bool.write true = .ok [1] := rfl
  simp only [optional, hbool, Except.bind_eq_ok_iff, Except.pure_eq_ok_iff, eq_comm (b := bytes)]
  constructor
  · rintro ⟨_, ⟨⟩, xs, hxs, h⟩
    exact ⟨xs, hxs, h⟩
  · rintro ⟨xs, hxs, h⟩
    exact ⟨_, rfl, xs, hxs, h⟩

theorem Lawful.optional (h : c.Lawful good size) :
    (optional c).Lawful (fun o => ∀ a ∈ o, good a) 1 where
  takes := by
    -- A flag comes first, and the value only when it is set.
    rintro (_ | a) bytes hgood hwrite
    · have hfalse : bool.read.Takes [0] false := bool_plain.takes trivial rfl
      cases hwrite
      exact hfalse.then Read.Takes.pure
    · obtain ⟨xs, hxs, rfl⟩ := optional_write_some_eq_ok_iff.mp hwrite
      have htrue : bool.read.Takes [1] true := bool_plain.takes trivial rfl
      exact htrue.bind (h.takes (hgood a rfl) hxs).map
  least := by
    rintro (_ | a) bytes hwrite
    · cases hwrite
      exact Nat.le_refl 1
    · obtain ⟨xs, -, rfl⟩ := optional_write_some_eq_ok_iff.mp hwrite
      exact Nat.le_add_left 1 _
  yields := by
    refine bool_plain.yields.bind ?_
    rintro present n ⟨-, bytes, hwrite, rfl⟩
    cases present with
    | false =>
      cases hwrite
      exact .pure ⟨by simp, [0], rfl, rfl⟩
    | true =>
      cases hwrite
      refine Read.Yields.map (h.yields.mono ?_)
      rintro a n ⟨ha, xs, hxs, rfl⟩
      refine ⟨by simpa using ha, 1 :: xs, optional_write_some_eq_ok_iff.mpr ⟨xs, hxs, rfl⟩, ?_⟩
      rw [List.length_cons, Nat.add_comm]
      rfl
  stays bytes := by
    refine (bool_plain.stays bytes).bind fun present _ => ?_
    cases present with
    | false => exact .pure trivial
    | true => exact (h.stays bytes).map
  steady := by
    refine bool_plain.steady.bind fun present => ?_
    cases present with
    | false => exact .pure
    | true => exact h.steady.map
  parallel := by
    refine bool_plain.parallel.bind_eq fun present => ?_
    cases present with
    | false => exact .pure rfl
    | true => exact h.parallel.map

theorem Strict.optional {fair : α → Prop} (h : c.Strict fair good) :
    (optional c).Strict (fun o => ∀ a ∈ o, fair a) (fun o => ∀ a ∈ o, good a) := by
  rintro (_ | a) bytes hfair hbad hwrite
  · exact absurd nofun hbad
  · obtain ⟨xs, hxs, rfl⟩ := optional_write_some_eq_ok_iff.mp hwrite
    have htrue : bool.read.Takes [1] true := bool_plain.takes trivial rfl
    exact htrue.bind_refuses (h (hfair a rfl) (by simpa using hbad) hxs).bind

end Codec

end LayerGraph
