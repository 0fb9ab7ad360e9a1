import LayerGraph.Text.Utf8
import LayerGraph.Proofs.Outcome

/-! # Texts and their bytes

  Main statements: decoding gives back every text that was encoded (`decode_encode`), and what is
  decoded was encoded that way (`encode_of_decode`), so no two byte sequences stand for one text.

  A character has one to four bytes. For each of these sizes the numbers in the bytes and the
  scalar value of the character determine each other, which is plain arithmetic on both sides.
-/

namespace LayerGraph

namespace Utf8

/-! ### First bytes -/

variable {b : UInt8} {index scalar : Nat} {rest : List UInt8}

/-- What a first byte says depends on its number. -/
theorem lead?_eq (b : UInt8) :
    lead? b =
      if b.toNat < 0xC2 then none
      else if b.toNat < 0xE0 then some ⟨b.toNat % 32, 1, 0x80, 0xBF⟩
      else if b.toNat = 0xE0 then some ⟨0, 2, 0xA0, 0xBF⟩
      else if b.toNat = 0xED then some ⟨13, 2, 0x80, 0x9F⟩
      else if b.toNat < 0xF0 then some ⟨b.toNat % 16, 2, 0x80, 0xBF⟩
      else if b.toNat = 0xF0 then some ⟨0, 3, 0x90, 0xBF⟩
      else if b.toNat < 0xF4 then some ⟨b.toNat % 8, 3, 0x80, 0xBF⟩
      else if b.toNat = 0xF4 then some ⟨4, 3, 0x80, 0x8F⟩
      else none := by
  simp only [lead?, UInt8.lt_iff_toNat_lt, ← UInt8.toNat_inj]
  rfl

theorem lead?_two (hlow : 0xC2 ≤ b.toNat) (hhigh : b.toNat < 0xE0) :
    lead? b = some ⟨b.toNat % 32, 1, 0x80, 0xBF⟩ := by
  rw [lead?_eq, if_neg (by omega), if_pos hhigh]

/-- The second of three bytes leaves out what fits in two, and the surrogates. -/
theorem lead?_three (hlow : 0xE0 ≤ b.toNat) (hhigh : b.toNat < 0xF0) :
    lead? b = some ⟨b.toNat % 16, 2, if b.toNat = 0xE0 then 0xA0 else 0x80,
      if b.toNat = 0xED then 0x9F else 0xBF⟩ := by
  rw [lead?_eq, if_neg (by omega), if_neg (by omega)]
  by_cases h : b.toNat = 0xE0
  · simp [h]
  · by_cases h' : b.toNat = 0xED
    · simp [h']
    · simp [h, h', hhigh]

/-- The second of four bytes leaves out what fits in three, and what is beyond the last scalar. -/
theorem lead?_four (hlow : 0xF0 ≤ b.toNat) (hhigh : b.toNat < 0xF5) :
    lead? b = some ⟨b.toNat % 8, 3, if b.toNat = 0xF0 then 0x90 else 0x80,
      if b.toNat = 0xF4 then 0x8F else 0xBF⟩ := by
  rw [lead?_eq, if_neg (by omega), if_neg (by omega), if_neg (by omega), if_neg (by omega),
    if_neg (by omega)]
  by_cases h : b.toNat = 0xF0
  · simp [h]
  · by_cases h' : b.toNat = 0xF4
    · simp [h']
    · have hlt : b.toNat < 0xF4 := by omega
      simp [h, h', hlt]

theorem lead?_none (h : b.toNat < 0xC2 ∨ 0xF5 ≤ b.toNat) : lead? b = none := by
  rw [lead?_eq]
  rcases h with h | h
  · rw [if_pos h]
  · rw [if_neg (by omega), if_neg (by omega), if_neg (by omega), if_neg (by omega),
      if_neg (by omega), if_neg (by omega), if_neg (by omega), if_neg (by omega)]

/-- Reads one more byte of a character. -/
theorem follow_cons {index taken payload extra : Nat} {lowest highest b : UInt8} {rest : List UInt8}
    (hlow : lowest.toNat ≤ b.toNat) (hhigh : b.toNat ≤ highest.toNat) :
    follow index taken payload lowest highest (extra + 1) (b :: rest) =
      follow index (taken + 1) (payload * 64 + b.toNat % 64) 0x80 0xBF extra rest := by
  rw [follow, if_pos ⟨UInt8.le_iff_toNat_le.mpr hlow, UInt8.le_iff_toNat_le.mpr hhigh⟩]

theorem follow_succ_eq_ok {index taken payload extra scalar : Nat} {lowest highest : UInt8}
    {bytes : List UInt8}
    (h : follow index taken payload lowest highest (extra + 1) bytes = .ok scalar) :
    ∃ b rest, bytes = b :: rest ∧ lowest.toNat ≤ b.toNat ∧ b.toNat ≤ highest.toNat ∧
      follow index (taken + 1) (payload * 64 + b.toNat % 64) 0x80 0xBF extra rest = .ok scalar := by
  cases bytes with
  | nil => cases h
  | cons b rest =>
    rw [follow] at h
    split at h
    · next hb =>
      exact ⟨b, rest, rfl, UInt8.le_iff_toNat_le.mp hb.1, UInt8.le_iff_toNat_le.mp hb.2, h⟩
    · cases h

/-! ### The bytes of a scalar value -/

/-- The bytes are the shortest ones for the scalar value. -/
inductive Spells : List UInt8 → Nat → Prop where
  | one {b : UInt8} {v : Nat} : v < 0x80 → b.toNat = v → Spells [b] v
  | two {b x : UInt8} {v : Nat} : 0x80 ≤ v → v < 0x800 →
      b.toNat = v / 64 + 0xC0 → x.toNat = v % 64 + 0x80 → Spells [b, x] v
  | three {b x y : UInt8} {v : Nat} : 0x800 ≤ v → v < 0x10000 → v < 0xD800 ∨ 0xDFFF < v →
      b.toNat = v / 4096 + 0xE0 → x.toNat = v / 64 % 64 + 0x80 → y.toNat = v % 64 + 0x80 →
      Spells [b, x, y] v
  | four {b x y z : UInt8} {v : Nat} : 0x10000 ≤ v → v < 0x110000 →
      b.toNat = v / 262144 + 0xF0 → x.toNat = v / 4096 % 64 + 0x80 →
      y.toNat = v / 64 % 64 + 0x80 → z.toNat = v % 64 + 0x80 → Spells [b, x, y, z] v

theorem spells_encodeChar (c : Char) : Spells (String.utf8EncodeChar c) c.val.toNat := by
  have hvalid : c.val.toNat < 0xD800 ∨ 0xDFFF < c.val.toNat ∧ c.val.toNat < 0x110000 := c.valid
  have hbyte {n : Nat} (h : n < 256) : (UInt8.ofNat n).toNat = n := UInt8.toNat_ofNat_of_lt' h
  simp only [String.utf8EncodeChar]
  generalize c.val.toNat = v at hvalid
  split
  · exact .one (by omega) (hbyte (by omega))
  · split
    · refine .two (by omega) (by omega) ((hbyte (by omega)).trans ?_) (hbyte (by omega))
      omega
    · split
      · refine .three (by omega) (by omega) (by omega) ((hbyte (by omega)).trans ?_)
          (hbyte (by omega)) (hbyte (by omega))
        omega
      · refine .four (by omega) (by omega) ((hbyte (by omega)).trans ?_)
          (hbyte (by omega)) (hbyte (by omega)) (hbyte (by omega))
        omega

theorem Spells.valid {bytes : List UInt8} (h : Spells bytes scalar) : scalar.isValidChar := by
  cases h with
  | one => exact .inl (by omega)
  | two => exact .inl (by omega)
  | three =>
    unfold Nat.isValidChar
    omega
  | four => exact .inr (by omega)

/-- A scalar value has one spelling. -/
theorem Spells.unique {xs ys : List UInt8} (hx : Spells xs scalar) (hy : Spells ys scalar) :
    xs = ys := by
  cases hx <;> cases hy <;>
    first
    | omega
    | (simp only [List.cons.injEq, ← UInt8.toNat_inj, and_true]; omega)

theorem Spells.encodeChar_eq {bytes : List UInt8} (h : Spells bytes scalar) :
    String.utf8EncodeChar (Char.ofNat scalar) = bytes := by
  have hval : (Char.ofNat scalar).val.toNat = scalar := by
    rw [Char.ofNat, dif_pos h.valid]
    rfl
  have hspells := spells_encodeChar (Char.ofNat scalar)
  rw [hval] at hspells
  exact hspells.unique h

/-! ### Decoding -/

/-- The bytes of a scalar value are decoded to its character. -/
theorem Spells.decodeFrom {bytes : List UInt8} (h : Spells bytes scalar) (index : Nat)
    (rest : List UInt8) :
    decodeFrom index (bytes ++ rest) =
      (decodeFrom (index + bytes.length) rest).map (Char.ofNat scalar :: ·) := by
  -- What follows a first byte that begins a character of several bytes.
  have hlead {b : UInt8} {lead : Lead} {tail : List UInt8} (hb : 0x80 ≤ b.toNat)
      (hlead : lead? b = some lead)
      (hfollow : follow index 1 lead.payload lead.lowest lead.highest lead.extra tail = .ok scalar) :
      Utf8.decodeFrom index (b :: tail) = (Utf8.decodeFrom (index + 1 + lead.extra)
        (tail.drop lead.extra)).map (Char.ofNat scalar :: ·) := by
    have hnot : ¬ b < 0x80 := fun hlt => absurd (UInt8.lt_iff_toNat_lt.mp hlt) (Nat.not_lt.mpr hb)
    rw [Utf8.decodeFrom, if_neg hnot, hlead]
    simp only [hfollow]
    cases Utf8.decodeFrom (index + 1 + lead.extra) (tail.drop lead.extra) <;> rfl
  cases h with
  | @one b v hv hb =>
    have hlt : b < 0x80 := UInt8.lt_iff_toNat_lt.mpr (by rw [hb]; exact hv)
    rw [List.singleton_append, Utf8.decodeFrom, if_pos hlt, hb]
    cases Utf8.decodeFrom (index + 1) rest <;> rfl
  | @two b x v hlow hhigh hb hx =>
    refine hlead (by omega) (lead?_two (by omega) (by omega)) ?_
    show follow index 1 (b.toNat % 32) 0x80 0xBF 1 (x :: rest) = .ok scalar
    rw [follow_cons (by simp [hx]) (by simp [hx]; omega), follow]
    congr 1
    omega
  | @three b x y v hlow hhigh hnot hb hx hy =>
    refine hlead (by omega) (lead?_three (by omega) (by omega)) ?_
    show follow index 1 (b.toNat % 16) _ _ 2 (x :: y :: rest) = .ok scalar
    have hxlow : (if b.toNat = 0xE0 then (0xA0 : UInt8) else 0x80).toNat ≤ x.toNat := by
      split <;> simp <;> omega
    have hxhigh : x.toNat ≤ (if b.toNat = 0xED then (0x9F : UInt8) else 0xBF).toNat := by
      split <;> simp <;> omega
    rw [follow_cons hxlow hxhigh,
      follow_cons (by simp [hy]) (by simp [hy]; omega), follow]
    congr 1
    omega
  | @four b x y z v hlow hhigh hb hx hy hz =>
    refine hlead (by omega) (lead?_four (by omega) (by omega)) ?_
    show follow index 1 (b.toNat % 8) _ _ 3 (x :: y :: z :: rest) = .ok scalar
    have hxlow : (if b.toNat = 0xF0 then (0x90 : UInt8) else 0x80).toNat ≤ x.toNat := by
      split <;> simp <;> omega
    have hxhigh : x.toNat ≤ (if b.toNat = 0xF4 then (0x8F : UInt8) else 0xBF).toNat := by
      split <;> simp <;> omega
    rw [follow_cons hxlow hxhigh,
      follow_cons (by simp [hy]) (by simp [hy]; omega),
      follow_cons (by simp [hz]) (by simp [hz]; omega), follow]
    congr 1
    omega

/-- What is read as a character of several bytes is one. -/
theorem spells_of_follow {lead : Lead} (hlead : lead? b = some lead)
    (hfollow : follow index 1 lead.payload lead.lowest lead.highest lead.extra rest = .ok scalar) :
    Spells (b :: rest.take lead.extra) scalar := by
  have hlt := b.toNat_lt
  by_cases hnone : b.toNat < 0xC2 ∨ 0xF5 ≤ b.toNat
  · rw [lead?_none hnone] at hlead
    cases hlead
  · -- The lead byte tells how many bytes follow, and narrows the first of them.
    by_cases htwo : b.toNat < 0xE0
    · rw [lead?_two (by omega) htwo] at hlead
      cases hlead
      obtain ⟨x, rest, rfl, hxlow, hxhigh, hdone⟩ := follow_succ_eq_ok hfollow
      have hscalar : b.toNat % 32 * 64 + x.toNat % 64 = scalar := Except.ok.inj hdone
      simp at hxlow hxhigh
      exact .two (by omega) (by omega) (by omega) (by omega)
    · by_cases hthree : b.toNat < 0xF0
      · rw [lead?_three (by omega) hthree] at hlead
        cases hlead
        obtain ⟨x, rest, rfl, hxlow, hxhigh, hfollow⟩ := follow_succ_eq_ok hfollow
        obtain ⟨y, rest, rfl, hylow, hyhigh, hdone⟩ := follow_succ_eq_ok hfollow
        have hscalar : (b.toNat % 16 * 64 + x.toNat % 64) * 64 + y.toNat % 64 = scalar :=
          Except.ok.inj hdone
        have hx : 0x80 ≤ x.toNat ∧ x.toNat ≤ 0xBF ∧ (b.toNat = 0xE0 → 0xA0 ≤ x.toNat) ∧
            (b.toNat = 0xED → x.toNat ≤ 0x9F) := by
          simp only [apply_ite UInt8.toNat, UInt8.reduceToNat] at hxlow hxhigh
          split at hxlow <;> split at hxhigh <;> omega
        simp at hylow hyhigh
        exact .three (by omega) (by omega) (by omega) (by omega) (by omega) (by omega)
      · rw [lead?_four (by omega) (by omega)] at hlead
        cases hlead
        obtain ⟨x, rest, rfl, hxlow, hxhigh, hfollow⟩ := follow_succ_eq_ok hfollow
        obtain ⟨y, rest, rfl, hylow, hyhigh, hfollow⟩ := follow_succ_eq_ok hfollow
        obtain ⟨z, rest, rfl, hzlow, hzhigh, hdone⟩ := follow_succ_eq_ok hfollow
        have hscalar : ((b.toNat % 8 * 64 + x.toNat % 64) * 64 + y.toNat % 64) * 64 +
            z.toNat % 64 = scalar := Except.ok.inj hdone
        have hx : 0x80 ≤ x.toNat ∧ x.toNat ≤ 0xBF ∧ (b.toNat = 0xF0 → 0x90 ≤ x.toNat) ∧
            (b.toNat = 0xF4 → x.toNat ≤ 0x8F) := by
          simp only [apply_ite UInt8.toNat, UInt8.reduceToNat] at hxlow hxhigh
          split at hxlow <;> split at hxhigh <;> omega
        simp at hylow hyhigh hzlow hzhigh
        exact .four (by omega) (by omega) (by omega) (by omega) (by omega) (by omega)

/-! ### Texts -/

theorem decodeFrom_encode (index : Nat) (chars : List Char) :
    decodeFrom index (chars.flatMap String.utf8EncodeChar) = .ok chars := by
  induction chars generalizing index with
  | nil =>
    rw [List.flatMap_nil, decodeFrom]
  | cons c chars ih =>
    have hc : Char.ofNat c.val.toNat = c := Char.ofNat_toNat c
    rw [List.flatMap_cons, (spells_encodeChar c).decodeFrom, ih, hc]
    rfl

/-- Decoding gives back the text that was encoded. -/
theorem decode_encode (text : String) : decode (encode text) = .ok text := by
  show (decodeFrom 0 (text.toList.flatMap String.utf8EncodeChar) >>= _) = _
  rw [decodeFrom_encode, Except.bind_eq_ok_iff]
  exact ⟨_, rfl, by rw [String.ofList_toList]; rfl⟩

theorem encode_of_decodeFrom {bytes : List UInt8} {chars : List Char}
    (h : decodeFrom index bytes = .ok chars) : chars.flatMap String.utf8EncodeChar = bytes := by
  fun_induction decodeFrom index bytes generalizing chars with
  | case1 =>
    cases h
    rfl
  | case2 index b rest hb ih =>
    obtain ⟨tail, htail, h⟩ := Except.bind_eq_ok_iff.mp h
    cases h
    have hone : Spells [b] b.toNat := .one (UInt8.lt_iff_toNat_lt.mp hb) rfl
    rw [List.flatMap_cons, ih htail, hone.encodeChar_eq]
    rfl
  | case3 => cases h
  | case4 index b rest hb lead hlead ih =>
    obtain ⟨scalar, hscalar, h⟩ := Except.bind_eq_ok_iff.mp h
    obtain ⟨tail, htail, h⟩ := Except.bind_eq_ok_iff.mp h
    cases h
    rw [List.flatMap_cons, ih htail, (spells_of_follow hlead hscalar).encodeChar_eq,
      List.cons_append, List.take_append_drop]

/-- What is decoded was encoded that way. -/
theorem encode_of_decode {bytes : List UInt8} {text : String} (h : decode bytes = .ok text) :
    encode text = bytes := by
  obtain ⟨chars, hchars, h⟩ := Except.bind_eq_ok_iff.mp h
  cases h
  rw [encode, String.toList_ofList]
  exact encode_of_decodeFrom hchars

end Utf8

end LayerGraph
