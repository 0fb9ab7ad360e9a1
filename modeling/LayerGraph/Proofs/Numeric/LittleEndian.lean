import LayerGraph.Numeric.LittleEndian

/-! # Bytes give back the numbers they were made from

  A number has as many bytes as its width says, and decoding gives the number back as far as
  these bytes hold it. Cells that are written one after the other are cut apart again, and there
  are as many cells as the bytes have widths.
-/

namespace LayerGraph

namespace LittleEndian

@[simp] theorem length_encode (width n : Nat) : (encode width n).length = width := by
  induction width generalizing n with
  | zero => rfl
  | succ width ih => rw [encode, List.length_cons, ih]

@[simp] theorem length_encodeInt (width : Nat) (n : Int) : (encodeInt width n).length = width :=
  length_encode width _

@[simp] theorem length_encodeBinary {F : FloatFormat} (x : Binary F) :
    (encodeBinary x).length = F.width / 8 := length_encode _ _

/-- The bytes hold the number modulo `256 ^ width`. -/
theorem decode_encode (width n : Nat) : decode (encode width n) = n % 256 ^ width := by
  induction width generalizing n with
  | zero => simp [encode, decode, Nat.mod_one]
  | succ width ih =>
    have hpow : 256 ^ (width + 1) = 256 * 256 ^ width := Nat.pow_succ'
    rw [encode, decode, ih, UInt8.toNat_ofNat', hpow, Nat.mod_mul]

theorem decode_encode_of_lt {width n : Nat} (h : n < 256 ^ width) :
    decode (encode width n) = n := by
  rw [decode_encode, Nat.mod_eq_of_lt h]

theorem decode_lt (bytes : List UInt8) : decode bytes < 256 ^ bytes.length := by
  induction bytes with
  | nil => exact Nat.one_pos
  | cons b rest ih =>
    have hb := b.toNat_lt
    rw [decode, List.length_cons, Nat.pow_succ']
    omega

/-- All bytes are those of the number that they denote. -/
theorem encode_decode (bytes : List UInt8) : encode bytes.length (decode bytes) = bytes := by
  induction bytes with
  | nil => rfl
  | cons b rest ih =>
    have hb := b.toNat_lt
    have hrest : (b.toNat + 256 * decode rest) / 256 = decode rest := by omega
    have hlow : UInt8.ofNat (b.toNat + 256 * decode rest) = b := by
      rw [← UInt8.toNat_inj, UInt8.toNat_ofNat']
      omega
    rw [decode, List.length_cons, encode, hrest, hlow, ih]

theorem two_pow_eight_mul (width : Nat) : 2 ^ (8 * width) = 256 ^ width := Nat.pow_mul 2 8 width

/-- Two's complement gives back what fits in it. -/
theorem decodeInt_encodeInt (width : Nat) (n : Int) :
    decodeInt (encodeInt width n) = n.bmod (2 ^ (8 * width)) := by
  have hcast : ((2 ^ (8 * width) : Nat) : Int) = 2 ^ (8 * width) := Int.natCast_pow 2 (8 * width)
  have hpos : (0 : Int) < 2 ^ (8 * width) := Int.pow_pos (by decide)
  have hnonneg := Int.emod_nonneg n (Int.ne_of_gt hpos)
  have hlt : (n % 2 ^ (8 * width)).toNat < 256 ^ width := by
    rw [← two_pow_eight_mul, Int.toNat_lt hnonneg, hcast]
    exact Int.emod_lt_of_pos n hpos
  rw [decodeInt, length_encodeInt, encodeInt, decode_encode_of_lt hlt, Int.toNat_of_nonneg hnonneg,
    ← hcast, Int.emod_bmod]

theorem encodeInt_decodeInt (bytes : List UInt8) :
    encodeInt bytes.length (decodeInt bytes) = bytes := by
  have hlt := decode_lt bytes
  rw [← two_pow_eight_mul] at hlt
  have hcast : ((2 ^ (8 * bytes.length) : Nat) : Int) = 2 ^ (8 * bytes.length) :=
    Int.natCast_pow 2 (8 * bytes.length)
  have hsame : decodeInt bytes % 2 ^ (8 * bytes.length) = decode bytes := by
    rw [decodeInt, ← hcast, Int.bmod_emod, ← Int.natCast_emod, Nat.mod_eq_of_lt hlt]
  rw [encodeInt, hsame, Int.toNat_natCast, encode_decode]

/-- The bytes of a value are those of its bits. -/
theorem decodeBinary_encodeBinary {F : FloatFormat} (x : Binary F) (h : 8 ∣ F.width) :
    decodeBinary F (encodeBinary x) = x := by
  have hlt : x.bits.toNat < 256 ^ (F.width / 8) := by
    have hpow : 256 ^ (F.width / 8) = 2 ^ F.width := by
      rw [show (256 : Nat) = 2 ^ 8 from rfl, ← Nat.pow_mul, Nat.mul_div_cancel' h]
    rw [hpow]
    exact x.bits.isLt
  obtain ⟨bits⟩ := x
  rw [decodeBinary, encodeBinary, decode_encode_of_lt hlt, BitVec.ofNat_toNat, BitVec.setWidth_eq]

end LittleEndian

/-- Cutting cells of one width out of their bytes gives the cells. -/
theorem cells_flatten {width : Nat} (hwidth : 0 < width) {values : List (List UInt8)}
    (h : ∀ v ∈ values, v.length = width) : cells width values.flatten = values := by
  induction values with
  | nil =>
    unfold cells
    rw [dif_neg (by simp; omega)]
  | cons v values ih =>
    obtain ⟨hv, hvalues⟩ := List.forall_mem_cons.mp h
    unfold cells
    rw [List.flatten_cons, dif_pos ⟨hwidth, by rw [List.length_append]; omega⟩,
      List.take_left' hv, List.drop_left' hv, ih hvalues]

/-- There is a cell for each full width of bytes. -/
theorem length_cells {width : Nat} (hwidth : 0 < width) (bytes : List UInt8) :
    (cells width bytes).length = bytes.length / width := by
  fun_induction cells width bytes with
  | case1 bytes h ih =>
    rw [List.length_cons, ih, List.length_drop, ← Nat.div_eq_sub_div hwidth h.2]
  | case2 bytes h => exact (Nat.div_eq_of_lt (by omega)).symm

end LayerGraph
