import LayerGraph.Proofs.Numeric.Arithmetic

/-! # Operations that keep the order

  Codes are ordered as the magnitudes they stand for, and rounding keeps the order of fractions.
  So values that are not NaN keep their order when they are converted to another format
  (`position_convert_le`) and when they are rounded to integers (`roundClamped_le`).

  The smaller and the larger of two values are found by position, and a NaN gives way to the other
  value.
-/

namespace LayerGraph

/-! ### Whole numbers -/

section Whole

variable {num num' den : Nat}

theorem roundHalfEven_le (hden : 0 < den) (h : num ≤ num') :
    roundHalfEven num den ≤ roundHalfEven num' den := by
  by_contra hlt
  have hmul := Nat.mul_le_mul_right den (Nat.succ_le_of_lt (not_le.mp hlt))
  rw [Nat.succ_mul] at hmul
  have habove := roundHalfEven_mul_le num hden
  have hbelow := le_roundHalfEven_mul num' hden
  -- Both numbers lie in the middle between the two results, so they are the same.
  obtain rfl : num = num' := by omega
  exact hlt le_rfl

theorem roundHalfUp_le (h : num ≤ num') : roundHalfUp num den ≤ roundHalfUp num' den :=
  Nat.div_le_div_right (by omega)

@[simp] theorem roundHalfUp_zero (hden : 0 < den) : roundHalfUp 0 den = 0 :=
  Nat.div_eq_of_lt (by omega)

end Whole

/-! ### Codes -/

namespace FloatFormat

variable (F : FloatFormat) {num num' den a b : Nat}

/-- A larger code stands for a magnitude that is not smaller. -/
theorem units_le (h : a ≤ b) : F.units a ≤ F.units b := by
  have ha := F.code_eq a
  have hb := F.code_eq b
  have hexponent : F.exponent a ≤ F.exponent b :=
    Nat.sub_le_sub_right (Nat.div_le_div_right h) 1
  have hfull := F.exponent_eq_zero_or b
  have hlt := F.significand_lt a
  unfold units
  obtain heq | hless := Nat.eq_or_lt_of_le hexponent
  · rw [heq] at ha ⊢
    exact Nat.mul_le_mul_right _ (by omega)
  · -- A significand is carried to the next exponent before it is as large as a full one there.
    have hcarry : F.significand a * 2 ^ F.exponent a ≤ 2 * F.hidden * 2 ^ F.exponent a :=
      Nat.mul_le_mul_right _ hlt.le
    calc F.significand a * 2 ^ F.exponent a
      _ ≤ F.hidden * 2 ^ (F.exponent a + 1) := by rw [Nat.pow_succ]; linarith
      _ ≤ F.significand b * 2 ^ F.exponent b :=
        Nat.mul_le_mul (by omega) (Nat.pow_le_pow_right (by decide) hless)

@[simp] theorem units_zero : F.units 0 = 0 := by
  simp [units, significand, F.hidden_pos]

theorem shift_le (den : Nat) (h : num ≤ num') : F.shift num den ≤ F.shift num' den := by
  unfold shift
  obtain hzero | hpos := Nat.eq_zero_or_pos (num / den)
  · simp [hzero]
  · have hquotient : num / den ≤ num' / den := Nat.div_le_div_right h
    have hlog : (num / den).log2 ≤ (num' / den).log2 :=
      (Nat.le_log2 (by omega)).mpr ((Nat.log2_self_le hpos.ne').trans hquotient)
    omega

/-- Rounding keeps the order of fractions. -/
theorem nearest_le (hden : 0 < den) (h : num ≤ num') : F.nearest num den ≤ F.nearest num' den := by
  rw [nearest_eq_min, nearest_eq_min]
  refine min_le_min_left _ ?_
  obtain heq | hless := Nat.eq_or_lt_of_le (F.shift_le den h)
  · rw [heq]
    exact Nat.add_le_add_left
      (roundHalfEven_le (Nat.mul_pos hden (Nat.two_pow_pos _)) h) _
  · -- The smaller fraction is at most the first code of the exponent above its own.
    have hsmall : F.rounded num den ≤ 2 * F.hidden := F.rounded_le num hden
    have hlarge : F.hidden ≤ F.rounded num' den := (F.shift_eq_zero_or hden).resolve_left (by omega)
    have hmul := Nat.mul_le_mul_right F.hidden (Nat.succ_le_of_lt hless)
    rw [Nat.succ_mul] at hmul
    unfold rounded at hsmall hlarge
    omega

@[simp] theorem nearest_zero (den : Nat) : F.nearest 0 den = 0 := by
  simp [nearest_eq_min, shift, roundHalfEven]

theorem nearest_le_infinity (num den : Nat) : F.nearest num den ≤ F.infinity :=
  Nat.min_le_left _ _

end FloatFormat

namespace Binary

variable {F : FloatFormat} {x y : Binary F}

/-! ### NaN -/

theorem isNaN_eq_false_iff : x.isNaN = false ↔ x.code ≤ F.infinity := by
  simp [isNaN]

theorem isNaN_ofCode_nearest (negative : Bool) (num den : Nat) :
    (ofCode negative (F.nearest num den) : Binary F).isNaN = false := by
  rw [isNaN_eq_false_iff, code_ofCode (nearest_lt_signWeight num den)]
  exact F.nearest_le_infinity num den

theorem infinity_add_hidden : F.infinity + F.hidden = F.signWeight := by
  have hone : 0 < 2 ^ F.exponentBits := Nat.two_pow_pos _
  rw [FloatFormat.infinity, FloatFormat.signWeight, Nat.pow_add, ← Nat.succ_mul,
    Nat.succ_eq_add_one, Nat.sub_add_cancel hone]
  rfl

theorem half_hidden (hF : 0 < F.fractionBits) :
    F.hidden / 2 = 2 ^ (F.fractionBits - 1) ∧ F.hidden / 2 + F.hidden / 2 = F.hidden := by
  obtain ⟨n, hn⟩ := Nat.exists_eq_succ_of_ne_zero hF.ne'
  rw [FloatFormat.hidden, hn, Nat.pow_succ, Nat.succ_sub_one]
  omega

/-- The code of a NaN ends in the payload that makes it one. -/
theorem isNaN_ofCode_payload (negative : Bool) {payload : Nat} (hpos : 0 < payload)
    (hlt : payload < F.hidden) :
    (ofCode negative (F.infinity + payload) : Binary F).isNaN = true := by
  rw [isNaN, code_ofCode (by rw [← infinity_add_hidden]; omega), decide_eq_true_eq]
  omega

theorem isNaN_quieted (hF : 0 < F.fractionBits) (hx : x.isNaN = true) :
    x.quieted.isNaN = true := by
  unfold quieted
  split_ifs with hsignaling
  · have hcode : F.infinity < x.code := by simpa [isNaN] using hx
    obtain ⟨payload, hpayload⟩ := Nat.exists_eq_add_of_lt hcode
    have hlt : payload + 1 < F.hidden := by
      have := x.code_lt
      rw [← infinity_add_hidden] at this
      omega
    have hmod : x.code % F.hidden = payload + 1 := by
      rw [hpayload, Nat.add_assoc, FloatFormat.infinity, Nat.mul_add_mod_self_right,
        Nat.mod_eq_of_lt hlt]
    have hhalf := (half_hidden hF).2
    rw [hpayload, Nat.add_assoc, Nat.add_assoc]
    exact isNaN_ofCode_payload _ (by omega) (by omega)
  · exact hx

theorem isNaN_invalid (hF : 0 < F.fractionBits) : (invalid : Binary F).isNaN = true := by
  obtain ⟨hpow, hhalf⟩ := half_hidden hF
  have hpos := Nat.two_pow_pos (F.fractionBits - 1)
  exact isNaN_ofCode_payload true (by omega) (by omega)

/-- Conversion makes NaNs of NaNs only. -/
theorem isNaN_convert (G : FloatFormat) (hG : 0 < G.fractionBits) (x : Binary F) :
    (x.convert G).isNaN = x.isNaN := by
  unfold convert
  split_ifs with hnan hinfinite
  · rw [hnan]
    obtain ⟨hpow, hhalf⟩ := half_hidden hG
    have hpos : 0 < G.hidden / 2 := by
      rw [hpow]
      exact Nat.two_pow_pos _
    have hpayload : x.code % F.hidden * G.hidden / F.hidden < G.hidden := by
      rw [Nat.div_lt_iff_lt_mul F.hidden_pos, Nat.mul_comm G.hidden]
      exact Nat.mul_lt_mul_of_pos_right (Nat.mod_lt _ F.hidden_pos) G.hidden_pos
    refine isNaN_ofCode_payload _ (Nat.lt_of_lt_of_le hpos Nat.right_le_or) ?_
    exact Nat.or_lt_two_pow hpayload (by unfold FloatFormat.hidden at *; omega)
  · rw [infinity, isNaN_eq_false_iff.mpr (code_ofCode infinity_lt_signWeight).le]
    simpa using hnan
  · rw [ofUnits, isNaN_ofCode_nearest]
    simpa using hnan

/-! ### Position -/

theorem position_ofCode {negative : Bool} {code : Nat} (h : code < F.signWeight) :
    (ofCode negative code : Binary F).position = if negative then -(code : Int) else code := by
  rw [position, isNegative_ofCode h, code_ofCode h]

theorem lt_iff (hx : x.isNaN = false) (hy : y.isNaN = false) :
    x.lt y = true ↔ x.position < y.position := by
  simp [lt, hx, hy]

theorem lt_eq_false_iff (hx : x.isNaN = false) (hy : y.isNaN = false) :
    x.lt y = false ↔ y.position ≤ x.position := by
  simp [lt, hx, hy]

@[simp] theorem isNaN_min : (x.min y).isNaN = (x.isNaN && y.isNaN) := by
  unfold Binary.min
  split_ifs <;> simp_all

@[simp] theorem isNaN_max : (x.max y).isNaN = (x.isNaN && y.isNaN) := by
  unfold Binary.max
  split_ifs <;> simp_all

theorem position_min (hx : x.isNaN = false) (hy : y.isNaN = false) :
    (x.min y).position = Min.min x.position y.position := by
  unfold Binary.min
  simp only [hx, hy, Bool.false_eq_true, if_false]
  split_ifs with h
  · exact (min_eq_left ((lt_iff hx hy).mp h).le).symm
  · rw [Bool.not_eq_true, lt_eq_false_iff hx hy] at h
    exact (min_eq_right h).symm

theorem position_max (hx : x.isNaN = false) (hy : y.isNaN = false) :
    (x.max y).position = Max.max x.position y.position := by
  unfold Binary.max
  simp only [hx, hy, Bool.false_eq_true, if_false]
  split_ifs with h
  · exact (max_eq_left ((lt_iff hy hx).mp h).le).symm
  · rw [Bool.not_eq_true, lt_eq_false_iff hy hx] at h
    exact (max_eq_right h).symm

/-! ### Keeping the order -/

/-- A function of sign and code that follows the number line on either side, and does not tell the
    two zeros apart, keeps the order of numbers. -/
theorem signed_le {f : Bool → Nat → Int}
    (hright : ∀ a b, b ≤ F.infinity → a ≤ b → f false a ≤ f false b)
    (hleft : ∀ a b, b ≤ F.infinity → a ≤ b → f true b ≤ f true a) (hzero : f true 0 = f false 0)
    (hx : x.isNaN = false) (hy : y.isNaN = false) (h : x.position ≤ y.position) :
    f x.isNegative x.code ≤ f y.isNegative y.code := by
  rw [isNaN_eq_false_iff] at hx hy
  unfold position at h
  cases hxneg : x.isNegative <;> cases hyneg : y.isNegative <;>
    simp only [hxneg, hyneg, Bool.false_eq_true, if_true, if_false] at h
  · exact hright _ _ hy (by omega)
  · -- Only the two zeros are so.
    have hx0 : x.code = 0 := by omega
    have hy0 : y.code = 0 := by omega
    rw [hx0, hy0, hzero]
  · calc f true x.code ≤ f true 0 := hleft _ _ hx (Nat.zero_le _)
      _ = f false 0 := hzero
      _ ≤ f false y.code := hright _ _ hy (Nat.zero_le _)
  · exact hleft _ _ hx (by omega)

/-- The code that a code is converted to, when it is that of a number. -/
def convertedCode (F G : FloatFormat) (code : Nat) : Nat :=
  if code = F.infinity then G.infinity else G.nearest (F.units code * 2 ^ G.scale) (2 ^ F.scale)

theorem convertedCode_le (F G : FloatFormat) {a b : Nat} (hb : b ≤ F.infinity) (h : a ≤ b) :
    convertedCode F G a ≤ convertedCode F G b := by
  unfold convertedCode
  split_ifs
  · exact le_rfl
  · omega
  · exact G.nearest_le_infinity _ _
  · exact G.nearest_le (Nat.two_pow_pos _) (Nat.mul_le_mul_right _ (F.units_le h))

theorem position_convert (G : FloatFormat) (hx : x.isNaN = false) :
    (x.convert G).position =
      if x.isNegative then -(convertedCode F G x.code : Int) else convertedCode F G x.code := by
  unfold convert convertedCode isInfinite
  simp only [hx, Bool.false_eq_true, if_false, beq_iff_eq]
  split
  · rw [infinity, position_ofCode infinity_lt_signWeight]
  · rw [ofUnits, position_ofCode (nearest_lt_signWeight _ _), units]

/-- Conversion keeps the order of numbers. -/
theorem position_convert_le (G : FloatFormat) (hF : F.infinity ≠ 0) (hx : x.isNaN = false)
    (hy : y.isNaN = false) (h : x.position ≤ y.position) :
    (x.convert G).position ≤ (y.convert G).position := by
  rw [position_convert G hx, position_convert G hy]
  refine signed_le (f := fun negative code =>
    if negative then -(convertedCode F G code : Int) else convertedCode F G code) ?_ ?_ ?_ hx hy h
  · intro a b hb hab
    exact Int.ofNat_le.mpr (convertedCode_le F G hb hab)
  · intro a b hb hab
    exact neg_le_neg (Int.ofNat_le.mpr (convertedCode_le F G hb hab))
  · simp [convertedCode, hF.symm]

/-- The integer that a sign and a code are rounded to, when they are those of a number. -/
def roundedCode (F : FloatFormat) (lo hi : Int) (negative : Bool) (code : Nat) : Int :=
  if code = F.infinity then if negative then lo else hi
  else
    let magnitude : Int := roundHalfUp (F.units code) (2 ^ F.scale)
    Max.max lo (Min.min hi (if negative then -magnitude else magnitude))

theorem roundClamped_eq (lo hi : Int) (hx : x.isNaN = false) :
    x.roundClamped lo hi = roundedCode F lo hi x.isNegative x.code := by
  unfold roundClamped roundedCode isInfinite
  simp only [hx, Bool.false_eq_true, if_false, beq_iff_eq, units]

/-- The result lies between the ends. -/
theorem roundClamped_mem {lo hi : Int} (hlo : lo ≤ 0) (hhi : 0 ≤ hi) (x : Binary F) :
    lo ≤ x.roundClamped lo hi ∧ x.roundClamped lo hi ≤ hi := by
  unfold roundClamped
  dsimp only
  split_ifs <;> omega

/-- Rounding to integers keeps the order of numbers. -/
theorem roundClamped_le {lo hi : Int} (hF : F.infinity ≠ 0) (hlo : lo ≤ hi) (hx : x.isNaN = false)
    (hy : y.isNaN = false) (h : x.position ≤ y.position) :
    x.roundClamped lo hi ≤ y.roundClamped lo hi := by
  have hround (a b : Nat) (hab : a ≤ b) : (roundHalfUp (F.units a) (2 ^ F.scale) : Int) ≤
      roundHalfUp (F.units b) (2 ^ F.scale) :=
    Int.ofNat_le.mpr (roundHalfUp_le (F.units_le hab))
  rw [roundClamped_eq lo hi hx, roundClamped_eq lo hi hy]
  refine signed_le (f := roundedCode F lo hi) ?_ ?_ ?_ hx hy h
  · intro a b hb hab
    have := hround a b hab
    simp only [roundedCode, Bool.false_eq_true, if_false]
    split_ifs <;> omega
  · intro a b hb hab
    have := hround a b hab
    simp only [roundedCode, if_true]
    split_ifs <;> omega
  · simp [roundedCode, hF.symm]

/-- What is zero or no number is rounded to zero. -/
theorem roundClamped_eq_zero {lo hi : Int} (hF : F.infinity ≠ 0) (hlo : lo ≤ 0) (hhi : 0 ≤ hi)
    (h : x.isNaN = true ∨ x.code = 0) : x.roundClamped lo hi = 0 := by
  obtain hnan | hzero := h
  · rw [roundClamped, if_pos hnan]
  · rw [roundClamped_eq lo hi (by simp [isNaN, hzero]), hzero, roundedCode, if_neg hF.symm]
    simp [hlo, hhi]

/-- Zero divided by anything is zero or no number. -/
theorem div_of_code_eq_zero (hfraction : 0 < F.fractionBits) (hF : F.infinity ≠ 0)
    (hx : x.code = 0) : (x / y).isNaN = true ∨ (x / y).code = 0 := by
  have hnumber : x.isNaN = false := by simp [isNaN, hx]
  have hfinite : x.isInfinite = false := by simp [isInfinite, hx, hF.symm]
  show (div x y).isNaN = true ∨ (div x y).code = 0
  simp only [div, withoutNaN, hnumber, hfinite, hx, units, FloatFormat.units_zero, Nat.zero_mul,
    Bool.false_eq_true, if_false, beq_self_eq_true, if_true]
  split_ifs with hnan hinfinite hzero
  · exact .inl (isNaN_quieted hfraction hnan)
  · exact .inr (code_ofCode signWeight_pos)
  · exact .inl (isNaN_invalid hfraction)
  · right
    rw [ofUnits, F.nearest_zero]
    exact code_ofCode signWeight_pos

end Binary

end LayerGraph
