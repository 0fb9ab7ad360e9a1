import LayerGraph.Proofs.Numeric.Order
import LayerGraph.Proofs.Numeric.Overflow
import LayerGraph.Quantize.Scheme

/-! # Stored values

  A value in scale is rounded to an integer of 64 bits, which saturates, and the offset is added in
  64 bits, which does not: a sum beyond 64 bits stops the program. The last value in scale below
  `2 ^ 63` is further from the end of 64 bits than an offset reaches, so this happens only when the
  value in scale saturated and the offset leads further out (`le_exactSum_iff`,
  `exactSum_lt_iff`). Every other sum is moved into the integers of the scheme
  (`quantizeValue_eq_ok_iff`).

  The parameters of a range store zero exactly, also where the scale is too small or too large for
  single precision (`compute_stores_zero`).
-/

namespace LayerGraph

/-! ### Rounding to 64 bits -/

namespace Binary

variable {x : Binary32}

/-- What is rounded to 64 bits has 64 bits. -/
theorem roundClamped_bounds (x : Binary32) : -2 ^ 63 ≤ x.roundClamped (-2 ^ 63) (2 ^ 63 - 1) ∧
    x.roundClamped (-2 ^ 63) (2 ^ 63 - 1) ≤ 2 ^ 63 - 1 :=
  roundClamped_mem (by norm_num) (by norm_num) x

/-- From `2 ^ 63` on a value saturates. -/
theorem roundClamped_of_limit_le (hx : x.isNaN = false)
    (h : x.lt (.ofInt (2 ^ 63)) = false) : x.roundClamped (-2 ^ 63) (2 ^ 63 - 1) = 2 ^ 63 - 1 := by
  have hlimit : (ofInt (2 ^ 63) : Binary32).isNaN = false := by decide +kernel
  have hround : (ofInt (2 ^ 63) : Binary32).roundClamped (-2 ^ 63) (2 ^ 63 - 1) = 2 ^ 63 - 1 := by
    decide +kernel
  have hle : (ofInt (2 ^ 63) : Binary32).roundClamped (-2 ^ 63) (2 ^ 63 - 1) ≤
      x.roundClamped (-2 ^ 63) (2 ^ 63 - 1) :=
    roundClamped_le (by decide) (by norm_num) hlimit hx ((lt_eq_false_iff hx hlimit).mp h)
  have hbounds := x.roundClamped_bounds
  omega

theorem roundClamped_of_le_limit (hx : x.isNaN = false)
    (h : (ofInt (-2 ^ 63)).lt x = false) : x.roundClamped (-2 ^ 63) (2 ^ 63 - 1) = -2 ^ 63 := by
  have hlimit : (ofInt (-2 ^ 63) : Binary32).isNaN = false := by decide +kernel
  have hround : (ofInt (-2 ^ 63) : Binary32).roundClamped (-2 ^ 63) (2 ^ 63 - 1) = -2 ^ 63 := by
    decide +kernel
  have hle : x.roundClamped (-2 ^ 63) (2 ^ 63 - 1) ≤
      (ofInt (-2 ^ 63) : Binary32).roundClamped (-2 ^ 63) (2 ^ 63 - 1) :=
    roundClamped_le (by decide) (by norm_num) hx hlimit ((lt_eq_false_iff hlimit hx).mp h)
  have hbounds := x.roundClamped_bounds
  omega

/-- Below `2 ^ 63` the next value is `2 ^ 39` away. -/
theorem roundClamped_of_lt_limit (hx : x.isNaN = false) (h : x.lt (.ofInt (2 ^ 63)) = true) :
    x.roundClamped (-2 ^ 63) (2 ^ 63 - 1) ≤ 2 ^ 63 - 2 ^ 39 := by
  have hlimit : (ofInt (2 ^ 63) : Binary32).isNaN = false := by decide +kernel
  have hbefore : (ofInt (2 ^ 63 - 2 ^ 39) : Binary32).isNaN = false := by decide +kernel
  have hadjacent : (ofInt (2 ^ 63) : Binary32).position =
      (ofInt (2 ^ 63 - 2 ^ 39) : Binary32).position + 1 := by decide +kernel
  have hround : (ofInt (2 ^ 63 - 2 ^ 39) : Binary32).roundClamped (-2 ^ 63) (2 ^ 63 - 1) =
      2 ^ 63 - 2 ^ 39 := by decide +kernel
  rw [← hround]
  rw [lt_iff hx hlimit] at h
  exact roundClamped_le (by decide) (by norm_num) hx hbefore (by omega)

theorem roundClamped_of_limit_lt (hx : x.isNaN = false) (h : (ofInt (-2 ^ 63)).lt x = true) :
    -2 ^ 63 + 2 ^ 39 ≤ x.roundClamped (-2 ^ 63) (2 ^ 63 - 1) := by
  have hlimit : (ofInt (-2 ^ 63) : Binary32).isNaN = false := by decide +kernel
  have hbefore : (ofInt (-2 ^ 63 + 2 ^ 39) : Binary32).isNaN = false := by decide +kernel
  have hadjacent : (ofInt (-2 ^ 63) : Binary32).position + 1 =
      (ofInt (-2 ^ 63 + 2 ^ 39) : Binary32).position := by decide +kernel
  have hround : (ofInt (-2 ^ 63 + 2 ^ 39) : Binary32).roundClamped (-2 ^ 63) (2 ^ 63 - 1) =
      -2 ^ 63 + 2 ^ 39 := by decide +kernel
  rw [← hround]
  rw [lt_iff hlimit hx] at h
  exact roundClamped_le (by decide) (by norm_num) hbefore hx (by omega)

end Binary

namespace Scheme

variable (scheme : Scheme) (value scale : Binary32) (offset : Int32)

/-- The sum of a value in scale and the offset over the integers. -/
def exactSum : Int := stepsOf value scale + offset.toInt

/-- The sum has 64 bits. -/
def SumFits : Prop := -2 ^ 63 ≤ exactSum value scale offset ∧ exactSum value scale offset < 2 ^ 63

/-- The sum is above 64 bits when the value in scale saturated there and the offset is positive. -/
theorem le_exactSum_iff : 2 ^ 63 ≤ exactSum value scale offset ↔
    (value / scale).isNaN = false ∧ (value / scale).lt (.ofInt (2 ^ 63)) = false ∧
      0 < offset.toInt := by
  have hoffset := offset.toInt_lt
  rw [exactSum, stepsOf]
  generalize value / scale = q
  cases hq : q.isNaN with
  | true =>
    rw [Binary.roundClamped, if_pos hq]
    simp only [Bool.true_eq_false, false_and, iff_false]
    omega
  | false =>
    cases hlt : q.lt (.ofInt (2 ^ 63)) with
    | false =>
      rw [Binary.roundClamped_of_limit_le hq hlt]
      simp only [true_and]
      omega
    | true =>
      have hle := Binary.roundClamped_of_lt_limit hq hlt
      simp only [Bool.true_eq_false, false_and, and_false, iff_false]
      omega

/-- It is below 64 bits when the value in scale saturated there and the offset is negative. -/
theorem exactSum_lt_iff : exactSum value scale offset < -2 ^ 63 ↔
    (value / scale).isNaN = false ∧ (Binary.ofInt (-2 ^ 63)).lt (value / scale) = false ∧
      offset.toInt < 0 := by
  have hoffset := offset.le_toInt
  rw [exactSum, stepsOf]
  generalize value / scale = q
  cases hq : q.isNaN with
  | true =>
    rw [Binary.roundClamped, if_pos hq]
    simp only [Bool.true_eq_false, false_and, iff_false]
    omega
  | false =>
    cases hlt : (Binary.ofInt (-2 ^ 63)).lt q with
    | false =>
      rw [Binary.roundClamped_of_le_limit hq hlt]
      simp only [true_and]
      omega
    | true =>
      have hle := Binary.roundClamped_of_limit_lt hq hlt
      simp only [Bool.true_eq_false, false_and, and_false, iff_false]
      omega

/-- The integer of the scheme that is nearest to the exact sum. -/
def nearest : Int := max scheme.lowest (min scheme.highest (exactSum value scale offset))

variable {scheme value scale offset}

/-- A value is stored as the integer nearest to its sum, when the sum has 64 bits. -/
theorem quantizeValue_eq_ok_iff {n : Int} :
    scheme.quantizeValue value scale offset = .ok n ↔
      SumFits value scale offset ∧ scheme.nearest value scale offset = n := by
  unfold quantizeValue
  rw [Except.bind_eq_ok_iff]
  constructor
  · rintro ⟨moved, hmoved, hn⟩
    obtain ⟨hfits, rfl⟩ := addInt64_eq_ok_iff.mp hmoved
    exact ⟨hfits, Except.pure_eq_ok_iff.mp hn⟩
  · rintro ⟨hfits, rfl⟩
    exact ⟨_, addInt64_eq_ok_iff.mpr ⟨hfits, rfl⟩, rfl⟩

theorem quantizeValue_eq_error_iff {e : Overflow} :
    scheme.quantizeValue value scale offset = .error e ↔
      ¬ SumFits value scale offset ∧ .add = e := by
  unfold quantizeValue
  rw [Except.bind_eq_error_iff]
  constructor
  · rintro (hmoved | ⟨_, -, hpure⟩)
    · exact addInt64_eq_error_iff.mp hmoved
    · cases hpure
  · exact fun h => .inl (addInt64_eq_error_iff.mpr h)

/-- A positive infinity in scale is stored at the upper end, unless the offset leads further out. -/
theorem quantizeValue_of_infinity (h : value / scale = .infinity false) :
    scheme.quantizeValue value scale offset =
      if 0 < offset.toInt then .error .add else .ok scheme.highest := by
  have hnan : (Binary.infinity false : Binary32).isNaN = false := by decide +kernel
  have hlt : (Binary.infinity false : Binary32).lt (.ofInt (2 ^ 63)) = false := by decide +kernel
  have hsum : exactSum value scale offset = 2 ^ 63 - 1 + offset.toInt := by
    rw [exactSum, stepsOf, h, Binary.roundClamped_of_limit_le hnan hlt]
  have hoffset := offset.toInt_lt
  have hoffset' := offset.le_toInt
  split
  · refine quantizeValue_eq_error_iff.mpr ⟨fun hfits => ?_, rfl⟩
    have hlt := hfits.2
    omega
  · refine quantizeValue_eq_ok_iff.mpr ⟨⟨by omega, by omega⟩, ?_⟩
    rw [nearest, hsum]
    cases scheme <;> simp only [lowest, highest] <;> omega

/-- A negative one is stored at the lower end, unless the offset leads further out. -/
theorem quantizeValue_of_neg_infinity (h : value / scale = .infinity true) :
    scheme.quantizeValue value scale offset =
      if offset.toInt < 0 then .error .add else .ok scheme.lowest := by
  have hnan : (Binary.infinity true : Binary32).isNaN = false := by decide +kernel
  have hlt : (Binary.ofInt (-2 ^ 63)).lt (Binary.infinity true : Binary32) = false := by
    decide +kernel
  have hsum : exactSum value scale offset = -2 ^ 63 + offset.toInt := by
    rw [exactSum, stepsOf, h, Binary.roundClamped_of_le_limit hnan hlt]
  have hoffset := offset.toInt_lt
  have hoffset' := offset.le_toInt
  split
  · refine quantizeValue_eq_error_iff.mpr ⟨fun hfits => ?_, rfl⟩
    have hle := hfits.1
    omega
  · refine quantizeValue_eq_ok_iff.mpr ⟨⟨by omega, by omega⟩, ?_⟩
    rw [nearest, hsum]
    cases scheme <;> simp only [lowest, highest] <;> omega

variable (scheme value scale offset)

/-- What is stored is the exact sum, moved into the integers of the scheme, if and only if the sum
    has 64 bits. Otherwise nothing is stored and the program stops. A sum has more bits exactly when
    the value in scale is at `2 ^ 63` or beyond, of either sign, and the offset leads further out.
    So an infinite value in scale is stored at its own end for the other offsets only. -/
theorem quantizeValue_eq_clamp_iff :
    (scheme.quantizeValue value scale offset =
        .ok (max scheme.lowest (min scheme.highest
          ((value / scale).roundClamped (-2 ^ 63) (2 ^ 63 - 1) + offset.toInt))) ↔
      -2 ^ 63 ≤ exactSum value scale offset ∧ exactSum value scale offset < 2 ^ 63) ∧
    (scheme.quantizeValue value scale offset = .error .add ↔
      exactSum value scale offset < -2 ^ 63 ∨ 2 ^ 63 ≤ exactSum value scale offset) ∧
    (2 ^ 63 ≤ exactSum value scale offset ↔
      (value / scale).isNaN = false ∧ (value / scale).lt (.ofInt (2 ^ 63)) = false ∧
        0 < offset.toInt) ∧
    (exactSum value scale offset < -2 ^ 63 ↔
      (value / scale).isNaN = false ∧ (Binary.ofInt (-2 ^ 63)).lt (value / scale) = false ∧
        offset.toInt < 0) ∧
    (value / scale = .infinity false → scheme.quantizeValue value scale offset =
      if 0 < offset.toInt then .error .add else .ok scheme.highest) ∧
    (value / scale = .infinity true → scheme.quantizeValue value scale offset =
      if offset.toInt < 0 then .error .add else .ok scheme.lowest) := by
  refine ⟨?stored, ?stopped, le_exactSum_iff value scale offset, exactSum_lt_iff value scale offset,
    quantizeValue_of_infinity, quantizeValue_of_neg_infinity⟩
  case stored =>
    rw [quantizeValue_eq_ok_iff]
    exact and_iff_left rfl
  case stopped =>
    rw [quantizeValue_eq_error_iff, and_iff_left rfl, SumFits]
    omega

/-- An infinite value is not stored when the zero point is above zero, though the sum over the
    integers asks for 255. At the other end this zero point leads back in. -/
theorem quantizeValue_eq_clamp_iff_infinite :
    (Binary.infinity false : Binary32) / 1 = .infinity false ∧
      qAsymmU8.quantizeValue (.infinity false) 1 1 = .error .add ∧
      max 0 (min 255 (exactSum (.infinity false) 1 1)) = 255 ∧
      qAsymmU8.quantizeValue (.infinity true) 1 1 = .ok 0 := by
  have hquotient : (Binary.infinity false : Binary32) / 1 = .infinity false := by decide +kernel
  have hquotient' : (Binary.infinity true : Binary32) / 1 = .infinity true := by decide +kernel
  have hsum : 2 ^ 63 ≤ exactSum (.infinity false) 1 1 := by decide +kernel
  obtain ⟨-, -, -, -, habove, -⟩ := qAsymmU8.quantizeValue_eq_clamp_iff (.infinity false) 1 1
  obtain ⟨-, -, -, -, -, hbelow⟩ := qAsymmU8.quantizeValue_eq_clamp_iff (.infinity true) 1 1
  exact ⟨hquotient, habove hquotient, by omega, hbelow hquotient'⟩

/-! ### Zero -/

/-- Zero is stored as the offset, whatever the scale is. -/
theorem quantizeValue_of_zero {value : Binary32} (hvalue : value.code = 0)
    (hlow : scheme.lowest ≤ offset.toInt) (hhigh : offset.toInt ≤ scheme.highest) :
    scheme.quantizeValue value scale offset = .ok offset.toInt := by
  have hsum : exactSum value scale offset = offset.toInt := by
    rw [exactSum, stepsOf, Binary.roundClamped_eq_zero (by decide) (by norm_num) (by norm_num)
      (Binary.div_of_code_eq_zero (by decide) (by decide) hvalue), Int.zero_add]
  have hoffset := offset.toInt_lt
  have hoffset' := offset.le_toInt
  rw [quantizeValue_eq_ok_iff, SumFits, nearest, hsum]
  omega

/-- Whatever is moved into the steps of an unsigned byte is rounded to one of them; a NaN to the
    first. -/
theorem roundClamped_clamp_mem (x : Binary64) :
    0 ≤ (Binary.clamp .zero (.ofInt 255) x).roundClamped (-2 ^ 31) (2 ^ 31 - 1) ∧
      (Binary.clamp .zero (.ofInt 255) x).roundClamped (-2 ^ 31) (2 ^ 31 - 1) ≤ 255 := by
  have hzero : (Binary.zero : Binary64).isNaN = false := by decide +kernel
  have hlast : (Binary.ofInt 255 : Binary64).isNaN = false := by decide +kernel
  have hround : (Binary.zero : Binary64).roundClamped (-2 ^ 31) (2 ^ 31 - 1) = 0 := by
    decide +kernel
  have hround' : (Binary.ofInt 255 : Binary64).roundClamped (-2 ^ 31) (2 ^ 31 - 1) = 255 := by
    decide +kernel
  unfold Binary.clamp
  split_ifs with hlow hhigh
  · omega
  · omega
  · cases hx : x.isNaN with
    | true => rw [Binary.roundClamped, if_pos hx]; omega
    | false =>
      rw [Bool.not_eq_true, Binary.lt_eq_false_iff hx hzero] at hlow
      rw [Bool.not_eq_true, Binary.lt_eq_false_iff hlast hx] at hhigh
      have hbelow : (Binary.zero : Binary64).roundClamped (-2 ^ 31) (2 ^ 31 - 1) ≤
          x.roundClamped (-2 ^ 31) (2 ^ 31 - 1) :=
        Binary.roundClamped_le (by decide) (by norm_num) hzero hx hlow
      have habove : x.roundClamped (-2 ^ 31) (2 ^ 31 - 1) ≤
          (Binary.ofInt 255 : Binary64).roundClamped (-2 ^ 31) (2 ^ 31 - 1) :=
        Binary.roundClamped_le (by decide) (by norm_num) hx hlast hhigh
      omega

/-- The offset for a range is one of the stored integers. -/
theorem offset_parametersOf (min max : Binary64) :
    scheme.lowest ≤ (scheme.parametersOf min max).2.toInt ∧
      (scheme.parametersOf min max).2.toInt ≤ scheme.highest ∧
      (scheme.isSymmetric = true → (scheme.parametersOf min max).2 = 0) := by
  have hzero : (0 : Int32).toInt = 0 := rfl
  obtain ⟨hlow, hhigh⟩ := roundClamped_clamp_mem (-min / ((max - min) / .ofInt 255))
  unfold parametersOf
  dsimp only
  generalize (Binary.clamp .zero (.ofInt 255) (-min / ((max - min) / .ofInt 255))).roundClamped
    (-2 ^ 31) (2 ^ 31 - 1) = steps at hlow hhigh
  cases scheme with
  | qAsymmU8 | qAsymmS8 =>
    simp only [isSymmetric, Bool.false_eq_true, if_false, lowest, highest, false_implies, and_true]
    rw [Int32.toInt_ofInt_of_le (by omega) (by omega)]
    omega
  | qSymmS8 | qSymmS16 => simp [isSymmetric, lowest, highest]

theorem isRange_iff {F : FloatFormat} {min max : Binary F} : isRange min max = true ↔
    min.isNaN = false ∧ max.isNaN = false ∧ max.lt min = false := by
  simp [isRange, and_assoc]

/-- The parameters of a range store zero, with either sign, as the offset, which is one of the
    stored integers; a symmetric scheme stores it as zero. Every pair of values that are in order
    has parameters, infinite values included. -/
theorem compute_stores_zero (min max : Binary64) :
    (∀ scale offset, scheme.compute min max = .ok (scale, offset) →
      scheme.lowest ≤ offset.toInt ∧ offset.toInt ≤ scheme.highest ∧
      (scheme.isSymmetric = true → offset = 0) ∧
      scheme.quantizeValue .zero scale offset = .ok offset.toInt ∧
      scheme.quantizeValue (-.zero) scale offset = .ok offset.toInt) ∧
    ((∃ e, scheme.compute min max = .error e) ↔
      min.isNaN = true ∨ max.isNaN = true ∨ max.lt min = true) := by
  unfold compute
  constructor
  · intro scale offset h
    split at h
    · obtain ⟨rfl, rfl⟩ := Prod.mk.inj (Except.ok.inj h)
      obtain ⟨hlow, hhigh, hsymmetric⟩ := scheme.offset_parametersOf (min.min .zero)
        (if (min.min .zero).sameNumber .zero && (max.max .zero).sameNumber .zero then 1
          else max.max .zero)
      exact ⟨hlow, hhigh, hsymmetric,
        scheme.quantizeValue_of_zero _ _ (by decide +kernel) hlow hhigh,
        scheme.quantizeValue_of_zero _ _ (by decide +kernel) hlow hhigh⟩
    · cases h
  · cases h : isRange min max with
    | true =>
      obtain ⟨hmin, hmax, horder⟩ := isRange_iff.mp h
      simp [hmin, hmax, horder]
    | false =>
      have hnot := mt isRange_iff.mpr (Bool.eq_false_iff.mp h)
      simp only [Bool.false_eq_true, if_false, Except.error.injEq, exists_eq', true_iff]
      by_contra hno
      simp only [not_or, Bool.not_eq_true] at hno
      exact hnot hno

/-- Where single precision has no scale small enough, zero divided by the scale is no number. -/
theorem compute_stores_zero_leastRange :
    qAsymmU8.compute (.ofCode true 1) .zero = .ok (.zero, 255) ∧
      qAsymmU8.quantizeValue .zero .zero 255 = .ok 255 ∧
      qAsymmU8.quantizeValue (-.zero) .zero 255 = .ok 255 := by
  have hcompute : qAsymmU8.compute (.ofCode true 1) .zero = .ok (.zero, 255) := by decide +kernel
  obtain ⟨hstores, -⟩ := qAsymmU8.compute_stores_zero (.ofCode true 1) .zero
  obtain ⟨-, -, -, hzero, hzero'⟩ := hstores .zero 255 hcompute
  exact ⟨hcompute, hzero, hzero'⟩

end Scheme

end LayerGraph
