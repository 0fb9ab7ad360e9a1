import LayerGraph.Proofs.Outcome
import LayerGraph.Proofs.Quantize.Values
import LayerGraph.Proofs.Tensor.Consistency
import LayerGraph.Proofs.Tensor.Constant

/-! # Stored constants

  Main statement: a floating point constant is stored over the range of its own values, cell by
  cell, unless it has cells and all of them are NaN, or one of its values has a sum with the offset
  that needs more than 64 bits (`Scheme.quantizeConstant_stores_cells`).

  The range is found by widening from the ends of the number line. A value that is a number brings
  both ends to its place, and from then on they are in order (`Spans.widen`), so the range has
  parameters. Without such a value the ends stay where they were, the wrong way round. A stored
  integer is one of the scheme, so its cell holds it, and a cell of the scheme is not wider than one
  of the source, so the stored constant fits in memory.
-/

namespace LayerGraph

/-! ### Cells of the source -/

namespace ElementType

/-- The value of a floating point cell, in single precision. -/
def cellValue (type : ElementType) (cell : List UInt8) : Binary32 :=
  match type with
  | float16 => (LittleEndian.decodeBinary .binary16 cell).convert .binary32
  | bFloat16 => (LittleEndian.decodeBinary .bfloat16 cell).convert .binary32
  | _ => LittleEndian.decodeBinary .binary32 cell

/-- Whether a floating point cell holds no number. -/
def cellIsNaN (type : ElementType) (cell : List UInt8) : Bool :=
  match type with
  | float16 => (LittleEndian.decodeBinary .binary16 cell).isNaN
  | bFloat16 => (LittleEndian.decodeBinary .bfloat16 cell).isNaN
  | _ => (LittleEndian.decodeBinary .binary32 cell).isNaN

theorem isNaN_cellValue (type : ElementType) (cell : List UInt8) :
    (type.cellValue cell).isNaN = type.cellIsNaN cell := by
  cases type with
  | float16 | bFloat16 => exact Binary.isNaN_convert _ (by decide) _
  | _ => rfl

theorem size_pos (type : ElementType) : 0 < type.size := by
  cases type <;> decide

end ElementType

namespace Constant

variable {t u : Constant}

theorem toBinary32_eq (hfloat : t.elementType.isFloat = true) :
    t.toBinary32 = .ok (t.cells.map t.elementType.cellValue) := by
  unfold toBinary32
  cases htype : t.elementType with
  | float16 | float32 | bFloat16 => rfl
  | _ =>
    rw [htype] at hfloat
    cases hfloat

/-- The bytes of a constant fit in memory. -/
theorem length_data_lt (t : Constant) : t.data.length < Shape.sizeLimit := by
  have h := t.byteCount_eq
  unfold TensorInfo.byteCount at h
  obtain ⟨count, -, h⟩ := Except.bind_eq_ok_iff.mp h
  split at h
  · next hfits => exact Except.pure_eq_ok_iff.mp h ▸ hfits
  · cases h

theorem cellCount_eq {count : Nat} (h : t.info.elementCount = .ok count) :
    t.cellCount = count := by
  obtain ⟨count', hcount, hlength⟩ := t.length_data
  obtain rfl : count = count' := Except.ok.inj (h.symm.trans hcount)
  rw [cellCount, hlength, Nat.mul_div_cancel _ t.elementType.size_pos]

@[simp] theorem length_cells (t : Constant) : t.cells.length = t.cellCount :=
  LayerGraph.length_cells t.elementType.size_pos t.data

/-! ### The range of the values -/

/-- The ends are moved apart to take a value in. -/
def widen (ends : Binary32 × Binary32) (value : Binary32) : Binary32 × Binary32 :=
  (ends.1.min value, ends.2.max value)

/-- The ends are numbers, and the values that are numbers lie between them. -/
structure Spans (ends : Binary32 × Binary32) (values : List Binary32) : Prop where
  lower : ends.1.isNaN = false
  upper : ends.2.isNaN = false
  between : ∀ v ∈ values, v.isNaN = false →
    ends.1.position ≤ v.position ∧ v.position ≤ ends.2.position

variable {ends : Binary32 × Binary32} {values : List Binary32} {v : Binary32}

/-- A NaN leaves the ends where they are. -/
theorem widen_of_isNaN (hlower : ends.1.isNaN = false) (hupper : ends.2.isNaN = false)
    (hv : v.isNaN = true) : widen ends v = ends := by
  simp [widen, Binary.min, Binary.max, hlower, hupper, hv]

/-- The ends that take one value more in span the values before and this one. -/
theorem Spans.widen (h : Spans ends values) (v : Binary32) :
    Spans (Constant.widen ends v) (values ++ [v]) := by
  cases hv : v.isNaN with
  | true =>
    rw [widen_of_isNaN h.lower h.upper hv]
    refine ⟨h.lower, h.upper, ?_⟩
    intro w hw hnumber
    obtain hw | hw := List.mem_append.mp hw
    · exact h.between w hw hnumber
    · rw [List.mem_singleton.mp hw, hv] at hnumber
      cases hnumber
  | false =>
    refine ⟨by simp [Constant.widen, h.lower], by simp [Constant.widen, h.upper], ?_⟩
    intro w hw hnumber
    -- By position the new ends are the minimum and the maximum of the old ones and the value.
    show (ends.1.min v).position ≤ w.position ∧ w.position ≤ (ends.2.max v).position
    rw [Binary.position_min h.lower hv, Binary.position_max h.upper hv]
    obtain hw | hw := List.mem_append.mp hw
    · obtain ⟨hlower, hupper⟩ := h.between w hw hnumber
      omega
    · rw [List.mem_singleton.mp hw]
      omega

theorem spans_foldl (hlower : ends.1.isNaN = false) (hupper : ends.2.isNaN = false)
    (values : List Binary32) : Spans (values.foldl Constant.widen ends) values := by
  induction values using List.reverseRecOn with
  | nil => exact ⟨hlower, hupper, nofun⟩
  | append_singleton values v ih =>
    rw [List.foldl_concat]
    exact ih.widen v

theorem spans_extent (values : List Binary32) : Spans (extent values) values := by
  have hlower : (Binary.greatest : Binary32).isNaN = false := by decide +kernel
  have hupper : (Binary.least : Binary32).isNaN = false := by decide +kernel
  show Spans (values.foldl Constant.widen (.greatest, .least)) values
  exact spans_foldl hlower hupper values

/-- The range of NaNs alone has its ends the wrong way round. -/
theorem extent_of_isNaN (h : ∀ v ∈ values, v.isNaN = true) :
    extent values = (.greatest, .least) := by
  show values.foldl Constant.widen (.greatest, .least) = _
  induction values with
  | nil => rfl
  | cons v values ih =>
    obtain ⟨hv, hvalues⟩ := List.forall_mem_cons.mp h
    rw [List.foldl_cons, widen_of_isNaN (by decide +kernel) (by decide +kernel) hv]
    exact ih hvalues

/-- In double precision the ends are still in order when there is a number between them. -/
theorem Spans.isRange (h : Spans ends values) (hmem : v ∈ values) (hv : v.isNaN = false) :
    Scheme.isRange (ends.1.convert .binary64) (ends.2.convert .binary64) = true := by
  obtain ⟨hlower, hupper⟩ := h.between v hmem hv
  have hlower64 := (Binary.isNaN_convert .binary64 (by decide) ends.1).trans h.lower
  have hupper64 := (Binary.isNaN_convert .binary64 (by decide) ends.2).trans h.upper
  rw [Scheme.isRange_iff, Binary.lt_eq_false_iff hupper64 hlower64]
  exact ⟨hlower64, hupper64,
    Binary.position_convert_le _ (by decide) h.lower h.upper (hlower.trans hupper)⟩

theorem minMax_eq (hfloat : t.elementType.isFloat = true) :
    t.minMax = .ok (if t.cells.isEmpty then (.zero, .zero)
      else extent (t.cells.map t.elementType.cellValue)) := by
  unfold minMax
  rw [toBinary32_eq hfloat]
  show Except.ok (if (t.cells.map _).isEmpty then _ else _) = _
  rw [List.isEmpty_map]

/-! ### Cells of integers -/

theorem exists_ofBytes {info : TensorInfo} {data : List UInt8}
    (h : info.byteCount = .ok data.length) : ∃ t, ofBytes info data = .ok t :=
  ⟨⟨info.withConstant true, data, h, rfl⟩, ofBytes_eq_ok_iff.mpr ⟨h, rfl, rfl⟩⟩

/-- As many integers as a descriptor has elements make a constant, when their cells are accepted
    and fit in memory. -/
theorem exists_ofInts {info : TensorInfo} {cell : CellType} {values : List Int}
    (haccepts : cell.accepts info.elementType = true)
    (hsize : info.elementType.size = cell.native.size)
    (hcount : info.elementCount = .ok values.length)
    (hfits : values.length * cell.native.size < Shape.sizeLimit) :
    ∃ u, ofInts info cell values = .ok u ∧
      u.cells = values.map (LittleEndian.encodeInt cell.native.size) := by
  have hwidth : ∀ c ∈ values.map (LittleEndian.encodeInt cell.native.size),
      c.length = cell.native.size := by
    intro c hc
    obtain ⟨n, -, rfl⟩ := List.mem_map.mp hc
    exact LittleEndian.length_encodeInt _ n
  have hbytes : info.byteCount =
      .ok (values.map (LittleEndian.encodeInt cell.native.size)).flatten.length := by
    rw [List.length_flatten, List.map_congr_left hwidth, List.map_const', List.sum_replicate_nat,
      List.length_map]
    unfold TensorInfo.byteCount
    rw [hcount]
    show (if values.length * info.elementType.size < _ then _ else _) = _
    rw [hsize, if_pos hfits]
    rfl
  obtain ⟨u, hu⟩ := exists_ofBytes hbytes
  have hofInts : ofInts info cell values = .ok u := by
    rw [ofInts, ofCells, if_pos haccepts, hu]
  obtain ⟨hinfo, hdata⟩ := info_of_ofInts hofInts
  refine ⟨u, hofInts, ?_⟩
  rw [cells, hdata, elementType, hinfo]
  show LayerGraph.cells info.elementType.size _ = _
  rw [hsize]
  exact cells_flatten cell.native.size_pos hwidth

end Constant

/-! ### Storing a constant -/

namespace Scheme

variable (scheme : Scheme) {t u : Constant} {min max : Binary32} {scale : Binary32} {offset : Int32}

/-- The integer that a cell of a stored constant holds. -/
def cellInt (cell : List UInt8) : Int :=
  match scheme with
  | qAsymmU8 => LittleEndian.decode cell
  | qAsymmS8 | qSymmS8 | qSymmS16 => LittleEndian.decodeInt cell

/-- A cell gives back an integer of the scheme. -/
theorem cellInt_encodeInt {n : Int} (hlow : scheme.lowest ≤ n) (hhigh : n ≤ scheme.highest) :
    scheme.cellInt (LittleEndian.encodeInt scheme.cellType.native.size n) = n := by
  cases scheme with
  | qAsymmU8 =>
    simp only [lowest, highest] at hlow hhigh
    show (LittleEndian.decode (LittleEndian.encode 1 (n % 2 ^ (8 * 1)).toNat) : Int) = n
    rw [LittleEndian.decode_encode]
    omega
  | qAsymmS8 | qSymmS8 | qSymmS16 =>
    simp only [lowest, highest] at hlow hhigh
    show LittleEndian.decodeInt (LittleEndian.encodeInt _ n) = n
    rw [LittleEndian.decodeInt_encodeInt]
    apply Int.bmod_eq_of_le <;> simp only [cellType, CellType.native, ElementType.size] <;> omega

theorem nearest_mem (value scale : Binary32) (offset : Int32) :
    scheme.lowest ≤ scheme.nearest value scale offset ∧
      scheme.nearest value scale offset ≤ scheme.highest := by
  unfold nearest
  cases scheme <;> simp only [lowest, highest] <;> omega

/-- The scheme has cells of its own element type. -/
theorem accepts_elementType : scheme.cellType.accepts scheme.elementType = true ∧
    scheme.elementType.size = scheme.cellType.native.size := by
  cases scheme <;> decide

/-- No cell of a scheme is wider than a floating point cell. -/
theorem size_le {type : ElementType} (h : type.isFloat = true) :
    scheme.cellType.native.size ≤ type.size := by
  cases scheme <;> cases type <;> simp_all [ElementType.isFloat, ElementType.size, cellType,
    CellType.native]

/-- Ends that are in order have parameters. -/
theorem exists_compute {min max : Binary64} (h : isRange min max = true) :
    ∃ scale offset, scheme.compute min max = .ok (scale, offset) := by
  unfold compute
  rw [if_pos h]
  exact ⟨_, _, rfl⟩

/-- A constant has become one of stored integers: the shape and the number of elements are the same,
    and each cell holds the integer that the value of the cell it comes from is stored as. -/
structure Stores (t : Constant) (scale : Binary32) (offset : Int32) (u : Constant) : Prop where
  shape : u.info.shape = t.info.shape
  elementType : u.info.elementType = scheme.elementType
  quantization : u.info.quantization = .perTensor scale offset
  cellCount : u.cellCount = t.cellCount
  cells : List.Forall₂ (fun cell stored =>
    scheme.quantizeValue (t.elementType.cellValue cell) scale offset = .ok (scheme.cellInt stored))
    t.cells u.cells

/-- The sums of all cells with the offset have 64 bits. -/
def AllFit (t : Constant) (scale : Binary32) (offset : Int32) : Prop :=
  ∀ cell ∈ t.cells, SumFits (t.elementType.cellValue cell) scale offset

/-- The steps of storing a floating point constant whose range is known. -/
theorem quantizeConstant_of_minMax (hfloat : t.elementType.isFloat = true)
    (hrange : t.minMax = .ok (min, max)) :
    scheme.quantizeConstant t =
      scheme.compute (min.convert .binary64) (max.convert .binary64) >>= fun (scale, offset) =>
        ((t.cells.map t.elementType.cellValue).mapM
          (scheme.quantizeValue · scale offset)).mapError .overflow >>= fun stored =>
            (Constant.ofInts (.quantized t.info.shape scheme.elementType scale offset)
              scheme.cellType stored).mapError .tensor := by
  unfold quantizeConstant
  rw [if_pos hfloat, Constant.toBinary32_eq hfloat, hrange]
  rfl

section stored

variable (hfloat : t.elementType.isFloat = true) (hrange : t.minMax = .ok (min, max))
  (hcompute : scheme.compute (min.convert .binary64) (max.convert .binary64) = .ok (scale, offset))
include hfloat hrange hcompute

/-- With parameters for its range a floating point constant is stored, if all sums fit. -/
theorem exists_stores (hfits : AllFit t scale offset) :
    ∃ u, scheme.quantizeConstant t = .ok u ∧ scheme.Stores t scale offset u := by
  let info := TensorInfo.quantized t.info.shape scheme.elementType scale offset
  let stored := t.cells.map fun cell => scheme.nearest (t.elementType.cellValue cell) scale offset
  have hvalues : (t.cells.map t.elementType.cellValue).mapM (scheme.quantizeValue · scale offset) =
      .ok stored := by
    rw [Except.mapM_eq_ok_iff, List.forall₂_map_left_iff, List.forall₂_map_right_iff,
      List.forall₂_same]
    exact fun cell hcell => quantizeValue_eq_ok_iff.mpr ⟨hfits cell hcell, rfl⟩
  obtain ⟨count, hcount, hlength⟩ := t.length_data
  have hstored : stored.length = count := by
    rw [List.length_map, t.length_cells, Constant.cellCount_eq hcount]
  -- The source fits in memory, and a stored cell is not wider than the cell it comes from.
  have hmemory : stored.length * scheme.cellType.native.size < Shape.sizeLimit := by
    rw [hstored]
    exact (Nat.mul_le_mul_left count (scheme.size_le hfloat)).trans_lt (hlength ▸ t.length_data_lt)
  obtain ⟨haccepts, hsize⟩ := scheme.accepts_elementType
  have hcount' : info.elementCount = .ok stored.length := hstored ▸ hcount
  obtain ⟨u, hu, hcells⟩ := Constant.exists_ofInts haccepts hsize hcount' hmemory
  obtain ⟨hinfo, -⟩ := Constant.info_of_ofInts hu
  have hshape : u.info.shape = t.info.shape := by rw [hinfo]; rfl
  refine ⟨u, ?_, hshape, by rw [hinfo]; rfl, by rw [hinfo]; rfl, ?_, ?_⟩
  · rw [scheme.quantizeConstant_of_minMax hfloat hrange, hcompute]
    show ((t.cells.map _).mapM (scheme.quantizeValue · scale offset)).mapError
      QuantizationError.overflow >>= _ = _
    rw [hvalues]
    show (Constant.ofInts info scheme.cellType stored).mapError QuantizationError.tensor = _
    rw [hu]
    rfl
  · rw [Constant.cellCount_eq hcount]
    exact Constant.cellCount_eq (by rw [TensorInfo.elementCount, hshape]; exact hcount)
  · -- Every stored integer is one of the scheme, so its cell cuts nothing off.
    rw [hcells, List.map_map, List.forall₂_map_right_iff, List.forall₂_same]
    intro cell hcell
    obtain ⟨hlow, hhigh⟩ := scheme.nearest_mem (t.elementType.cellValue cell) scale offset
    rw [Function.comp_apply, scheme.cellInt_encodeInt hlow hhigh]
    exact quantizeValue_eq_ok_iff.mpr ⟨hfits cell hcell, rfl⟩

/-- If some sum does not fit, the program stops. -/
theorem quantizeConstant_of_not_allFit (hlong : ¬ AllFit t scale offset) :
    scheme.quantizeConstant t = .error (.overflow .add) := by
  have hvalues : (t.cells.map t.elementType.cellValue).mapM (scheme.quantizeValue · scale offset) =
      .error .add := by
    cases hmap : (t.cells.map t.elementType.cellValue).mapM
        (scheme.quantizeValue · scale offset) with
    | ok stored =>
      refine absurd (fun cell hcell => ?_) hlong
      obtain ⟨n, -, hn⟩ := exists_mem_of_forall₂ (Except.mapM_eq_ok_iff.mp hmap).flip
        (List.mem_map_of_mem hcell)
      exact (quantizeValue_eq_ok_iff.mp hn).1
    | error e =>
      obtain ⟨_, v, _, -, -, hv⟩ := Except.mapM_eq_error_iff.mp hmap
      rw [(quantizeValue_eq_error_iff.mp hv).2]
  rw [scheme.quantizeConstant_of_minMax hfloat hrange, hcompute]
  show ((t.cells.map _).mapM (scheme.quantizeValue · scale offset)).mapError
    QuantizationError.overflow >>= _ = _
  rw [hvalues]
  rfl

end stored

/-- The ends that no value moved are refused. -/
theorem compute_greatest_least : scheme.compute ((Binary.greatest : Binary32).convert .binary64)
    ((Binary.least : Binary32).convert .binary64) = .error (.invalidRange .greatest .least) := by
  have horder : isRange ((Binary.greatest : Binary32).convert .binary64)
      ((Binary.least : Binary32).convert .binary64) = false := by
    decide +kernel
  have hgreatest : ((Binary.greatest : Binary32).convert .binary64).convert .binary32 =
      (.greatest : Binary32) := by
    decide +kernel
  have hleast : ((Binary.least : Binary32).convert .binary64).convert .binary32 =
      (.least : Binary32) := by
    decide +kernel
  rw [compute, if_neg (by rw [horder]; decide), hgreatest, hleast]

/-- A constant of NaNs alone has no range to be stored over. -/
theorem quantizeConstant_of_isNaN (hfloat : t.elementType.isFloat = true) (hne : t.cells ≠ [])
    (hnan : ∀ cell ∈ t.cells, t.elementType.cellIsNaN cell = true) :
    scheme.quantizeConstant t = .error (.invalidRange .greatest .least) := by
  have hvalues : ∀ v ∈ t.cells.map t.elementType.cellValue, v.isNaN = true := by
    intro v hv
    obtain ⟨cell, hcell, rfl⟩ := List.mem_map.mp hv
    rw [ElementType.isNaN_cellValue]
    exact hnan cell hcell
  have hrange : t.minMax = .ok (.greatest, .least) := by
    rw [Constant.minMax_eq hfloat, Constant.extent_of_isNaN hvalues, if_neg (by simpa using hne)]
  rw [scheme.quantizeConstant_of_minMax hfloat hrange, compute_greatest_least]
  rfl

/-- A constant that is empty or has a cell with a number has a range. -/
theorem exists_range (hfloat : t.elementType.isFloat = true)
    (h : t.cells = [] ∨ ∃ cell ∈ t.cells, t.elementType.cellIsNaN cell = false) :
    ∃ min max, t.minMax = .ok (min, max) ∧
      isRange (min.convert .binary64) (max.convert .binary64) = true := by
  rw [Constant.minMax_eq hfloat]
  obtain hempty | ⟨cell, hcell, hnumber⟩ := h
  · rw [hempty]
    exact ⟨_, _, rfl, by decide +kernel⟩
  · rw [if_neg (by simpa using List.ne_nil_of_mem hcell)]
    exact ⟨_, _, rfl, (Constant.spans_extent _).isRange (List.mem_map_of_mem hcell)
      ((ElementType.isNaN_cellValue _ _).trans hnumber)⟩

/-- A constant that is not floating point stays as it is. A floating point constant is refused if
    and only if it has cells and all of them are NaN, for the range that they do not have. Otherwise
    there are parameters for the range of its values. With them it is stored, cell by cell, if all
    sums with the offset have 64 bits, and if one has not, the program stops. -/
theorem quantizeConstant_stores_cells (t : Constant) :
    (t.elementType.isFloat = false → scheme.quantizeConstant t = .ok t) ∧
    (t.elementType.isFloat = true →
      (scheme.quantizeConstant t = .error (.invalidRange .greatest .least) ↔
        t.cells ≠ [] ∧ ∀ cell ∈ t.cells, t.elementType.cellIsNaN cell = true) ∧
      (¬ (t.cells ≠ [] ∧ ∀ cell ∈ t.cells, t.elementType.cellIsNaN cell = true) →
        ∃ min max scale offset, t.minMax = .ok (min, max) ∧
          scheme.compute (min.convert .binary64) (max.convert .binary64) = .ok (scale, offset) ∧
          (AllFit t scale offset →
            ∃ u, scheme.quantizeConstant t = .ok u ∧ scheme.Stores t scale offset u) ∧
          (¬ AllFit t scale offset → scheme.quantizeConstant t = .error (.overflow .add)))) := by
  constructor
  · intro hother
    unfold quantizeConstant
    rw [hother]
    rfl
  · intro hfloat
    by_cases hnan : t.cells ≠ [] ∧ ∀ cell ∈ t.cells, t.elementType.cellIsNaN cell = true
    · have hrefused := scheme.quantizeConstant_of_isNaN hfloat hnan.1 hnan.2
      exact ⟨⟨fun _ => hnan, fun _ => hrefused⟩, fun h => absurd hnan h⟩
    · have hnumber : t.cells = [] ∨ ∃ cell ∈ t.cells, t.elementType.cellIsNaN cell = false := by
        simpa [imp_iff_not_or] using hnan
      obtain ⟨min, max, hrange, horder⟩ := exists_range hfloat hnumber
      obtain ⟨scale, offset, hcompute⟩ := scheme.exists_compute horder
      have hstored := scheme.exists_stores hfloat hrange hcompute
      have hstopped := scheme.quantizeConstant_of_not_allFit hfloat hrange hcompute
      refine ⟨⟨fun hrefused => ?_, fun h => absurd h hnan⟩, fun _ =>
        ⟨min, max, scale, offset, hrange, hcompute, hstored, hstopped⟩⟩
      -- Stored or stopped, it is not refused for its range.
      by_cases hfits : AllFit t scale offset
      · obtain ⟨u, hu, -⟩ := hstored hfits
        rw [hu] at hrefused
        cases hrefused
      · rw [hstopped hfits] at hrefused
        cases hrefused

/-- A NaN, one and minus one in half precision. -/
def halves : Constant :=
  ⟨(TensorInfo.new (.ofDims [3]) .float16).withConstant true, [0, 126, 0, 60, 0, 188], rfl, rfl⟩

/-- Two NaNs, one of which is signaling. -/
def noNumbers : Constant :=
  ⟨(TensorInfo.new (.ofDims [2, 1]) .bFloat16).withConstant true, [192, 127, 129, 255], rfl, rfl⟩

/-- The least positive number in single precision, and its negation. -/
def leastNumbers : Constant :=
  ⟨(TensorInfo.new (.ofDims [2]) .float32).withConstant true, [1, 0, 0, 0, 1, 0, 0, 128], rfl, rfl⟩

/-- The NaN is stored as zero, which is half way between the ends; a constant of NaNs is refused.
    The least numbers have a range whose scale is narrowed to zero, so in scale they are infinite,
    and the sum of the first one and the offset stops the program. -/
theorem quantizeConstant_stores_cells_halves :
    (∃ u scale, qAsymmU8.quantizeConstant halves = .ok u ∧ u.data = [128, 255, 1] ∧
      qAsymmU8.Stores halves scale 128 u) ∧
    qSymmS16.quantizeConstant noNumbers = .error (.invalidRange .greatest .least) ∧
    qAsymmU8.quantizeConstant leastNumbers = .error (.overflow .add) := by
  refine ⟨?halves, ?none, ?least⟩
  case halves =>
    have hdata : (qAsymmU8.quantizeConstant halves).toOption.any (fun u =>
        u.data == [128, 255, 1] && u.info.offset == 128) = true := by
      decide +kernel
    obtain ⟨u, hu, hdata⟩ := (Option.any_eq_true _ _).mp hdata
    rw [Except.toOption_eq_some_iff] at hu
    rw [Bool.and_eq_true, beq_iff_eq, beq_iff_eq] at hdata
    obtain ⟨-, hnumbers⟩ := (qAsymmU8.quantizeConstant_stores_cells halves).2 rfl
    obtain ⟨min, max, scale, offset, -, -, hstored, hstopped⟩ := hnumbers (by decide +kernel)
    have hfits : AllFit halves scale offset := by
      by_contra hlong
      rw [hstopped hlong] at hu
      cases hu
    obtain ⟨u', hu', hstores⟩ := hstored hfits
    obtain rfl := Except.ok.inj (hu.symm.trans hu')
    have hoffset : u.info.offset = offset := by
      rw [TensorInfo.offset, hstores.quantization]
      rfl
    obtain rfl : offset = 128 := hoffset.symm.trans hdata.2
    exact ⟨u, scale, hu, hdata.1, hstores⟩
  case none =>
    obtain ⟨hrefused, -⟩ := (qSymmS16.quantizeConstant_stores_cells noNumbers).2 rfl
    exact hrefused.mpr (by decide +kernel)
  case least =>
    have hfails : (qAsymmU8.quantizeConstant leastNumbers).toBool = false := by decide +kernel
    obtain ⟨-, hnumbers⟩ := (qAsymmU8.quantizeConstant_stores_cells leastNumbers).2 rfl
    obtain ⟨min, max, scale, offset, -, -, hstored, hstopped⟩ := hnumbers (by decide +kernel)
    refine hstopped fun hfits => ?_
    obtain ⟨u, hu, -⟩ := hstored hfits
    rw [hu] at hfails
    cases hfails

end Scheme

end LayerGraph
