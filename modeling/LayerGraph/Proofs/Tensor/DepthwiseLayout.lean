import LayerGraph.Proofs.Tensor.Consistency
import Mathlib.Algebra.Order.BigOperators.GroupWithZero.List
import Mathlib.Tactic.Ring

/-! # What moving depthwise weights changes

  Depthwise weights `[1, H, W, I * M]` become weights `[M, I, H, W]` of as many bytes. Everything
  else in the descriptor stays, the axis of its scales included.
-/

namespace LayerGraph

namespace Shape

theorem ofDims_injective {dims dims' : List UInt32} (h : ofDims dims = ofDims dims') :
    dims = dims' :=
  List.map_injective_iff.mpr (Option.some_injective UInt32) (mk.inj h)

/-- A shape is concrete when it is made of known sizes. -/
theorem concrete?_eq_some_iff {shape : Shape} {dims : List UInt32} :
    shape.concrete? = some dims ↔ shape = .ofDims dims := by
  obtain ⟨sizes⟩ := shape
  simp only [concrete?, ofDims, Shape.mk.injEq]
  induction sizes generalizing dims with
  | nil => cases dims <;> simp [pure]
  | cons size sizes ih =>
    -- An open size at any place makes the whole shape open.
    cases size with
    | none => cases dims <;> simp
    | some d =>
      rw [List.mapM_cons]
      cases dims with
      | nil => cases List.mapM id sizes <;> simp
      | cons d' dims =>
        simp only [id_eq, Option.bind_eq_bind, Option.bind_some, Option.bind_eq_some_iff,
          Option.pure_def, Option.some.injEq, List.cons.injEq, List.map_cons]
        constructor
        · rintro ⟨rest, hrest, rfl, rfl⟩
          exact ⟨rfl, ih.mp hrest⟩
        · rintro ⟨rfl, hrest⟩
          exact ⟨dims, ih.mpr hrest, rfl, rfl⟩

/-- The product with the size of one more dimension. -/
def countStep (all : List (Option UInt32)) (count : Nat) :
    Option UInt32 → Except TensorError Nat
  | none => .error .unspecifiedShape
  | some d =>
    if count * d.toNat < sizeLimit then .ok (count * d.toNat) else .error (.tooManyElements all)

theorem foldlM_countStep {all : List (Option UInt32)} {dims : List UInt32} {start n : Nat}
    (h : (dims.map some).foldlM (countStep all) start = .ok n) :
    n = start * (dims.map UInt32.toNat).prod := by
  induction dims generalizing start with
  | nil =>
    cases h
    simp
  | cons d dims ih =>
    rw [List.map_cons, List.foldlM_cons, Except.bind_eq_ok_iff] at h
    obtain ⟨count, hstep, hrest⟩ := h
    simp only [countStep] at hstep
    split at hstep
    · cases hstep
      rw [ih hrest, List.map_cons, List.prod_cons, Nat.mul_assoc]
    · cases hstep

theorem elementCount_eq_foldlM (dims : List UInt32) :
    (ofDims dims).elementCount = (dims.map some).foldlM (countStep (ofDims dims).dims) 1 := by
  unfold elementCount
  congr 1

/-- The number of elements is the product of the sizes. -/
theorem elementCount_ofDims {dims : List UInt32} {n : Nat}
    (h : (ofDims dims).elementCount = .ok n) : n = (dims.map UInt32.toNat).prod := by
  rw [elementCount_eq_foldlM] at h
  rw [foldlM_countStep h, Nat.one_mul]

/-- A number of elements that is found fits in memory. -/
theorem lt_of_foldlM_countStep {all : List (Option UInt32)} {dims : List UInt32} {start n : Nat}
    (hstart : start < sizeLimit) (h : (dims.map some).foldlM (countStep all) start = .ok n) :
    n < sizeLimit := by
  induction dims generalizing start with
  | nil =>
    cases h
    exact hstart
  | cons d dims ih =>
    rw [List.map_cons, List.foldlM_cons, Except.bind_eq_ok_iff] at h
    obtain ⟨count, hstep, hrest⟩ := h
    simp only [countStep] at hstep
    split at hstep
    · next hlt =>
      cases hstep
      exact ih hlt hrest
    · cases hstep

theorem elementCount_lt {dims : List UInt32} {n : Nat}
    (h : (ofDims dims).elementCount = .ok n) : n < sizeLimit := by
  rw [elementCount_eq_foldlM] at h
  exact lt_of_foldlM_countStep (by decide) h

/-- With positive sizes no partial product is above the whole one, so that alone has to fit. -/
theorem foldlM_countStep_of_pos {all : List (Option UInt32)} {dims : List UInt32} {start : Nat}
    (hpos : ∀ d ∈ dims, 0 < d.toNat) (h : start * (dims.map UInt32.toNat).prod < sizeLimit) :
    (dims.map some).foldlM (countStep all) start = .ok (start * (dims.map UInt32.toNat).prod) := by
  induction dims generalizing start with
  | nil => simp [pure, Except.pure]
  | cons d dims ih =>
    obtain ⟨-, hrest⟩ := List.forall_mem_cons.mp hpos
    rw [List.map_cons, List.prod_cons, ← Nat.mul_assoc] at h
    have hone : 0 < (dims.map UInt32.toNat).prod :=
      List.prod_pos (by simpa using hrest)
    have hstep : start * d.toNat < sizeLimit :=
      Nat.lt_of_le_of_lt (Nat.le_mul_of_pos_right _ hone) h
    rw [List.map_cons, List.foldlM_cons, countStep, if_pos hstep]
    rw [List.map_cons, List.prod_cons, ← Nat.mul_assoc]
    exact ih hrest h

theorem elementCount_of_pos {dims : List UInt32} (hpos : ∀ d ∈ dims, 0 < d.toNat)
    (h : (dims.map UInt32.toNat).prod < sizeLimit) :
    (ofDims dims).elementCount = .ok (dims.map UInt32.toNat).prod := by
  have hcount : (dims.map some).foldlM (countStep (ofDims dims).dims) 1 =
      .ok (1 * (dims.map UInt32.toNat).prod) :=
    foldlM_countStep_of_pos hpos (by rwa [Nat.one_mul])
  rw [elementCount_eq_foldlM, hcount, Nat.one_mul]

end Shape

/-- The bytes of a tensor of known shape. -/
theorem TensorInfo.byteCount_eq_ok {info : TensorInfo} {dims : List UInt32} {n : Nat}
    (hshape : info.shape = .ofDims dims) (h : info.byteCount = .ok n) :
    n = (dims.map UInt32.toNat).prod * info.elementType.size := by
  obtain ⟨count, hcount, h⟩ := Except.bind_eq_ok_iff.mp h
  rw [TensorInfo.elementCount, hshape] at hcount
  split at h
  · rw [← Except.pure_eq_ok_iff.mp h, Shape.elementCount_ofDims hcount]
  · cases h

theorem Permutation.mappings_of_ofMappings {mappings : List UInt32} {p : Permutation}
    (h : Permutation.ofMappings mappings = .ok p) : p.mappings = mappings := by
  unfold Permutation.ofMappings at h
  split at h
  · cases h
    rfl
  · cases h

namespace Constant

/-- A permutation keeps the bytes' number and moves the dimensions. -/
theorem permuteConstant_eq_ok {p : Permutation} {t moved : Constant}
    (h : p.permuteConstant t = .ok moved) :
    ∃ dims, t.info.shape = .ofDims dims ∧ dims.length = p.length ∧
      moved.info = t.info.withShape (.ofDims (p.arrange dims)) := by
  unfold Permutation.permuteConstant at h
  cases hdims : t.info.shape.concrete? with
  | none => simp [hdims] at h
  | some dims =>
    simp only [hdims] at h
    obtain ⟨data, -, h⟩ := Except.bind_eq_ok_iff.mp h
    obtain ⟨permuted, hpermuted, h⟩ := Except.bind_eq_ok_iff.mp h
    unfold Permutation.permuteShape at hpermuted
    split at hpermuted
    · next hlen =>
      cases hpermuted
      refine ⟨dims, Shape.concrete?_eq_some_iff.mp hdims, hlen, ?_⟩
      rw [(ofBytes_eq_ok_iff.mp h).2.1]
      have hconst := t.isConstant_eq
      simp [TensorInfo.withConstant, TensorInfo.withShape, hconst]
    · cases hpermuted

/-- Depthwise weights have the dimensions `[1, H, W, I * M]`, and have the dimensions
    `[M, I, H, W]` after they are moved. -/
theorem depthwiseToMihw_eq_ok {weights moved : Constant} {channels : UInt32}
    (h : weights.depthwiseToMihw channels = .ok moved) :
    ∃ h w c, weights.info.shape = .ofDims [1, h, w, c] ∧
      moved.info = weights.info.withShape (.ofDims [c / channels, channels, h, w]) ∧
      moved.data.length = weights.data.length := by
  unfold depthwiseToMihw at h
  cases hdims : weights.info.shape.concrete? with
  | none => simp [hdims] at h
  | some dims =>
    simp only [hdims] at h
    split at h
    · next rows columns c =>
      obtain ⟨hdivides, h⟩ := Except.check_eq_ok_iff.mp h
      obtain ⟨split, hsplit, h⟩ := Except.bind_eq_ok_iff.mp h
      obtain ⟨move, hmove, h⟩ := Except.bind_eq_ok_iff.mp h
      obtain ⟨-, hinfo, -⟩ := ofBytes_eq_ok_iff.mp hsplit
      obtain ⟨dims', hshape, -, hmoved⟩ := permuteConstant_eq_ok h
      have hdims' : dims' = [rows, columns, channels, c / channels] := by
        rw [hinfo] at hshape
        exact (List.map_injective_iff.mpr (Option.some_injective UInt32)
          (Shape.mk.inj hshape)).symm
      have harrange : move.arrange dims' = [c / channels, channels, rows, columns] := by
        have hsources : move.sources = [3, 2, 0, 1] := by
          unfold Permutation.sources Permutation.length
          rw [Permutation.mappings_of_ofMappings hmove]
          decide
        rw [Permutation.arrange, hsources, hdims']
        rfl
      have hweights := Shape.concrete?_eq_some_iff.mp hdims
      have hinfo' : moved.info =
          weights.info.withShape (.ofDims [c / channels, channels, rows, columns]) := by
        have hconst := weights.isConstant_eq
        rw [hmoved, harrange, hinfo]
        simp [TensorInfo.withConstant, TensorInfo.withShape, hconst]
      refine ⟨rows, columns, c, hweights, hinfo', ?_⟩
      have hshape' : moved.info.shape = .ofDims [c / channels, channels, rows, columns] := by
        rw [hinfo']
        rfl
      -- The channels divide, so both shapes have the same number of elements.
      have hc : (c / channels).toNat * channels.toNat = c.toNat := by
        obtain ⟨-, hmod⟩ := not_or.mp hdivides
        have hzero : c.toNat % channels.toNat = 0 := by
          rw [← UInt32.toNat_mod, not_not.mp hmod]
          rfl
        rw [UInt32.toNat_div, Nat.div_mul_cancel (Nat.dvd_of_mod_eq_zero hzero)]
      have hcount : ([c / channels, channels, rows, columns].map UInt32.toNat).prod =
          ([1, rows, columns, c].map UInt32.toNat).prod := by
        simp only [List.map_cons, List.map_nil, List.prod_cons, List.prod_nil, UInt32.toNat_one]
        rw [← hc]
        ring
      rw [TensorInfo.byteCount_eq_ok hshape' moved.byteCount_eq,
        TensorInfo.byteCount_eq_ok hweights weights.byteCount_eq, hinfo', hcount]
      rfl
    · cases h

end Constant

end LayerGraph
