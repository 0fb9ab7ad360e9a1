import LayerGraph.Proofs.Tensor.Permutation
import Mathlib.Tactic.Ring

/-! # The two layouts of depthwise weights hold the same cells

  Splitting the channels of `[1, H, W, I * M]` into `I` groups of `M` changes no byte, and a
  permutation takes `[H, W, I, M]` to `[M, I, H, W]`. So the weight of filter `m` for input channel
  `i` stands in channel `i * M + m` before (`cellAt_depthwiseToMihw`).

  Both ways back are exact (`depthwise_layouts`). The inverse permutation moves a constant back when
  the strides of the first shape fit, and for weights they do: what is multiplied there is one size
  and the number of channels, or no more than the number of cells.
-/

namespace LayerGraph

namespace Constant

variable {p : Permutation} {t u weights hwim : Constant}

/-- The descriptor of a constant has its flag set, whatever its shape is said to be. -/
@[simp] theorem withConstant_withShape (t : Constant) (shape : Shape) :
    (t.info.withShape shape).withConstant true = t.info.withShape shape := by
  have hconst := t.isConstant_eq
  simp [TensorInfo.withConstant, TensorInfo.withShape, hconst]

/-- The cells stay the same when the new shape has as many. -/
theorem withInfo_withShape_eq_ok_iff {shape : Shape} :
    t.withInfo (t.info.withShape shape) = .ok u ↔
      u.info = t.info.withShape shape ∧ u.data = t.data := by
  rw [withInfo, ofBytes_eq_ok_iff, withConstant_withShape]
  constructor
  · rintro ⟨-, hinfo, hdata⟩
    exact ⟨hinfo, hdata⟩
  · rintro ⟨hinfo, hdata⟩
    exact ⟨by rw [← hinfo, ← hdata]; exact u.byteCount_eq, hinfo, hdata⟩

/-! ### Moving constants back and forth -/

/-- A permutation moves the sizes and the cells of a constant. -/
theorem permuteConstant_eq_ok_iff :
    p.permuteConstant t = .ok u ↔
      ∃ dims, t.info.shape = .ofDims dims ∧
        p.permuteData dims t.data t.elementType.size = .ok u.data ∧
        u.info = t.info.withShape (.ofDims (p.arrange dims)) := by
  unfold Permutation.permuteConstant
  -- A shape with an open size cannot be permuted.
  cases hdims : t.info.shape.concrete? with
  | none =>
    have hno (dims : List UInt32) : t.info.shape ≠ .ofDims dims := by
      intro hshape
      rw [Shape.concrete?_eq_some_iff.mpr hshape] at hdims
      cases hdims
    simp [hno]
  | some dims =>
    have hshape := Shape.concrete?_eq_some_iff.mp hdims
    have hunique (dims' : List UInt32) : t.info.shape = .ofDims dims' ↔ dims' = dims := by
      rw [← Shape.concrete?_eq_some_iff, hdims, Option.some.injEq, eq_comm]
    simp only [hunique, exists_eq_left, Except.bind_eq_ok_iff,
      Permutation.permuteShape_eq_ok_iff, ofBytes_eq_ok_iff, withConstant_withShape]
    constructor
    · rintro ⟨data, hdata, permuted, ⟨hrank, hmoves⟩, -, hinfo, rfl⟩
      exact ⟨hdata, by rw [hinfo, hmoves.eq_arrange hrank]⟩
    · rintro ⟨hdata, hinfo⟩
      have hpermuted := Permutation.permuted_of_permuteData hdata
      refine ⟨u.data, hdata, p.arrange dims, ⟨hpermuted.rank, hpermuted.moves⟩, ?_, hinfo, rfl⟩
      rw [← hinfo]
      exact u.byteCount_eq

/-- The cells of a constant were counted when it was made, so they can be moved. -/
theorem exists_permuteData {dims : List UInt32} (hshape : t.info.shape = .ofDims dims)
    (hrank : dims.length = p.length) (hstrides : StridesFit (p.arrange dims)) :
    ∃ out, p.permuteData dims t.data t.elementType.size = .ok out := by
  obtain ⟨count, hcount, hbytes⟩ := Except.bind_eq_ok_iff.mp t.byteCount_eq
  rw [TensorInfo.elementCount, hshape] at hcount
  split at hbytes
  · next hfits =>
    have hlength := Except.pure_eq_ok_iff.mp hbytes
    exact ⟨_, Permutation.permuteData_eq_ok_iff.mpr
      ⟨hrank, count, hcount, hfits, hlength.symm, hstrides, rfl⟩⟩
  · cases hbytes

/-- Whatever constant a permutation gives, its inverse gives back the first one, if the strides of
    that one fit. -/
theorem permuteConstant_inverse {dims : List UInt32} (hshape : t.info.shape = .ofDims dims)
    (hstrides : StridesFit dims) (h : p.permuteConstant t = .ok u) :
    p.inverse.permuteConstant u = .ok t := by
  obtain ⟨dims', hshape', hdata, hinfo⟩ := permuteConstant_eq_ok_iff.mp h
  obtain rfl := Shape.ofDims_injective (hshape.symm.trans hshape')
  have hpermuted := Permutation.permuted_of_permuteData hdata
  have hshape' : u.info.shape = .ofDims (p.arrange dims) := by
    rw [hinfo]
    rfl
  have htype : u.elementType = t.elementType := by
    rw [elementType, hinfo]
    rfl
  have hdims := hpermuted.inverse.moves.eq_arrange hpermuted.inverse.rank
  obtain ⟨back, hback⟩ := exists_permuteData hshape' hpermuted.inverse.rank (hdims ▸ hstrides)
  rw [htype] at hback
  rw [hpermuted.eq_of_inverse hback] at hback
  refine permuteConstant_eq_ok_iff.mpr ⟨p.arrange dims, hshape', by rwa [htype], ?_⟩
  rw [← hdims, ← hshape, hinfo]
  rfl

/-! ### The permutation of depthwise weights -/

/-- The move from `[H, W, I, M]` to `[M, I, H, W]`. -/
def mihwMove : Permutation := ⟨[2, 3, 1, 0], by decide, by decide⟩

theorem ofMappings_mihwMove : Permutation.ofMappings [2, 3, 1, 0] = .ok mihwMove := rfl

theorem ofMappings_inverse_mihwMove :
    Permutation.ofMappings [3, 2, 0, 1] = .ok mihwMove.inverse := by
  have hmappings : mihwMove.inverse.mappings = [3, 2, 0, 1] := by decide
  rw [← hmappings]
  exact Permutation.ofMappings_mappings mihwMove.inverse

theorem moves_mihwMove {α : Type} (h w i m : α) :
    mihwMove.Moves [h, w, i, m] [m, i, h, w] := by
  refine ⟨rfl, ?_⟩
  intro k d hd
  show [m, i, h, w][d.toNat]? = [h, w, i, m][k]?
  have hk : k < 4 := (List.getElem?_eq_some_iff.mp hd).1
  have hcases : k = 0 ∨ k = 1 ∨ k = 2 ∨ k = 3 := by omega
  rcases hcases with rfl | rfl | rfl | rfl <;> cases hd <;> rfl

theorem arrange_mihwMove (h w i m : UInt32) :
    mihwMove.arrange [h, w, i, m] = [m, i, h, w] :=
  ((moves_mihwMove h w i m).eq_arrange rfl).symm

theorem arrange_inverse_mihwMove (h w i m : UInt32) :
    mihwMove.inverse.arrange [m, i, h, w] = [h, w, i, m] :=
  ((moves_mihwMove h w i m).inverse.eq_arrange rfl).symm

/-! ### The two layouts -/

/-- The channels are split into groups, and the groups are moved. -/
theorem depthwiseToMihw_eq_ok_iff {channels : UInt32} :
    t.depthwiseToMihw channels = .ok u ↔
      ∃ h w c hwim, t.info.shape = .ofDims [1, h, w, c] ∧ channels ≠ 0 ∧ c % channels = 0 ∧
        hwim.info = t.info.withShape (.ofDims [h, w, channels, c / channels]) ∧
        hwim.data = t.data ∧ mihwMove.permuteConstant hwim = .ok u := by
  unfold depthwiseToMihw
  constructor
  · intro hmoved
    cases hdims : t.info.shape.concrete? with
    | none => simp [hdims] at hmoved
    | some dims =>
      simp only [hdims] at hmoved
      split at hmoved
      · next h w c =>
        -- The channels have to divide the last size, and then it is split without moving data.
        obtain ⟨hdivides, hmoved⟩ := Except.check_eq_ok_iff.mp hmoved
        obtain ⟨hzero, hmod⟩ := not_or.mp hdivides
        obtain ⟨hwim, hsplit, hmoved⟩ := Except.bind_eq_ok_iff.mp hmoved
        obtain ⟨move, hmove, hmoved⟩ := Except.bind_eq_ok_iff.mp hmoved
        obtain ⟨hinfo, hdata⟩ := withInfo_withShape_eq_ok_iff.mp hsplit
        rw [ofMappings_mihwMove, Except.ok.injEq] at hmove
        subst hmove
        exact ⟨h, w, c, hwim, Shape.concrete?_eq_some_iff.mp hdims, hzero, not_not.mp hmod,
          hinfo, hdata, hmoved⟩
      · cases hmoved
  · rintro ⟨h, w, c, hwim, hshape, hzero, hmod, hinfo, hdata, hmoved⟩
    have hsplit := withInfo_withShape_eq_ok_iff.mpr ⟨hinfo, hdata⟩
    simp only [Shape.concrete?_eq_some_iff.mpr hshape]
    refine Except.check_eq_ok_iff.mpr ⟨by simp [hzero, hmod], ?_⟩
    rw [hsplit]
    exact hmoved

/-- The dimensions are moved back, and the groups become channels again. -/
theorem depthwiseOfMihw_eq_ok_iff :
    u.depthwiseOfMihw = .ok t ↔
      ∃ h w i m c hwim, mihwMove.inverse.permuteConstant u = .ok hwim ∧
        hwim.info.shape = .ofDims [h, w, i, m] ∧ multiplySizes i m = .ok c ∧
        t.info = hwim.info.withShape (.ofDims [1, h, w, c]) ∧ t.data = hwim.data := by
  unfold depthwiseOfMihw
  simp only [ofMappings_inverse_mihwMove, Except.bind_eq_ok_iff, Except.ok.injEq, exists_eq_left']
  constructor
  · rintro ⟨hwim, hback, hmoved⟩
    cases hdims : hwim.info.shape.concrete? with
    | none => simp [hdims] at hmoved
    | some dims =>
      simp only [hdims] at hmoved
      split at hmoved
      · next h w i m =>
        obtain ⟨c, hc, hmoved⟩ := Except.bind_eq_ok_iff.mp hmoved
        obtain ⟨hinfo, hdata⟩ := withInfo_withShape_eq_ok_iff.mp hmoved
        exact ⟨h, w, i, m, c, hwim, hback, Shape.concrete?_eq_some_iff.mp hdims,
          Except.mapError_eq_ok_iff.mp hc, hinfo, hdata⟩
      · cases hmoved
  · rintro ⟨h, w, i, m, c, hwim, hback, hshape, hc, hinfo, hdata⟩
    refine ⟨hwim, hback, ?_⟩
    simp only [Shape.concrete?_eq_some_iff.mpr hshape]
    exact Except.bind_eq_ok_iff.mpr ⟨c, Except.mapError_eq_ok_iff.mpr hc,
      withInfo_withShape_eq_ok_iff.mpr ⟨hinfo, hdata⟩⟩

/-- Dividing the channels gives the number of filters for each input channel. -/
theorem toNat_mul_div {c channels : UInt32} (h : c % channels = 0) :
    channels.toNat * (c / channels).toNat = c.toNat := by
  have hmod : c.toNat % channels.toNat = 0 := by
    rw [← UInt32.toNat_mod, h]
    rfl
  rw [UInt32.toNat_div, Nat.mul_div_cancel' (Nat.dvd_of_mod_eq_zero hmod)]

/-- The weights of the layer are those of the model: the filters of an input channel stand next to
    each other among the channels. -/
theorem cellAt_depthwiseToMihw {channels h w c : UInt32}
    (hshape : t.info.shape = .ofDims [1, h, w, c]) (hmoved : t.depthwiseToMihw channels = .ok u)
    {m i y x : Nat} (hm : m < (c / channels).toNat) (hi : i < channels.toNat) (hy : y < h.toNat)
    (hx : x < w.toNat) :
    cellAt u.elementType.size u.data
        (rowMajorIndex ([c / channels, channels, h, w].map UInt32.toNat) [m, i, y, x]) =
      cellAt t.elementType.size t.data
        (rowMajorIndex ([1, h, w, c].map UInt32.toNat)
          [0, y, x, i * (c / channels).toNat + m]) := by
  obtain ⟨h', w', c', hwim, hshape', -, hmod, hinfo, hdata, hpermute⟩ :=
    depthwiseToMihw_eq_ok_iff.mp hmoved
  have hdims := Shape.ofDims_injective (hshape.symm.trans hshape')
  simp only [List.cons.injEq, true_and, and_true] at hdims
  obtain ⟨rfl, rfl, rfl⟩ := hdims
  obtain ⟨dims, hsplit, hcells, hinfo'⟩ := permuteConstant_eq_ok_iff.mp hpermute
  have hdims : dims = [h, w, channels, c / channels] := by
    rw [hinfo] at hsplit
    exact (Shape.ofDims_injective hsplit).symm
  subst hdims
  have htype : hwim.elementType = t.elementType := by
    rw [elementType, hinfo]
    rfl
  have htype' : u.elementType = t.elementType := by
    rw [elementType, hinfo', ← htype]
    rfl
  have hpermuted := Permutation.permuted_of_permuteData hcells
  have hbox : InBox ([h, w, channels, c / channels].map UInt32.toNat) [y, x, i, m] :=
    .cons hy (.cons hx (.cons hi (.cons hm .nil)))
  have hcell := hpermuted.cellAt [y, x, i, m] [m, i, y, x] hbox (moves_mihwMove y x i m)
  rw [arrange_mihwMove, htype, hdata] at hcell
  rw [htype', hcell]
  -- Both are the same position, since the groups of channels fill the channels.
  congr 1
  have hc := toNat_mul_div hmod
  simp only [List.map_cons, List.map_nil, rowMajorIndex, List.prod_cons, List.prod_nil]
  rw [← hc]
  ring

/-- The strides of split channels are a size, the number of channels, and the product of that and a
    size. -/
theorem stridesFit_splitChannels {h w i m : UInt32} (hchannels : i.toNat * m.toNat < 2 ^ 32) :
    StridesFit [h, w, i, m] := by
  have hproduct : w.toNat * (i.toNat * m.toNat) ≤ (2 ^ 32 - 1) * (2 ^ 32 - 1) :=
    Nat.mul_le_mul (Nat.le_sub_one_of_lt w.toNat_lt) (Nat.le_sub_one_of_lt hchannels)
  have hm := m.toNat_lt
  intro behind hbehind
  simp only [List.tail_cons, List.suffix_cons_iff, List.suffix_nil] at hbehind
  rcases hbehind with rfl | rfl | rfl | rfl
  all_goals simp only [List.map_cons, List.map_nil, List.prod_cons, List.prod_nil, mul_one]
  all_goals omega

/-- Weights that were moved are moved back to what they were. -/
theorem depthwiseOfMihw_depthwiseToMihw {channels : UInt32}
    (hmoved : t.depthwiseToMihw channels = .ok u) : u.depthwiseOfMihw = .ok t := by
  obtain ⟨h, w, c, hwim, hshape, -, hmod, hinfo, hdata, hpermute⟩ :=
    depthwiseToMihw_eq_ok_iff.mp hmoved
  have hc := toNat_mul_div hmod
  have hproduct : multiplySizes channels (c / channels) = .ok c :=
    multiplySizes_eq_ok_iff.mpr ⟨by rw [hc]; exact c.toNat_lt, hc.symm⟩
  have hsplit : hwim.info.shape = .ofDims [h, w, channels, c / channels] := by
    rw [hinfo]
    rfl
  have hstrides : StridesFit [h, w, channels, c / channels] :=
    stridesFit_splitChannels (hc ▸ c.toNat_lt)
  refine depthwiseOfMihw_eq_ok_iff.mpr ⟨h, w, channels, c / channels, c, hwim,
    permuteConstant_inverse hsplit hstrides hpermute, hsplit, hproduct, ?_, hdata.symm⟩
  rw [← hshape, hinfo]
  rfl

/-- Weights of positive sizes that were moved back are moved to what they were. -/
theorem depthwiseToMihw_depthwiseOfMihw {m i h w : UInt32}
    (hshape : u.info.shape = .ofDims [m, i, h, w]) (hm : 0 < m) (hi : 0 < i) (hh : 0 < h)
    (hw : 0 < w) (hback : u.depthwiseOfMihw = .ok t) : t.depthwiseToMihw i = .ok u := by
  obtain ⟨h', w', i', m', c, hwim, hpermute, hsplit, hc, hinfo, hdata⟩ :=
    depthwiseOfMihw_eq_ok_iff.mp hback
  obtain ⟨-, hproduct⟩ := multiplySizes_eq_ok_iff.mp hc
  -- With positive sizes the strides of `u` are not above the number of its cells.
  have hstrides : StridesFit [m, i, h, w] := by
    obtain ⟨count, hcount, -⟩ := Except.bind_eq_ok_iff.mp u.byteCount_eq
    rw [TensorInfo.elementCount, hshape] at hcount
    apply stridesFit_of_pos
    · simp only [List.forall_mem_cons, List.not_mem_nil, false_implies, implies_true, and_true]
      exact ⟨UInt32.lt_iff_toNat_lt.mp hm, UInt32.lt_iff_toNat_lt.mp hi,
        UInt32.lt_iff_toNat_lt.mp hh, UInt32.lt_iff_toNat_lt.mp hw⟩
    · rw [← Shape.elementCount_ofDims hcount]
      exact Shape.elementCount_lt hcount
  have hforth := permuteConstant_inverse hshape hstrides hpermute
  rw [Permutation.inverse_inverse] at hforth
  -- The sizes of the weights in the middle are those of `u`, moved back.
  obtain ⟨dims, hshape', -, hinfo'⟩ := permuteConstant_eq_ok_iff.mp hpermute
  have hdims := Shape.ofDims_injective (hshape'.symm.trans hshape)
  subst hdims
  have hdims : [h', w', i', m'] = [h, w, i, m] := by
    have heq : Shape.ofDims [h', w', i', m'] = .ofDims (mihwMove.inverse.arrange [m, i, h, w]) := by
      rw [← hsplit, hinfo']
      rfl
    rw [Shape.ofDims_injective heq, arrange_inverse_mihwMove]
  simp only [List.cons.injEq, and_true] at hdims
  obtain ⟨rfl, rfl, rfl, rfl⟩ := hdims
  have hi' : 0 < i'.toNat := UInt32.lt_iff_toNat_lt.mp hi
  have hdiv : c / i' = m' := by
    rw [← UInt32.toNat_inj, UInt32.toNat_div, hproduct, Nat.mul_div_cancel_left _ hi']
  have hmod : c % i' = 0 := by
    rw [← UInt32.toNat_inj, UInt32.toNat_mod, hproduct, Nat.mul_mod_right]
    rfl
  refine depthwiseToMihw_eq_ok_iff.mpr ⟨h', w', c, hwim, by rw [hinfo]; rfl,
    fun hzero => ?_, hmod, ?_, hdata.symm, hforth⟩
  · rw [hzero] at hi'
    exact Nat.lt_irrefl 0 hi'
  · rw [hdiv, ← hsplit, hinfo]
    rfl

/-- Weights `[1, H, W, C]` are moved when the channels divide among the input channels. The moved
    weights have the shape `[C / I, I, H, W]`, the rest of the descriptor and the same cells, and
    are moved back to the first ones. Weights `[M, I, H, W]` of positive sizes that are moved to the
    other layout are moved back too. -/
theorem depthwise_layouts (t u : Constant) :
    (∀ channels h w c, t.info.shape = .ofDims [1, h, w, c] →
      t.depthwiseToMihw channels = .ok u →
      0 < channels ∧ channels.toNat ∣ c.toNat ∧
        u.info = t.info.withShape (.ofDims [c / channels, channels, h, w]) ∧
        (∀ m i y x, m < (c / channels).toNat → i < channels.toNat → y < h.toNat → x < w.toNat →
          cellAt u.elementType.size u.data
              (rowMajorIndex ([c / channels, channels, h, w].map UInt32.toNat) [m, i, y, x]) =
            cellAt t.elementType.size t.data
              (rowMajorIndex ([1, h, w, c].map UInt32.toNat)
                [0, y, x, i * (c / channels).toNat + m])) ∧
        u.depthwiseOfMihw = .ok t) ∧
    (∀ m i h w, u.info.shape = .ofDims [m, i, h, w] → 0 < m → 0 < i → 0 < h → 0 < w →
      u.depthwiseOfMihw = .ok t → t.depthwiseToMihw i = .ok u) := by
  constructor
  · intro channels h w c hshape hmoved
    obtain ⟨h', w', c', hshape', hinfo, -⟩ := depthwiseToMihw_eq_ok hmoved
    obtain ⟨_, _, c'', -, hshape'', hzero, hmod, -⟩ := depthwiseToMihw_eq_ok_iff.mp hmoved
    have hdims := Shape.ofDims_injective (hshape.symm.trans hshape')
    have hdims' := Shape.ofDims_injective (hshape.symm.trans hshape'')
    simp only [List.cons.injEq, true_and, and_true] at hdims hdims'
    obtain ⟨rfl, rfl, rfl⟩ := hdims
    obtain ⟨-, -, rfl⟩ := hdims'
    refine ⟨?_, ⟨_, (toNat_mul_div hmod).symm⟩, hinfo, ?_, depthwiseOfMihw_depthwiseToMihw hmoved⟩
    · exact UInt32.pos_iff_ne_zero.mpr hzero
    · intro m i y x hm hi hy hx
      exact cellAt_depthwiseToMihw hshape hmoved hm hi hy hx
  · intro m i h w hshape hm hi hh hw hback
    exact depthwiseToMihw_depthwiseOfMihw hshape hm hi hh hw hback

/-- Weights of one row and two columns for two input channels, with three filters for each: channel
    `c` of column `w` is `16 * w + c`. -/
def sixChannels : Constant where
  info := ⟨.ofDims [1, 1, 2, 6], .qSymmS8, .perTensor 1 0, true⟩
  data := [0, 1, 2, 3, 4, 5, 16, 17, 18, 19, 20, 21]
  byteCount_eq := by decide
  isConstant_eq := rfl

/-- The second filter of the second input channel stands in channel four. -/
theorem depthwise_layouts_sixChannels :
    ∃ u : Constant, sixChannels.depthwiseToMihw 2 = .ok u ∧
      u.data = [0, 16, 3, 19, 1, 17, 4, 20, 2, 18, 5, 21] ∧
      cellAt 1 u.data (rowMajorIndex [3, 2, 1, 2] [1, 1, 0, 1]) =
        cellAt 1 sixChannels.data (rowMajorIndex [1, 1, 2, 6] [0, 0, 1, 4]) ∧
      u.depthwiseOfMihw = .ok sixChannels := by
  have hmoved : sixChannels.depthwiseToMihw 2 =
      .ok ⟨⟨.ofDims [3, 2, 1, 2], .qSymmS8, .perTensor 1 0, true⟩,
        [0, 16, 3, 19, 1, 17, 4, 20, 2, 18, 5, 21], by decide, rfl⟩ := by
    decide +kernel
  obtain ⟨hforth, hagain⟩ := depthwise_layouts sixChannels
    ⟨⟨.ofDims [3, 2, 1, 2], .qSymmS8, .perTensor 1 0, true⟩,
      [0, 16, 3, 19, 1, 17, 4, 20, 2, 18, 5, 21], by decide, rfl⟩
  obtain ⟨-, -, -, hcell, hback⟩ := hforth 2 1 2 6 rfl hmoved
  exact ⟨_, hagain 3 2 1 2 rfl (by decide) (by decide) (by decide) (by decide) hback, rfl,
    hcell 1 1 0 1 (by decide) (by decide) (by decide) (by decide), hback⟩

end Constant

end LayerGraph
