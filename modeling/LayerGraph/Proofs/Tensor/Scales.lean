import LayerGraph.Proofs.Tensor.DepthwiseInverse

/-! # The scales of moved constants

  A descriptor with an axis gives each cell the scale of its coordinate along the axis. Moving a
  constant moves its cells and its shape, but the quantization is kept as it is, so the number of
  the axis names another dimension: the one that is moved to where the axis was. What the scales
  belong to afterwards follows from that alone (`Permutation.scales_of_permuteConstant`).

  With one scale nothing changes, and neither does it when the axis stays in its place. Otherwise
  the axis does not follow its dimension, and the scales even fit in number only if the dimension
  that takes its place has the same size.
-/

namespace LayerGraph

/-- A descriptor with an axis has one scale for each index along it. -/
def TensorInfo.WellFormed (info : TensorInfo) : Prop :=
  ∀ axis, info.quantization.axis? = some axis →
    axis.toNat < info.shape.rank ∧
      (info.shape.dim? axis.toNat).map UInt32.toNat = some info.quantization.scales.length

/-- The scale of the cell at some coordinates. -/
def Quantization.scaleAt? : Quantization → List Nat → Option Binary32
  | perTensor scale _, _ => some scale
  | perAxis scales _ axis, coordinates => coordinates[axis.toNat]?.bind (scales[·]?)

/-- With an axis it is the scale of the coordinate along the axis. -/
theorem Quantization.scaleAt?_eq {q : Quantization} {axis : UInt32} (h : q.axis? = some axis)
    (coordinates : List Nat) :
    q.scaleAt? coordinates = coordinates[axis.toNat]?.bind (q.scales[·]?) := by
  cases q with
  | perTensor scale offset => cases h
  | perAxis scales offset axis' =>
    obtain rfl := Option.some.inj h
    rfl

/-- Every cell of a well-formed descriptor has a scale. -/
theorem TensorInfo.WellFormed.exists_scaleAt? {info : TensorInfo} {dims : List UInt32}
    {coordinates : List Nat} (h : info.WellFormed) (hshape : info.shape = .ofDims dims)
    (hbox : InBox (dims.map UInt32.toNat) coordinates) :
    ∃ scale, info.quantization.scaleAt? coordinates = some scale := by
  cases hq : info.quantization with
  | perTensor scale offset => exact ⟨scale, rfl⟩
  | perAxis scales offset axis =>
    obtain ⟨hlt, hcount⟩ := h axis (by rw [hq]; rfl)
    rw [hq, hshape, Shape.dim?, Shape.ofDims, List.getElem?_map] at hcount
    rw [hshape, Shape.rank, Shape.ofDims, List.length_map] at hlt
    rw [List.getElem?_eq_getElem hlt, Option.map_some, Option.join_some, Option.map_some,
      Option.some.injEq] at hcount
    have hlength := hbox.length_eq
    rw [List.length_map] at hlength
    have hcoordinate : axis.toNat < coordinates.length := hlength ▸ hlt
    -- The scales are as many as the size along the axis, which bounds the coordinate.
    have hbelow : coordinates[axis.toNat] < scales.length := by
      have hall := (List.forall₂_iff_get.mp hbox).2 axis.toNat hcoordinate
        (by rwa [List.length_map])
      rw [List.get_eq_getElem, List.get_eq_getElem, List.getElem_map, hcount] at hall
      exact hall
    refine ⟨scales[coordinates[axis.toNat]], ?_⟩
    rw [Quantization.scaleAt?, List.getElem?_eq_getElem hcoordinate, Option.bind_some,
      List.getElem?_eq_getElem hbelow]

namespace Permutation

variable {p : Permutation} {t u : Constant} {mappings : List UInt32}

/-- Two dimensions do not have one destination. -/
theorem mapping_injective {i j : Nat} {m : UInt32} (hi : p.mappings[i]? = some m)
    (hj : p.mappings[j]? = some m) : i = j := by
  have hsource := getElem?_sources hi
  rw [getElem?_sources hj] at hsource
  exact (Option.some.inj hsource).symm

/-- The scale at moved coordinates is that of the coordinate that is moved to the axis. -/
theorem Moves.scaleAt? {coordinates moved : List Nat} (h : p.Moves coordinates moved)
    {q : Quantization} {source : Nat} {axis : UInt32} (haxis : q.axis? = some axis)
    (hsource : p.mappings[source]? = some axis) :
    q.scaleAt? moved = coordinates[source]?.bind (q.scales[·]?) := by
  rw [Quantization.scaleAt?_eq haxis, h.2 source axis hsource]

/-- After a move the scales fit the dimension that is moved to the axis, or none. -/
theorem wellFormed_iff_of_moves {dims permuted : List UInt32} (hmoves : p.Moves dims permuted)
    (hrank : dims.length = p.length) {info : TensorInfo} {source : Nat} {axis : UInt32}
    (haxis : info.quantization.axis? = some axis) (hsource : p.mappings[source]? = some axis) :
    (info.withShape (.ofDims permuted)).WellFormed ↔
      dims[source]?.map UInt32.toNat = some info.quantization.scales.length := by
  have hdim : (Shape.ofDims permuted).dim? axis.toNat = dims[source]? := by
    rw [Shape.dim?, Shape.ofDims, List.getElem?_map, hmoves.2 source axis hsource]
    cases dims[source]? <;> rfl
  have hlt : axis.toNat < (Shape.ofDims permuted).rank := by
    rw [Shape.rank, Shape.ofDims, List.length_map, hmoves.1, hrank]
    exact toNat_lt_length hsource
  constructor
  · intro hformed
    rw [← hdim]
    exact (hformed axis haxis).2
  · intro hcount axis' haxis'
    obtain rfl : axis = axis' := Option.some.inj (haxis.symm.trans haxis')
    refine ⟨hlt, ?_⟩
    show ((Shape.ofDims permuted).dim? axis.toNat).map UInt32.toNat = _
    rw [hdim]
    exact hcount

/-- A moved constant keeps its quantization. With one scale it is well-formed as before. With an
    axis the scales fit if the dimension that is moved to the axis has as many indices as there are
    scales, and every cell gets the scale of its coordinate in that dimension. Being well-formed
    with the axis where it is moved to means that the axis stays in its place; then every cell
    keeps its scale. -/
theorem scales_of_permuteConstant (hp : ofMappings mappings = .ok p)
    (h : p.permuteConstant t = .ok u) (hformed : t.info.WellFormed) :
    ∃ dims permuted, t.info.shape = .ofDims dims ∧ u.info.shape = .ofDims permuted ∧
      u.info.quantization = t.info.quantization ∧
      (t.info.quantization.axis? = none → u.info.WellFormed) ∧
      ∀ axis, t.info.quantization.axis? = some axis → ∃ source : Nat,
        mappings[source]? = some axis ∧
        (u.info.WellFormed ↔
          dims[source]?.map UInt32.toNat = some t.info.quantization.scales.length) ∧
        (u.info.WellFormed ∧ u.info.quantization.axis? = mappings[axis.toNat]? ↔
          mappings[axis.toNat]? = some axis) ∧
        ∀ coordinates, InBox (dims.map UInt32.toNat) coordinates → ∃ moved scale,
          InBox (permuted.map UInt32.toNat) moved ∧
          (∀ (i : Nat) (m : UInt32), mappings[i]? = some m → moved[m.toNat]? = coordinates[i]?) ∧
          cellAt u.elementType.size u.data (rowMajorIndex (permuted.map UInt32.toNat) moved) =
            cellAt t.elementType.size t.data
              (rowMajorIndex (dims.map UInt32.toNat) coordinates) ∧
          u.info.quantization.scaleAt? moved =
            coordinates[source]?.bind (t.info.quantization.scales[·]?) ∧
          t.info.quantization.scaleAt? coordinates = some scale ∧
          (mappings[axis.toNat]? = some axis →
            u.info.quantization.scaleAt? moved = some scale) := by
  obtain rfl := mappings_of_ofMappings hp
  obtain ⟨dims, hshape, hdata, hinfo⟩ := Constant.permuteConstant_eq_ok_iff.mp h
  have hpermuted := permuted_of_permuteData hdata
  have hkept : u.info.quantization = t.info.quantization := by
    rw [hinfo]
    rfl
  have htype : u.elementType = t.elementType := by
    rw [Constant.elementType, hinfo]
    rfl
  refine ⟨dims, p.arrange dims, hshape, by rw [hinfo]; rfl, hkept, ?_, ?_⟩
  · intro hnone axis haxis
    rw [hkept, hnone] at haxis
    cases haxis
  · intro axis haxis
    obtain ⟨hlt, hcount⟩ := hformed axis haxis
    rw [hshape, Shape.rank, Shape.ofDims, List.length_map, hpermuted.rank] at hlt
    obtain ⟨source, hsource⟩ := exists_mapping hlt
    rw [UInt32.ofNat_toNat] at hsource
    -- A dimension that is moved to itself is the only one that is moved there.
    have hstays (hself : p.mappings[axis.toNat]? = some axis) : source = axis.toNat :=
      mapping_injective hsource hself
    have hfits : u.info.WellFormed ↔
        dims[source]?.map UInt32.toNat = some t.info.quantization.scales.length := by
      rw [hinfo]
      exact wellFormed_iff_of_moves hpermuted.moves hpermuted.rank haxis hsource
    refine ⟨source, hsource, hfits, ?_, ?_⟩
    · rw [hkept, haxis]
      constructor
      · intro hmoved
        exact hmoved.2.symm
      · intro hself
        refine ⟨hfits.mpr ?_, hself.symm⟩
        rw [hstays hself, ← hcount, hshape, Shape.dim?, Shape.ofDims, List.getElem?_map]
        cases dims[axis.toNat]? <;> rfl
    · intro coordinates hbox
      have hlen : coordinates.length = p.length := by
        rw [hbox.length_eq, List.length_map, hpermuted.rank]
      have hmoves := moves_arrange hlen
      obtain ⟨scale, hscale⟩ := hformed.exists_scaleAt? hshape hbox
      have hinside := (hpermuted.moves.map UInt32.toNat).inBox hmoves
        (by rw [List.length_map, hpermuted.rank]) hbox
      refine ⟨p.arrange coordinates, scale, hinside, hmoves.2, ?_, ?_, hscale, ?_⟩
      · rw [htype]
        exact hpermuted.cellAt coordinates _ hbox hmoves
      · rw [hkept]
        exact hmoves.scaleAt? haxis hsource
      · intro hself
        rw [hkept, hmoves.scaleAt? haxis hsource, hstays hself, ← hscale,
          Quantization.scaleAt?_eq haxis]

/-- A matrix of two rows, the second in halves. -/
def scaledRows : Constant where
  info := ⟨.ofDims [2, 3], .qSymmS8, .perAxis [⟨0x3f800000⟩, ⟨0x3f000000⟩] 0 0, true⟩
  data := [1, 2, 3, 4, 5, 6]
  byteCount_eq := by decide +kernel
  isConstant_eq := rfl

/-- The columns of the matrix as rows. There are three of them, and still two scales. -/
def transposedRows : Constant where
  info := ⟨.ofDims [3, 2], .qSymmS8, .perAxis [⟨0x3f800000⟩, ⟨0x3f000000⟩] 0 0, true⟩
  data := [1, 4, 2, 5, 3, 6]
  byteCount_eq := by decide +kernel
  isConstant_eq := rfl

theorem scales_of_permuteConstant_scaledRows :
    ∃ swap, ofMappings [1, 0] = .ok swap ∧ swap.permuteConstant scaledRows = .ok transposedRows ∧
      scaledRows.info.WellFormed ∧ ¬ transposedRows.info.WellFormed := by
  have hswap : ofMappings [1, 0] = .ok ⟨[1, 0], by decide, by decide⟩ := rfl
  have hmoved : permuteConstant ⟨[1, 0], by decide, by decide⟩ scaledRows =
      .ok transposedRows := by
    decide +kernel
  have hformed : scaledRows.info.WellFormed := by
    intro axis haxis
    obtain rfl := Option.some.inj haxis
    decide
  obtain ⟨dims, permuted, hdims, -, -, -, hscales⟩ :=
    scales_of_permuteConstant hswap hmoved hformed
  obtain ⟨source, hsource, hfits, -, -⟩ := hscales 0 rfl
  have hrows : dims = [2, 3] := (Shape.ofDims_injective hdims).symm
  -- The scales fit two rows, and it is the three columns that are moved to their axis.
  have hcolumns : source = 1 := by
    match source with
    | 0 => cases hsource
    | 1 => rfl
    | _ + 2 => cases hsource
  refine ⟨_, hswap, hmoved, hformed, ?_⟩
  rw [hfits, hrows, hcolumns]
  decide

end Permutation

end LayerGraph
