import LayerGraph.Proofs.Lowering.Plans
import LayerGraph.Proofs.Lowering.Rows

/-! # Parts along an axis

  The tensors that are joined follow each other along an axis, and so do the parts that a tensor is
  taken apart into. When the sizes fit in 32 bits together, so does the place where each part starts,
  and the parts tile what they fill: their boxes do not overlap, and together they are the whole box
  (`tiles_originsOf`). The sizes of other dimensions play no part in this.
-/

namespace LayerGraph

variable {sizes dims : List UInt32} {k k' rank axis x : Nat} {size offset : UInt32}

namespace Operation

/-! ### Axes -/

variable {op : Operation} {t : Nat} {value : Int}

/-- The dimension that an axis names when it is counted from the first one. -/
def axisFrom (value : Int) (rank : Nat) : Nat := ((value + rank) % rank).toNat

theorem axis_eq_ok_iff :
    op.axis t value rank = .ok axis ↔
      (-rank ≤ value ∧ value < rank) ∧ axis = axisFrom value rank := by
  unfold Operation.axis
  split
  · next h =>
    rw [Except.ok.injEq, and_iff_right h]
    exact eq_comm
  · next h =>
    constructor
    · intro hrefused
      cases hrefused
    · intro haxis
      exact absurd haxis.1 h

/-- A valid axis names one of the dimensions. -/
theorem axisFrom_lt (h : -rank ≤ value ∧ value < rank) : axisFrom value rank < rank := by
  have hpos : 0 < (rank : Int) := by omega
  have hnonneg := Int.emod_nonneg (value + rank) hpos.ne'
  have hlt := Int.emod_lt_of_pos (value + rank) hpos
  unfold axisFrom
  omega

end Operation

/-! ### Coordinates -/

/-- The coordinate is in the part at a position. -/
def InPart (sizes : List UInt32) (k x : Nat) : Prop :=
  ∃ size, sizes[k]? = some size ∧ startOf sizes k ≤ x ∧ x < startOf sizes k + size.toNat

/-- No coordinate is in two parts. -/
theorem InPart.unique (h : InPart sizes k x) (h' : InPart sizes k' x) : k = k' := by
  obtain ⟨size, hsize, hle, hlt⟩ := h
  obtain ⟨size', hsize', hle', hlt'⟩ := h'
  rcases Nat.lt_trichotomy k k' with hbefore | heq | hbehind
  · have hend := startOf_add_le hsize hbefore
    omega
  · exact heq
  · have hend := startOf_add_le hsize' hbehind
    omega

/-- Every coordinate below the sum of the sizes is in a part. -/
theorem exists_inPart (h : x < (sizes.map UInt32.toNat).sum) : ∃ k, InPart sizes k x := by
  induction sizes generalizing x with
  | nil => exact absurd h (Nat.not_lt_zero x)
  | cons size sizes ih =>
    rw [List.map_cons, List.sum_cons] at h
    by_cases hfirst : x < size.toNat
    · exact ⟨0, size, rfl, Nat.zero_le x, by simpa using hfirst⟩
    · obtain ⟨k, found, hfound, hle, hlt⟩ := ih (x := x - size.toNat) (by omega)
      refine ⟨k + 1, found, hfound, ?_, ?_⟩
      · rw [startOf_cons_succ]
        omega
      · rw [startOf_cons_succ]
        omega

theorem InPart.lt_sum (h : InPart sizes k x) : x < (sizes.map UInt32.toNat).sum := by
  obtain ⟨size, hsize, -, hlt⟩ := h
  apply Nat.lt_of_lt_of_le hlt
  rw [← startOf_succ hsize]
  exact startOf_le sizes (k + 1)

/-! ### Boxes -/

/-- The point is in the box of the sizes at the origin. -/
def InBoxFrom (origin sizes : List UInt32) (point : List Nat) : Prop :=
  point.length = sizes.length ∧ ∀ i < sizes.length,
    (origin.getD i 0).toNat ≤ point.getD i 0 ∧
      point.getD i 0 < (origin.getD i 0).toNat + (sizes.getD i 0).toNat

/-- The point is in the box at a position. -/
def InBoxAt (origins sizes : List (List UInt32)) (k : Nat) (point : List Nat) : Prop :=
  ∃ origin size, origins[k]? = some origin ∧ sizes[k]? = some size ∧ InBoxFrom origin size point

/-- Boxes that do not overlap and that are together the whole box, which is at zero. -/
structure Tiles (dims : List UInt32) (origins sizes : List (List UInt32)) : Prop where
  /-- No box goes beyond the whole one. -/
  inside : ∀ k point, InBoxAt origins sizes k point →
    InBoxFrom (List.replicate dims.length 0) dims point
  /-- Every point of the whole box is in one of them, and in no other. -/
  once : ∀ point, InBoxFrom (List.replicate dims.length 0) dims point →
    ∃ k, InBoxAt origins sizes k point ∧ ∀ k', InBoxAt origins sizes k' point → k' = k

variable {point : List Nat}

theorem getD_set_of_lt {values : List UInt32} {i : Nat} (hi : i < values.length) (v : UInt32) :
    (values.set axis v).getD i 0 = if axis = i then v else values.getD i 0 := by
  rw [List.getD_eq_getElem?_getD, List.getElem?_set, List.getD_eq_getElem?_getD]
  by_cases haxis : axis = i
  · rw [if_pos haxis, if_pos (haxis ▸ hi), if_pos haxis, Option.getD_some]
  · rw [if_neg haxis, if_neg haxis]

/-- The coordinates in the other dimensions are below their sizes. -/
def Beside (dims : List UInt32) (axis : Nat) (point : List Nat) : Prop :=
  point.length = dims.length ∧ ∀ i < dims.length, i ≠ axis → point.getD i 0 < (dims.getD i 0).toNat

/-- A box that fills the other dimensions is an interval along the axis. -/
theorem inBoxFrom_set_iff (haxis : axis < dims.length) :
    InBoxFrom ((List.replicate dims.length 0).set axis offset) (dims.set axis size) point ↔
      Beside dims axis point ∧ offset.toNat ≤ point.getD axis 0 ∧
        point.getD axis 0 < offset.toNat + size.toNat := by
  have horigin {i : Nat} (hi : i < dims.length) :
      ((List.replicate dims.length (0 : UInt32)).set axis offset).getD i 0 =
        if axis = i then offset else 0 := by
    rw [getD_set_of_lt (by simpa using hi)]
    simp [hi]
  constructor
  · intro h
    obtain ⟨hlength, hbounds⟩ := h
    rw [List.length_set] at hlength hbounds
    refine ⟨⟨hlength, ?_⟩, ?_⟩
    · intro i hi hne
      have hbound := (hbounds i hi).2
      rwa [horigin hi, getD_set_of_lt hi, if_neg hne.symm, if_neg hne.symm, UInt32.toNat_zero,
        Nat.zero_add] at hbound
    · have hbound := hbounds axis haxis
      rwa [horigin haxis, getD_set_of_lt haxis, if_pos rfl, if_pos rfl] at hbound
  · intro h
    obtain ⟨⟨hlength, hbeside⟩, hbound⟩ := h
    refine ⟨by rw [List.length_set, hlength], ?_⟩
    intro i hi
    rw [List.length_set] at hi
    rw [horigin hi, getD_set_of_lt hi]
    -- Along the axis the coordinate lies in the interval, in the other dimensions anywhere.
    by_cases hne : axis = i
    · subst hne
      rw [if_pos rfl, if_pos rfl]
      exact hbound
    · rw [if_neg hne, if_neg hne, UInt32.toNat_zero, Nat.zero_add]
      exact ⟨Nat.zero_le _, hbeside i hi (Ne.symm hne)⟩

/-- The whole box is the interval up to the size of the axis. -/
theorem inBoxFrom_whole_iff (haxis : axis < dims.length) :
    InBoxFrom (List.replicate dims.length 0) dims point ↔
      Beside dims axis point ∧ point.getD axis 0 < (dims.getD axis 0).toNat := by
  have hzeros : (List.replicate dims.length (0 : UInt32)).set axis 0 =
      List.replicate dims.length 0 := by
    apply List.ext_getElem?
    intro i
    rw [List.getElem?_set]
    by_cases hi : axis = i
    · subst hi
      simp [haxis]
    · simp [hi]
  have hdims : dims.set axis (dims.getD axis 0) = dims := by
    rw [List.getD_eq_getElem?_getD, List.getElem?_eq_getElem haxis, Option.getD_some,
      List.set_getElem_self]
  have h : InBoxFrom ((List.replicate dims.length 0).set axis 0) (dims.set axis (dims.getD axis 0))
      point ↔ _ := inBoxFrom_set_iff haxis
  rw [hzeros, hdims, UInt32.toNat_zero, Nat.zero_add] at h
  rw [h, and_iff_right (Nat.zero_le _)]

namespace Operation

/-- The parts are intervals along the axis, when 32 bits are enough to say where they start. -/
theorem inBoxAt_originsOf_iff (haxis : axis < dims.length)
    (hfits : (sizes.map UInt32.toNat).sum < 2 ^ 32) :
    InBoxAt (originsOf dims.length axis sizes) (sizes.map (dims.set axis)) k point ↔
      Beside dims axis point ∧ InPart sizes k (point.getD axis 0) := by
  have hstart : (UInt32.ofNat (startOf sizes k)).toNat = startOf sizes k := by
    apply UInt32.toNat_ofNat_of_lt'
    exact Nat.lt_of_le_of_lt (startOf_le sizes k) hfits
  constructor
  · intro h
    obtain ⟨origin, view, horigin, hview, hbox⟩ := h
    rw [List.getElem?_map, Option.map_eq_some_iff] at hview
    obtain ⟨size, hsize, rfl⟩ := hview
    rw [getElem?_originsOf (List.getElem?_eq_some_iff.mp hsize).1, Option.some.injEq] at horigin
    rw [← horigin, inBoxFrom_set_iff haxis, hstart] at hbox
    exact ⟨hbox.1, size, hsize, hbox.2⟩
  · intro h
    obtain ⟨hbeside, size, hsize, hpart⟩ := h
    have hk := (List.getElem?_eq_some_iff.mp hsize).1
    refine ⟨_, dims.set axis size, getElem?_originsOf hk, ?_, ?_⟩
    · rw [List.getElem?_map, hsize, Option.map_some]
    · rw [inBoxFrom_set_iff haxis, hstart]
      exact ⟨hbeside, hpart⟩

/-- Parts whose sizes add up to that of the axis tile the whole. -/
theorem tiles_originsOf (haxis : axis < dims.length)
    (hsum : (sizes.map UInt32.toNat).sum = (dims.getD axis 0).toNat) :
    Tiles dims (originsOf dims.length axis sizes) (sizes.map (dims.set axis)) := by
  have hfits : (sizes.map UInt32.toNat).sum < 2 ^ 32 := hsum ▸ UInt32.toNat_lt _
  constructor
  · intro k point h
    rw [inBoxAt_originsOf_iff haxis hfits] at h
    rw [inBoxFrom_whole_iff haxis, ← hsum]
    exact ⟨h.1, h.2.lt_sum⟩
  · intro point h
    rw [inBoxFrom_whole_iff haxis, ← hsum] at h
    obtain ⟨hbeside, hlt⟩ := h
    obtain ⟨k, hk⟩ := exists_inPart hlt
    refine ⟨k, (inBoxAt_originsOf_iff haxis hfits).mpr ⟨hbeside, hk⟩, ?_⟩
    intro k' hk'
    rw [inBoxAt_originsOf_iff haxis hfits] at hk'
    exact hk'.2.unique hk

end Operation

end LayerGraph
