import LayerGraph.Proofs.Lowering.Origins
import LayerGraph.Proofs.Lowering.Resolved
import Mathlib.Algebra.BigOperators.Group.List.Basic
import Mathlib.Algebra.Order.BigOperators.Group.List

/-! # Splits tile their input

  A tensor is taken apart along an axis, in equal parts or in parts of given sizes. The sizes of
  what is planned add up to the size of the axis, so the parts tile the tensor: every element of it
  is in one part, and in no other (`splits_tile`).

  Of the given sizes one may be left open. Sums are taken in signed numbers of 64 bits, and a sum
  that needs more stops the program. So what is planned has exactly the size of the axis as its sum.
  Sizes that can be closed to that sum are never refused for it and stop nothing, since none of them
  is negative and the sum of all has 32 bits.
-/

namespace LayerGraph

/-- The plan is one layer, which takes a tensor of the given sizes apart along an axis. There is a
    part for each tensor that is written, of the given size along the axis. -/
structure Plan.TakesApart (plan : Plan) (tensor : Nat) (dims : List UInt32) (axis : Nat)
    (sizes : List UInt32) (params : SplitterParams) : Prop where
  alone : plan.reshapes = [] ∧ plan.tail = []
  reads : plan.inputs = [.tensor tensor]
  kind : plan.primary.kind = .splitter params
  axis_lt : axis < dims.length
  length : sizes.length = plan.outputs.length
  length_origins : params.origins.length = plan.outputs.length
  length_sizes : params.sizes.length = plan.outputs.length
  /-- A part has the sizes of the tensor but along the axis. -/
  size : ∀ (k : Nat) (size : UInt32), sizes[k]? = some size →
    params.sizes[k]? = some (dims.set axis size)
  /-- Its origin is zero but along the axis, where it follows the parts before. -/
  origin : ∀ k < sizes.length, ∃ start : UInt32, start.toNat = startOf sizes k ∧
    params.origins[k]? = some ((List.replicate dims.length 0).set axis start)
  sum : (sizes.map UInt32.toNat).sum = (dims.getD axis 0).toNat
  tiles : Tiles dims params.origins params.sizes

/-- A shape whose sizes are known has them. -/
theorem Shape.exists_concrete? {shape : Shape} (h : shape.isSpecified = true) :
    ∃ dims, shape.concrete? = some dims := by
  obtain ⟨sizes⟩ := shape
  unfold isSpecified at h
  unfold concrete?
  induction sizes with
  | nil => exact ⟨[], rfl⟩
  | cons size sizes ih =>
    rw [List.all_cons, Bool.and_eq_true] at h
    obtain ⟨d, hd⟩ := Option.isSome_iff_exists.mp h.1
    obtain ⟨dims, hdims⟩ := ih h.2
    refine ⟨d :: dims, ?_⟩
    show (size :: sizes).mapM id = some (d :: dims)
    rw [List.mapM_cons, hdims, hd]
    rfl

namespace Operation

open Planning

variable {op : Operation} {kind : LayerKind} {name label : String} {connected : List Nat}
variable {plan : Plan} {t rank axis : Nat} {value : Int} {dims sizes : List UInt32}
variable {requested values : List Int} {total : UInt32}

/-! ### Sums of sizes -/

theorem sizesOf_eq_ok_iff :
    op.sizesOf t values = .ok sizes ↔
      List.Forall₂ (fun v (size : UInt32) => (size.toNat : Int) = v) values sizes :=
  narrow_eq_ok_iff

theorem sum_of_narrowed
    (h : List.Forall₂ (fun v (size : UInt32) => (size.toNat : Int) = v) values sizes) :
    values.sum = ((sizes.map UInt32.toNat).sum : Nat) := by
  induction h with
  | nil => rfl
  | cons hfirst _ ih =>
    rw [List.sum_cons, ih, List.map_cons, List.sum_cons, ← hfirst]
    push_cast
    rfl

/-- With a size in the place of the open ones, the sum is that of the others and of these. -/
theorem sum_map_closed (size : Nat) (hnonneg : ∀ s ∈ requested, s ≠ -1 → 0 ≤ s) :
    (requested.map fun s => if s = -1 then (size : Int) else s).sum =
      (requested.filter (0 ≤ ·)).sum + requested.count (-1) * size := by
  induction requested with
  | nil => simp
  | cons s requested ih =>
    obtain ⟨hfirst, hrest⟩ := List.forall_mem_cons.mp hnonneg
    rw [List.map_cons, List.sum_cons, ih hrest]
    by_cases hopen : s = -1
    · subst hopen
      rw [if_pos rfl, List.filter_cons_of_neg (by decide), List.count_cons_self]
      push_cast
      ring
    · have hs : 0 ≤ s := hfirst hopen
      rw [if_neg hopen, List.filter_cons_of_pos (by simpa using hs), List.sum_cons,
        List.count_cons_of_ne hopen, Int.add_assoc]

/-- The open size is what the others leave of the total, when their sum fits. -/
theorem closeSizes_eq_ok_iff :
    closeSizes total requested = .ok values ↔
      (-1 ∈ requested → SumsFit (requested.filter (0 ≤ ·))) ∧
      values = requested.map fun s =>
        if s = -1 then total.toNat - (requested.filter (0 ≤ ·)).sum else s := by
  unfold closeSizes
  split
  · next hopen =>
    rw [List.contains_iff_mem] at hopen
    rw [Except.bind_eq_ok_iff, forall_prop_of_true hopen]
    constructor
    · rintro ⟨_, hsum, h⟩
      obtain ⟨hfits, rfl⟩ := sumInt64_eq_ok_iff.mp hsum
      cases h
      exact ⟨hfits, rfl⟩
    · rintro ⟨hfits, rfl⟩
      exact ⟨_, sumInt64_eq_ok_iff.mpr ⟨hfits, rfl⟩, rfl⟩
  · next hclosed =>
    rw [List.contains_iff_mem] at hclosed
    -- With no open size nothing is changed.
    have hsame : (requested.map fun s =>
        if s = -1 then total.toNat - (requested.filter (0 ≤ ·)).sum else s) = requested := by
      conv_rhs => rw [← List.map_id requested]
      apply List.map_congr_left
      intro s hs
      have hgiven : s ≠ -1 := fun hopen => hclosed (hopen ▸ hs)
      rw [if_neg hgiven]
      rfl
    rw [hsame, and_iff_right fun hopen => absurd hopen hclosed]
    constructor
    · rintro ⟨⟩
      rfl
    · rintro rfl
      rfl

/-- Sizes that can be closed to the total are closed to it. -/
theorem closeSizes_eq {size : Nat} (hone : requested.count (-1) ≤ 1)
    (hnonneg : ∀ s ∈ requested, s ≠ -1 → 0 ≤ s)
    (hsum : (requested.map fun s => if s = -1 then (size : Int) else s).sum = total.toNat) :
    closeSizes total requested =
      .ok (requested.map fun s => if s = -1 then (size : Int) else s) := by
  have hsplit := sum_map_closed size hnonneg
  have htotal := total.toNat_lt
  have hknown : ∀ s ∈ requested.filter (0 ≤ ·), 0 ≤ s := by
    intro s hs
    simpa using (List.mem_filter.mp hs).2
  rw [hsum] at hsplit
  -- There is one open size at most, and it is what the others leave.
  have hcount (hopen : -1 ∈ requested) : requested.count (-1) = 1 := by
    have hpos := List.count_pos_iff.mpr hopen
    omega
  rw [closeSizes_eq_ok_iff]
  constructor
  · intro hopen
    rw [hcount hopen] at hsplit
    rw [sumsFit_iff_of_nonneg hknown]
    omega
  · apply List.map_congr_left
    intro s hs
    by_cases hopen : s = -1
    · rw [hcount (hopen ▸ hs)] at hsplit
      rw [if_pos hopen, if_pos hopen]
      omega
    · rw [if_neg hopen, if_neg hopen]

/-! ### Layers that can be planned -/

theorem exists_layer (hconnected : ∀ t ∈ connected, ∃ info, op.info t = .ok info)
    (houtputs : ∀ t ∈ op.outputs, ∃ info, op.info t = .ok info) :
    ∃ plan, op.layer kind name connected = .ok plan := by
  obtain ⟨read, hread⟩ := Except.exists_mapM_eq_ok hconnected
  obtain ⟨written, hwritten⟩ := Except.exists_mapM_eq_ok houtputs
  refine ⟨⟨[], ⟨kind, name, read, written⟩, connected.map .tensor, [], op.outputs⟩, ?_⟩
  apply Except.bind_eq_ok_iff.mpr
  exact ⟨read, hread, Except.bind_eq_ok_iff.mpr ⟨written, hwritten, rfl⟩⟩

/-- A tensor with a descriptor has known sizes when its operator was found. -/
theorem exists_dims {model : Model} {index : Nat} {info : TensorInfo}
    (hop : ofModel model index = .ok op) (ht : t ∈ op.inputs ++ op.outputs)
    (hinfo : op.info t = .ok info) : ∃ dims, op.dims t = .ok dims := by
  have hresolved : info.shape.isSpecified = true := resolved_of_ofModel hop ht hinfo
  obtain ⟨dims, hdims⟩ := Shape.exists_concrete? hresolved
  refine ⟨dims, Except.bind_eq_ok_iff.mpr ⟨info, hinfo, ?_⟩⟩
  rw [hdims]
  rfl

/-! ### What is accepted -/

theorem planSplit_eq_ok (h : op.planSplit = .ok plan) :
    ∃ dims value axis, op.inputs.length = 2 ∧
      op.outputs.length = op.options.splitCount.toNat ∧
      op.dims (op.input 1) = .ok dims ∧ op.scalar (op.input 0) = .ok value ∧
      op.axis (op.input 0) value dims.length = .ok axis ∧
      (dims.getD axis 0).toNat % op.options.splitCount.toNat = 0 ∧
      op.planParts (op.input 1) dims axis (List.replicate op.options.splitCount.toNat
        (dims.getD axis 0 / op.options.splitCount)) "Split" = .ok plan := by
  unfold planSplit at h
  obtain ⟨_, hcheck, h⟩ := Except.bind_eq_ok_iff.mp h
  obtain ⟨hin, hout⟩ := checkArity_eq_ok_iff.mp hcheck
  obtain ⟨-, h⟩ := Except.check_eq_ok_iff.mp h
  obtain ⟨dims, hdims, h⟩ := Except.bind_eq_ok_iff.mp h
  obtain ⟨value, hvalue, h⟩ := Except.bind_eq_ok_iff.mp h
  obtain ⟨axis, haxis, h⟩ := Except.bind_eq_ok_iff.mp h
  obtain ⟨heven, h⟩ := Except.check_eq_ok_iff.mp h
  exact ⟨dims, value, axis, allows_exactly_iff.mp hin, allows_exactly_iff.mp hout, hdims, hvalue,
    haxis, not_not.mp heven, h⟩

theorem planSplitV_eq_ok_iff :
    op.planSplitV = .ok plan ↔ ∃ dims value axis requested closed sizes, op.inputs.length = 3 ∧
      op.outputs.length = op.options.splitCount.toNat ∧
      op.dims (op.input 0) = .ok dims ∧ op.scalar (op.input 2) = .ok value ∧
      op.axis (op.input 2) value dims.length = .ok axis ∧
      op.ints (op.input 1) = .ok requested ∧
      requested.length = op.options.splitCount.toNat ∧
      ¬ (1 < requested.count (-1) ∨ requested.any (· < -1) = true) ∧
      closeSizes (dims.getD axis 0) requested = .ok closed ∧
      sumInt64 closed = .ok ((dims.getD axis 0).toNat : Int) ∧
      op.sizesOf (op.input 1) closed = .ok sizes ∧
      op.planParts (op.input 0) dims axis sizes "SplitV" = .ok plan := by
  unfold planSplitV
  constructor
  · intro h
    obtain ⟨_, hcheck, h⟩ := Except.bind_eq_ok_iff.mp h
    obtain ⟨hin, hout⟩ := checkArity_eq_ok_iff.mp hcheck
    obtain ⟨dims, hdims, h⟩ := Except.bind_eq_ok_iff.mp h
    obtain ⟨value, hvalue, h⟩ := Except.bind_eq_ok_iff.mp h
    obtain ⟨axis, haxis, h⟩ := Except.bind_eq_ok_iff.mp h
    obtain ⟨requested, hrequested, h⟩ := Except.bind_eq_ok_iff.mp h
    -- Three checks of the sizes, in this order: how many there are, whether they can be closed, and
    -- what they add up to.
    obtain ⟨hcount, h⟩ := Except.check_eq_ok_iff.mp h
    obtain ⟨hopen, h⟩ := Except.check_eq_ok_iff.mp h
    obtain ⟨closed, hclosed, h⟩ := Except.bind_eq_ok_iff.mp h
    obtain ⟨sum, hsum, h⟩ := Except.bind_eq_ok_iff.mp h
    obtain ⟨htotal, h⟩ := Except.check_eq_ok_iff.mp h
    obtain ⟨sizes, hsizes, h⟩ := Except.bind_eq_ok_iff.mp h
    rw [Except.mapError_eq_ok_iff] at hclosed hsum
    exact ⟨dims, value, axis, requested, closed, sizes, allows_exactly_iff.mp hin,
      allows_exactly_iff.mp hout, hdims, hvalue, haxis, hrequested, not_not.mp hcount, hopen,
      hclosed, not_not.mp htotal ▸ hsum, hsizes, h⟩
  · intro h
    obtain ⟨dims, value, axis, requested, closed, sizes, hin, hout, hdims, hvalue, haxis,
      hrequested, hcount, hopen, hclosed, hsum, hsizes, h⟩ := h
    apply Except.bind_eq_ok_iff.mpr
    refine ⟨(), checkArity_eq_ok_iff.mpr ⟨allows_exactly_iff.mpr hin,
      allows_exactly_iff.mpr hout⟩, ?_⟩
    apply Except.bind_eq_ok_iff.mpr
    refine ⟨dims, hdims, ?_⟩
    apply Except.bind_eq_ok_iff.mpr
    refine ⟨value, hvalue, ?_⟩
    apply Except.bind_eq_ok_iff.mpr
    refine ⟨axis, haxis, ?_⟩
    apply Except.bind_eq_ok_iff.mpr
    refine ⟨requested, hrequested, ?_⟩
    apply Except.check_eq_ok_iff.mpr
    refine ⟨not_not.mpr hcount, ?_⟩
    apply Except.check_eq_ok_iff.mpr
    refine ⟨hopen, ?_⟩
    apply Except.bind_eq_ok_iff.mpr
    refine ⟨closed, Except.mapError_eq_ok_iff.mpr hclosed, ?_⟩
    apply Except.bind_eq_ok_iff.mpr
    refine ⟨_, Except.mapError_eq_ok_iff.mpr hsum, ?_⟩
    apply Except.check_eq_ok_iff.mpr
    refine ⟨not_not.mpr rfl, ?_⟩
    exact Except.bind_eq_ok_iff.mpr ⟨sizes, hsizes, h⟩

/-! ### Plans that take a tensor apart -/

/-- A plan in parts takes its tensor apart when their sizes add up to that of the axis. -/
theorem planParts_takesApart (h : op.planParts t dims axis sizes label = .ok plan)
    (haxis : axis < dims.length) (hlength : sizes.length = op.outputs.length)
    (hsum : (sizes.map UInt32.toNat).sum = (dims.getD axis 0).toNat) :
    ∃ params, plan.TakesApart t dims axis sizes params := by
  obtain ⟨inputs, outputs, -, -, rfl⟩ := layer_eq_ok (planParts_eq_ok_iff.mp h).2
  refine ⟨⟨originsOf dims.length axis sizes, sizes.map (dims.set axis)⟩, ?_⟩
  constructor
  case alone => exact ⟨rfl, rfl⟩
  case reads => rfl
  case kind => rfl
  case axis_lt => exact haxis
  case length => exact hlength
  case length_origins => exact (length_originsOf _ _ _).trans hlength
  case length_sizes => exact (List.length_map _).trans hlength
  case size =>
    intro k size hsize
    rw [List.getElem?_map, hsize, Option.map_some]
  case origin =>
    intro k hk
    refine ⟨UInt32.ofNat (startOf sizes k), ?_, getElem?_originsOf hk⟩
    apply UInt32.toNat_ofNat_of_lt'
    -- What is before the part is not more than the whole axis.
    have hle := startOf_le sizes k
    rw [hsum] at hle
    exact Nat.lt_of_le_of_lt hle (UInt32.toNat_lt _)
  case sum => exact hsum
  case tiles => exact tiles_originsOf haxis hsum

theorem takesApart_of_planSplit (h : op.planSplit = .ok plan) :
    ∃ dims value part params, op.dims (op.input 1) = .ok dims ∧
      op.scalar (op.input 0) = .ok value ∧
      plan.TakesApart (op.input 1) dims (axisFrom value dims.length)
        (List.replicate plan.outputs.length part) params := by
  obtain ⟨dims, value, axis, -, hout, hdims, hvalue, haxis, heven, hparts⟩ := planSplit_eq_ok h
  obtain ⟨hvalid, rfl⟩ := axis_eq_ok_iff.mp haxis
  have hsum : ((List.replicate op.options.splitCount.toNat
      (dims.getD (axisFrom value dims.length) 0 / op.options.splitCount)).map UInt32.toNat).sum =
        (dims.getD (axisFrom value dims.length) 0).toNat := by
    rw [List.map_replicate, List.sum_replicate_nat, UInt32.toNat_div]
    exact Nat.mul_div_cancel' (Nat.dvd_of_mod_eq_zero heven)
  obtain ⟨params, hapart⟩ :=
    planParts_takesApart hparts (axisFrom_lt hvalid) (by rw [List.length_replicate, hout]) hsum
  have hcount : op.options.splitCount.toNat = plan.outputs.length := by
    rw [← hapart.length, List.length_replicate]
  rw [hcount] at hapart
  exact ⟨dims, value, _, params, hdims, hvalue, hapart⟩

theorem takesApart_of_planSplitV (h : op.planSplitV = .ok plan) :
    ∃ dims value requested sizes params, op.dims (op.input 0) = .ok dims ∧
      op.scalar (op.input 2) = .ok value ∧ op.ints (op.input 1) = .ok requested ∧
      plan.TakesApart (op.input 0) dims (axisFrom value dims.length) sizes params ∧
      Agrees requested sizes := by
  obtain ⟨dims, value, axis, requested, closed, sizes, -, hout, hdims, hvalue, haxis, hrequested,
    hcount, -, hclosed, hsum, hsizes, hparts⟩ := planSplitV_eq_ok_iff.mp h
  obtain ⟨hvalid, rfl⟩ := axis_eq_ok_iff.mp haxis
  rw [sizesOf_eq_ok_iff] at hsizes
  have hlength : sizes.length = op.outputs.length := by
    rw [← hsizes.length_eq, length_closeSizes hclosed, hcount, hout]
  have hexact : (sizes.map UInt32.toNat).sum =
      (dims.getD (axisFrom value dims.length) 0).toNat := by
    have htotal := (sumInt64_eq_ok_iff.mp hsum).2
    rw [sum_of_narrowed hsizes] at htotal
    exact Int.ofNat_inj.mp htotal
  obtain ⟨params, hapart⟩ := planParts_takesApart hparts (axisFrom_lt hvalid) hlength hexact
  refine ⟨dims, value, requested, sizes, params, hdims, hvalue, hrequested, hapart, ?_⟩
  obtain ⟨-, rfl⟩ := closeSizes_eq_ok_iff.mp hclosed
  rw [List.forall₂_map_left_iff] at hsizes
  exact Closes.agrees hsizes

/-- Sizes that can be closed to the size of the axis are accepted. -/
theorem exists_planSplitV (hin : op.inputs.length = 3)
    (hout : op.outputs.length = op.options.splitCount.toNat)
    (hinfo : ∀ t ∈ op.inputs ++ op.outputs, ∃ info, op.info t = .ok info)
    (hdims : op.dims (op.input 0) = .ok dims) (hvalue : op.scalar (op.input 2) = .ok value)
    (hrequested : op.ints (op.input 1) = .ok requested)
    (hvalid : -dims.length ≤ value ∧ value < dims.length)
    (hcount : requested.length = op.outputs.length) (hone : requested.count (-1) ≤ 1)
    (hnonneg : ∀ s ∈ requested, s ≠ -1 → 0 ≤ s) {size : Nat}
    (hsum : (requested.map fun s => if s = -1 then (size : Int) else s).sum =
      (dims.getD (axisFrom value dims.length) 0).toNat) :
    ∃ plan, op.planSplitV = .ok plan := by
  have hclosed := closeSizes_eq hone hnonneg hsum
  have htotal := (dims.getD (axisFrom value dims.length) 0).toNat_lt
  -- All sizes are natural numbers, so none is above the total, which their sum is.
  have hclosed_nonneg : ∀ s ∈ requested.map fun s => if s = -1 then (size : Int) else s, 0 ≤ s := by
    intro s hs
    obtain ⟨given, hgiven, rfl⟩ := List.mem_map.mp hs
    by_cases hopen : given = -1
    · rw [if_pos hopen]
      exact Int.natCast_nonneg size
    · rw [if_neg hopen]
      exact hnonneg given hgiven hopen
  have hfits : SumsFit (requested.map fun s => if s = -1 then (size : Int) else s) := by
    rw [sumsFit_iff_of_nonneg hclosed_nonneg, hsum]
    omega
  have hexact := sumInt64_eq_ok_iff.mpr ⟨hfits, hsum⟩
  have hnarrow : ∃ sizes, op.sizesOf (op.input 1)
      (requested.map fun s => if s = -1 then (size : Int) else s) = .ok sizes := by
    apply Except.exists_mapM_eq_ok
    intro s hs
    have hle := List.single_le_sum hclosed_nonneg s hs
    rw [hsum] at hle
    rw [if_pos ⟨hclosed_nonneg s hs, by omega⟩]
    exact ⟨_, rfl⟩
  obtain ⟨sizes, hsizes⟩ := hnarrow
  have hrow : (sizes.map UInt32.toNat).sum < 2 ^ 32 := by
    rw [sum_of_narrowed (sizesOf_eq_ok_iff.mp hsizes)] at hsum
    omega
  have hopen : ¬ (1 < requested.count (-1) ∨ requested.any (· < -1) = true) := by
    rintro (hmany | hbelow)
    · omega
    · obtain ⟨s, hs, hlt⟩ := List.any_eq_true.mp hbelow
      have hlt : s < -1 := by simpa using hlt
      have hle := hnonneg s hs (by omega)
      omega
  have hinputs (role : Nat) (hrole : role < 3) : ∃ info, op.info (op.input role) = .ok info :=
    hinfo _ (List.mem_append_left _ (input_mem (hin ▸ hrole)))
  obtain ⟨plan, hparts⟩ : ∃ plan, op.planParts (op.input 0) dims (axisFrom value dims.length) sizes
      "SplitV" = .ok plan := by
    simp only [planParts_eq_ok_iff, hrow, true_and]
    exact exists_layer (List.forall_mem_singleton.mpr (hinputs 0 (by decide)))
      fun t ht => hinfo t (List.mem_append_right _ ht)
  refine ⟨plan, planSplitV_eq_ok_iff.mpr ?_⟩
  exact ⟨dims, value, _, requested, _, sizes, hin, hout, hdims, hvalue,
    axis_eq_ok_iff.mpr ⟨hvalid, rfl⟩, hrequested, hcount.trans hout, hopen, hclosed, hexact, hsizes,
    hparts⟩

/-- An operator that was found has an output for each that it names. -/
theorem length_outputs_of_ofModel {model : Model} {index : Nat} {operator : ModelOperator}
    (hoperator : model.operators[index]? = some operator) (hop : ofModel model index = .ok op) :
    op.outputs.length = operator.outputs.length := by
  obtain ⟨found, inputs, outputs, hfound, -, houtputs, -, rfl⟩ := ofModel_eq_ok_iff.mp hop
  obtain rfl : operator = found := Option.some.inj (hoperator.symm.trans hfound)
  exact length_of_mapM houtputs

end Operation

namespace Plan

open Operation

/-- What is planned for an operator that takes a tensor apart tiles the tensor, with one part for
    each output. The parts of equal size are all alike, and those of given sizes have the sizes that
    are asked for. An operator with parts of given sizes is planned whenever its tensors are in
    order and the sizes can be closed to that of the axis. -/
theorem splits_tile {model : Model} {index : Nat} {operator : ModelOperator} (standIn : Bool)
    (hoperator : model.operators[index]? = some operator) :
    (operator.code = .split → ∀ plan, Plan.ofOperator model index standIn = .ok plan →
      ∃ op dims value part params, ofModel model index = .ok op ∧
        plan.outputs.length = operator.outputs.length ∧
        op.dims (op.input 1) = .ok dims ∧ op.scalar (op.input 0) = .ok value ∧
        plan.TakesApart (op.input 1) dims (axisFrom value dims.length)
          (List.replicate operator.outputs.length part) params) ∧
    (operator.code = .splitV → ∀ plan, Plan.ofOperator model index standIn = .ok plan →
      ∃ op dims value requested sizes params, ofModel model index = .ok op ∧
        plan.outputs.length = operator.outputs.length ∧
        op.dims (op.input 0) = .ok dims ∧ op.scalar (op.input 2) = .ok value ∧
        op.ints (op.input 1) = .ok requested ∧
        plan.TakesApart (op.input 0) dims (axisFrom value dims.length) sizes params ∧
        Agrees requested sizes) ∧
    (operator.code = .splitV → ∀ op, ofModel model index = .ok op → op.inputs.length = 3 →
      op.outputs.length = operator.options.splitCount.toNat →
      (∀ t ∈ op.inputs ++ op.outputs, ∃ info, op.info t = .ok info) →
      ∃ dims, op.dims (op.input 0) = .ok dims ∧ ∀ value requested,
        op.scalar (op.input 2) = .ok value → op.ints (op.input 1) = .ok requested →
        -dims.length ≤ value ∧ value < dims.length → requested.length = op.outputs.length →
        requested.count (-1) ≤ 1 → (∀ s ∈ requested, s ≠ -1 → 0 ≤ s) →
        (∃ size : Nat, (requested.map fun s => if s = -1 then (size : Int) else s).sum =
          (dims.getD (axisFrom value dims.length) 0).toNat) →
        ∃ plan, Plan.ofOperator model index standIn = .ok plan) := by
  have hfound {op : Operation} (hop : ofModel model index = .ok op) : op.operator = operator := by
    have hsame := operator_of_ofModel hop
    rw [hoperator, Option.some.injEq] at hsame
    exact hsame.symm
  have hwritten {op : Operation} {plan : Plan} (hop : ofModel model index = .ok op)
      (hplan : op.plan standIn = .ok plan) : plan.outputs.length = operator.outputs.length := by
    rw [(plan_planned plan hplan).covered.outputs]
    exact length_outputs_of_ofModel hoperator hop
  refine ⟨?equal, ?given, ?accepted⟩
  case equal =>
    intro hcode plan h
    obtain ⟨op, hop, hplan⟩ := Except.bind_eq_ok_iff.mp h
    have hcount := hwritten hop hplan
    unfold Operation.plan at hplan
    rw [hfound hop, hcode] at hplan
    obtain ⟨dims, value, part, params, hdims, hvalue, hapart⟩ := takesApart_of_planSplit hplan
    rw [hcount] at hapart
    exact ⟨op, dims, value, part, params, hop, hcount, hdims, hvalue, hapart⟩
  case given =>
    intro hcode plan h
    obtain ⟨op, hop, hplan⟩ := Except.bind_eq_ok_iff.mp h
    have hcount := hwritten hop hplan
    unfold Operation.plan at hplan
    rw [hfound hop, hcode] at hplan
    obtain ⟨dims, value, requested, sizes, params, hdims, hvalue, hrequested, hapart, hagrees⟩ :=
      takesApart_of_planSplitV hplan
    exact ⟨op, dims, value, requested, sizes, params, hop, hcount, hdims, hvalue, hrequested,
      hapart, hagrees⟩
  case accepted =>
    intro hcode op hop hin hout hinfo
    have hinput : op.input 0 ∈ op.inputs := input_mem (by omega)
    obtain ⟨info, hinfo₀⟩ := hinfo _ (List.mem_append_left _ hinput)
    obtain ⟨dims, hdims⟩ := exists_dims hop (List.mem_append_left _ hinput) hinfo₀
    refine ⟨dims, hdims, ?_⟩
    intro value requested hvalue hrequested hvalid hcount hone hnonneg hsum
    obtain ⟨size, hsum⟩ := hsum
    have hsplits : op.outputs.length = op.options.splitCount.toNat := by
      rw [hout, options, hfound hop]
    obtain ⟨plan, hplan⟩ := exists_planSplitV hin hsplits hinfo hdims hvalue hrequested hvalid
      hcount hone hnonneg hsum
    refine ⟨plan, Except.bind_eq_ok_iff.mpr ⟨op, hop, ?_⟩⟩
    unfold Operation.plan
    rw [hfound hop, hcode]
    exact hplan

/-- A matrix whose columns are taken apart in two equal parts, and its rows in three parts of which
    one is left open. -/
def takenApart : Model where
  tensors := [
    { name := "x", shape := [6, 4], storage := .float32 },
    { name := "last", shape := [1], storage := .int32, data := some [255, 255, 255, 255] },
    { name := "first", shape := [1], storage := .int32, data := some [0, 0, 0, 0] },
    { name := "rows", shape := [3], storage := .int32
      data := some [1, 0, 0, 0, 255, 255, 255, 255, 2, 0, 0, 0] },
    { name := "a", shape := [6, 2], storage := .float32 },
    { name := "b", shape := [6, 2], storage := .float32 },
    { name := "c", shape := [1, 4], storage := .float32 },
    { name := "d", shape := [3, 4], storage := .float32 },
    { name := "e", shape := [2, 4], storage := .float32 }]
  operators := [
    { code := .split, inputs := [1, 0], outputs := [4, 5], options := { splitCount := 2 } },
    { code := .splitV, inputs := [0, 3, 2], outputs := [6, 7, 8], options := { splitCount := 3 } }]
  inputs := [0]
  outputs := [4, 5, 6, 7, 8]

/-- The operator that takes the rows apart, with its tensors. -/
def takenApartRows : Operation where
  model := takenApart
  index := 1
  operator :=
    { code := .splitV, inputs := [0, 3, 2], outputs := [6, 7, 8], options := { splitCount := 3 } }
  inputs := [0, 3, 2]
  outputs := [6, 7, 8]

theorem splits_tile_takenApart :
    (∃ plan dims axis part params, Plan.ofOperator takenApart 0 false = .ok plan ∧
      plan.TakesApart 0 dims axis [part, part] params) ∧
    ∃ plan dims axis sizes params, Plan.ofOperator takenApart 1 false = .ok plan ∧
      plan.TakesApart 0 dims axis sizes params ∧ Agrees [1, -1, 2] sizes := by
  have hcolumns : takenApart.operators[0]? = some
      { code := .split, inputs := [1, 0], outputs := [4, 5], options := { splitCount := 2 } } := rfl
  have hrows : takenApart.operators[1]? = some takenApartRows.operator := rfl
  obtain ⟨hequal, -, -⟩ := splits_tile false hcolumns
  obtain ⟨-, hgiven, haccepted⟩ := splits_tile false hrows
  constructor
  · have hplanned : (Plan.ofOperator takenApart 0 false).map (fun _ => ()) = .ok () := by
      decide +kernel
    cases hplan : Plan.ofOperator takenApart 0 false with
    | error e =>
      rw [hplan] at hplanned
      cases hplanned
    | ok plan =>
      obtain ⟨op, dims, value, part, params, hop, -, -, -, hapart⟩ := hequal rfl plan hplan
      have hfound : ofModel takenApart 0 = .ok ⟨takenApart, 0, _, [1, 0], [4, 5]⟩ := rfl
      rw [hfound] at hop
      cases hop
      exact ⟨plan, dims, _, part, params, rfl, hapart⟩
  · have hfound : ofModel takenApart 1 = .ok takenApartRows := rfl
    have hinfos : ∀ t ∈ takenApartRows.inputs ++ takenApartRows.outputs,
        ∃ info, takenApartRows.info t = .ok info := by
      have hall : ∀ t ∈ takenApartRows.inputs ++ takenApartRows.outputs,
          (takenApartRows.info t).toBool = true := by
        decide +kernel
      intro t ht
      have hok := hall t ht
      cases hinfo : takenApartRows.info t with
      | ok info => exact ⟨info, rfl⟩
      | error e =>
        rw [hinfo] at hok
        cases hok
    have hdims : takenApartRows.dims (takenApartRows.input 0) = .ok [6, 4] := by decide +kernel
    have hvalue : takenApartRows.scalar (takenApartRows.input 2) = .ok 0 := by decide +kernel
    have hrequested : takenApartRows.ints (takenApartRows.input 1) = .ok [1, -1, 2] := by
      decide +kernel
    obtain ⟨dims, hdims', hplanned⟩ := haccepted rfl _ hfound rfl rfl hinfos
    rw [hdims] at hdims'
    cases hdims'
    -- Three rows are left for the open part.
    obtain ⟨plan, hplan⟩ := hplanned 0 [1, -1, 2] hvalue hrequested (by decide) rfl (by decide)
      (by decide) ⟨3, by decide⟩
    obtain ⟨op, dims, value, requested, sizes, params, hop, -, -, -, hasked, hapart, hagrees⟩ :=
      hgiven rfl plan hplan
    rw [hfound] at hop
    cases hop
    rw [hrequested] at hasked
    cases hasked
    exact ⟨plan, dims, _, sizes, params, hplan, hapart, hagrees⟩

end Plan

end LayerGraph
