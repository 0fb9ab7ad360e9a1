import LayerGraph.Proofs.Lowering.Origins

/-! # Joins along an axis

  Tensors that are joined follow each other along an axis, each in a view of the result. Where the
  views start is counted with 32 bits. Every size fits in 32 bits, but the sizes of many tensors
  together need not, and nothing refuses those that do not: the program stops at the first tensor
  that is too much. All others are exact: a view starts at the sum of the sizes before it, and no
  coordinate is in two views (`origins_of_joins`).
-/

namespace LayerGraph

variable {sizes : List UInt32} {rank axis k x : Nat}

/-! ### Views -/

/-- A coordinate along the axis is in the view at a position. -/
def InView (axis : Nat) (origins : List (List UInt32)) (sizes : List UInt32) (k x : Nat) : Prop :=
  ∃ origin size, origins[k]? = some origin ∧ sizes[k]? = some size ∧
    (origin.getD axis 0).toNat ≤ x ∧ x < (origin.getD axis 0).toNat + size.toNat

/-- No coordinate along the axis is in two views. -/
def ViewsDisjoint (axis : Nat) (origins : List (List UInt32)) (sizes : List UInt32) : Prop :=
  ∀ k k' x, InView axis origins sizes k x → InView axis origins sizes k' x → k = k'

namespace Operation

/-- A view is the part at its position, as long as 32 bits are enough to say where it starts. -/
theorem inView_originsOf_iff (haxis : axis < rank)
    (hfits : (sizes.map UInt32.toNat).sum < 2 ^ 32) :
    InView axis (originsOf rank axis sizes) sizes k x ↔ InPart sizes k x := by
  have hcoordinate (start : UInt32) :
      ((List.replicate rank (0 : UInt32)).set axis start).getD axis 0 = start := by
    rw [getD_set_of_lt (by simpa using haxis), if_pos rfl]
  have hstart : (UInt32.ofNat (startOf sizes k)).toNat = startOf sizes k :=
    UInt32.toNat_ofNat_of_lt' (Nat.lt_of_le_of_lt (startOf_le sizes k) hfits)
  constructor
  · rintro ⟨origin, size, horigin, hsize, hbound⟩
    rw [getElem?_originsOf (List.getElem?_eq_some_iff.mp hsize).1, Option.some.injEq] at horigin
    rw [← horigin, hcoordinate, hstart] at hbound
    exact ⟨size, hsize, hbound⟩
  · rintro ⟨size, hsize, hbound⟩
    refine ⟨_, size, getElem?_originsOf (List.getElem?_eq_some_iff.mp hsize).1, hsize, ?_⟩
    rw [hcoordinate, hstart]
    exact hbound

theorem viewsDisjoint_originsOf (haxis : axis < rank)
    (hfits : (sizes.map UInt32.toNat).sum < 2 ^ 32) :
    ViewsDisjoint axis (originsOf rank axis sizes) sizes := by
  intro k k' x hk hk'
  rw [inView_originsOf_iff haxis hfits] at hk hk'
  exact hk.unique hk'

/-! ### Plans -/

/-- The tensor has as many dimensions as asked for, and the size along the axis. -/
def SizeAlong (op : Operation) (rank axis tensor : Nat) (size : UInt32) : Prop :=
  ∃ dims, op.dims tensor = .ok dims ∧ dims.length = rank ∧ dims[axis]? = some size

end Operation

/-- The plan joins all tensors that the operator reads along an axis. The sizes are those of the
    tensors along the axis. -/
structure Plan.Joins (plan : Plan) (op : Operation) (rank axis : Nat) (sizes : List UInt32)
    (params : ConcatParams) : Prop where
  reads : plan.inputs = op.inputs.map .tensor
  kind : plan.primary.kind = .concat params
  axis_lt : axis < rank
  along : params.axis = .ofNat axis
  /-- A tensor has as many dimensions as the result, and its size is that along the axis. -/
  sizes_of_inputs : List.Forall₂ (op.SizeAlong rank axis) op.inputs sizes
  /-- Where the last tensor ends is counted as well, so 32 bits are enough for all of them. -/
  fits : (sizes.map UInt32.toNat).sum < 2 ^ 32
  length_origins : params.origins.length = op.inputs.length
  /-- An origin is zero but along the axis. There it is the sum of the sizes before it. -/
  origin : ∀ k < op.inputs.length, ∃ start : UInt32, start.toNat = startOf sizes k ∧
    params.origins[k]? = some ((List.replicate rank 0).set axis start)
  disjoint : ViewsDisjoint axis params.origins sizes

namespace Operation

open Planning

variable {op : Operation} {plan : Plan} {operation : Overflow}

theorem joinedSize_eq_ok_iff {tensor : Nat} {size : UInt32} (haxis : axis < rank) :
    op.joinedSize rank axis tensor = .ok size ↔ op.SizeAlong rank axis tensor size := by
  unfold joinedSize
  rw [Except.bind_eq_ok_iff]
  refine exists_congr fun dims => and_congr_right fun _ => ?_
  refine Except.check_eq_ok_iff.trans ?_
  rw [not_not]
  refine and_congr_right fun hlength => ?_
  have hget : axis < dims.length := hlength ▸ haxis
  rw [List.getD_eq_getElem?_getD, List.getElem?_eq_getElem hget, Option.getD_some,
    Option.some.injEq]
  exact Except.pure_eq_ok_iff

theorem mapM_joinedSize_eq_ok_iff {tensors : List Nat} (haxis : axis < rank) :
    tensors.mapM (op.joinedSize rank axis) = .ok sizes ↔
      List.Forall₂ (op.SizeAlong rank axis) tensors sizes := by
  simp only [Except.mapM_eq_ok_iff, joinedSize_eq_ok_iff haxis]

theorem joins_of_planConcatenation (h : op.planConcatenation = .ok plan) :
    ∃ dims axis sizes params, op.dims (op.output 0) = .ok dims ∧
      axis = axisFrom op.options.axis.toInt dims.length ∧
      plan.Joins op dims.length axis sizes params := by
  obtain ⟨dims, axis, sizes, -, hdims, haxis, hsizes, hfits, hlayer⟩ :=
    planConcatenation_eq_ok_iff.mp h
  obtain ⟨hvalid, hfrom⟩ := axis_eq_ok_iff.mp haxis
  have haxis : axis < dims.length := hfrom ▸ axisFrom_lt hvalid
  obtain ⟨inputs, outputs, -, -, rfl⟩ := layer_eq_ok hlayer
  -- There is one size for each input, and one origin for each size.
  have hlength : sizes.length = op.inputs.length := length_of_mapM hsizes
  refine ⟨dims, axis, sizes, ⟨.ofNat axis, originsOf dims.length axis sizes⟩, hdims, hfrom, ?_⟩
  constructor
  case reads => rfl
  case kind => rfl
  case axis_lt => exact haxis
  case along => rfl
  case sizes_of_inputs => exact (mapM_joinedSize_eq_ok_iff haxis).mp hsizes
  case fits => exact hfits
  case length_origins => exact (length_originsOf _ _ _).trans hlength
  case origin =>
    intro k hk
    refine ⟨_, ?_, getElem?_originsOf (hlength ▸ hk)⟩
    exact UInt32.toNat_ofNat_of_lt' (Nat.lt_of_le_of_lt (startOf_le sizes k) hfits)
  case disjoint => exact viewsDisjoint_originsOf haxis hfits

/-- Tensors are not joined because of their sizes exactly when some of them from the first one on
    are too long together. The checks before are passed, also by these tensors. -/
theorem planConcatenation_eq_overflow_iff :
    op.planConcatenation = .error (.overflow operation) ↔
      operation = .add ∧ ∃ dims axis done sizes, op.outputs.length = 1 ∧
        op.dims (op.output 0) = .ok dims ∧
        op.axis (op.output 0) op.options.axis.toInt dims.length = .ok axis ∧
        done <+: op.inputs ∧ List.Forall₂ (op.SizeAlong dims.length axis) done sizes ∧
        2 ^ 32 ≤ (sizes.map UInt32.toNat).sum := by
  have haxis_lt {dims : List UInt32} {axis : Nat}
      (h : op.axis (op.output 0) op.options.axis.toInt dims.length = .ok axis) :
      axis < dims.length := by
    obtain ⟨hvalid, rfl⟩ := axis_eq_ok_iff.mp h
    exact axisFrom_lt hvalid
  unfold planConcatenation
  rw [checkArity_blames.bind_eq_overflow_iff]
  constructor
  · rintro ⟨_, harity, h⟩
    obtain ⟨dims, hdims, h⟩ := dims_blames.bind_eq_overflow_iff.mp h
    obtain ⟨axis, haxis, h⟩ := axis_blames.bind_eq_overflow_iff.mp h
    rcases Except.bind_eq_error_iff.mp h with hrow | ⟨row, -, hlayer⟩
    · obtain ⟨rfl, done, sizes, hdone, hsizes, hlong⟩ := foldlM_joinInto_eq_overflow_iff.mp hrow
      rw [mapM_joinedSize_eq_ok_iff (haxis_lt haxis)] at hsizes
      have hone := allows_exactly_iff.mp (checkArity_eq_ok_iff.mp harity).2
      exact ⟨rfl, dims, axis, done, sizes, hone, hdims, haxis, hdone, hsizes, hlong⟩
    · exact (layer_blames _ hlayer).elim
  · rintro ⟨rfl, dims, axis, done, sizes, hone, hdims, haxis, hdone, hsizes, hlong⟩
    -- There is a tensor, since no tensors are not too long.
    have hsome : (Arity.atLeast 1).allows op.inputs.length = true := by
      cases hsizes with
      | nil => exact absurd hlong (by decide)
      | cons _ _ =>
        have hle := hdone.length_le
        rw [List.length_cons] at hle
        show (decide (1 ≤ op.inputs.length) && true) = true
        simp only [Bool.and_true, decide_eq_true_eq]
        omega
    refine ⟨(), checkArity_eq_ok_iff.mpr ⟨hsome, allows_exactly_iff.mpr hone⟩, ?_⟩
    refine dims_blames.bind_eq_overflow_iff.mpr ⟨dims, hdims, ?_⟩
    refine axis_blames.bind_eq_overflow_iff.mpr ⟨axis, haxis, ?_⟩
    refine Except.bind_eq_error_iff.mpr (.inl (foldlM_joinInto_eq_overflow_iff.mpr ?_))
    exact ⟨rfl, done, sizes, hdone, (mapM_joinedSize_eq_ok_iff (haxis_lt haxis)).mpr hsizes, hlong⟩

end Operation

namespace Plan

open Operation

/-- A fused activation changes nothing of what joins the tensors. -/
theorem Joins.fuse {op : Operation} {plan plan' : Plan} {params : ConcatParams}
    (h : plan.Joins op rank axis sizes params) (hfuse : op.fuse plan = .ok plan') :
    plan'.Joins op rank axis sizes params := by
  rcases fuse_eq_ok hfuse with rfl | ⟨activation, name, rfl⟩
  · exact h
  · exact { h with }

/-- What is planned for an operator that joins tensors has an origin for each, whose coordinate
    along the axis is the sum of the sizes before it, and the views are disjoint. The program stops
    when some of the tensors from the first one on, all of which may be joined, have sizes whose sum
    needs more than 32 bits, and only then. -/
theorem origins_of_joins {model : Model} {index : Nat} {operator : ModelOperator} (standIn : Bool)
    (hoperator : model.operators[index]? = some operator)
    (hcode : operator.code = .concatenation) :
    (∀ plan, Plan.ofOperator model index standIn = .ok plan →
      ∃ op dims axis sizes params, ofModel model index = .ok op ∧
        op.dims (op.output 0) = .ok dims ∧
        axis = axisFrom operator.options.axis.toInt dims.length ∧
        plan.Joins op dims.length axis sizes params) ∧
    ∀ operation, Plan.ofOperator model index standIn = .error (.overflow operation) ↔
      operation = .add ∧ ∃ op dims axis done sizes, ofModel model index = .ok op ∧
        op.outputs.length = 1 ∧ op.dims (op.output 0) = .ok dims ∧
        op.axis (op.output 0) operator.options.axis.toInt dims.length = .ok axis ∧
        done <+: op.inputs ∧ List.Forall₂ (op.SizeAlong dims.length axis) done sizes ∧
        2 ^ 32 ≤ (sizes.map UInt32.toNat).sum := by
  have hplan {op : Operation} (hop : ofModel model index = .ok op) :
      op.plan standIn = op.planConcatenation >>= op.fuse := by
    have hfound := operator_of_ofModel hop
    rw [hoperator, Option.some.injEq] at hfound
    unfold Operation.plan
    rw [← hfound, hcode]
  have hoptions {op : Operation} (hop : ofModel model index = .ok op) :
      op.options = operator.options := by
    have hfound := operator_of_ofModel hop
    rw [hoperator, Option.some.injEq] at hfound
    rw [options, hfound]
  constructor
  · intro plan h
    obtain ⟨op, hop, h⟩ := Except.bind_eq_ok_iff.mp h
    rw [hplan hop] at h
    obtain ⟨joined, hjoined, hfuse⟩ := Except.bind_eq_ok_iff.mp h
    obtain ⟨dims, axis, sizes, params, hdims, haxis, hjoins⟩ := joins_of_planConcatenation hjoined
    rw [hoptions hop] at haxis
    exact ⟨op, dims, axis, sizes, params, hop, hdims, haxis, hjoins.fuse hfuse⟩
  · intro operation
    unfold Plan.ofOperator
    rw [ofModel_blames.bind_eq_overflow_iff]
    constructor
    · rintro ⟨op, hop, h⟩
      rw [hplan hop] at h
      rcases Except.bind_eq_error_iff.mp h with hjoin | ⟨plan, -, hfuse⟩
      · obtain ⟨rfl, dims, axis, done, sizes, hstop⟩ := planConcatenation_eq_overflow_iff.mp hjoin
        rw [hoptions hop] at hstop
        exact ⟨rfl, op, dims, axis, done, sizes, hop, hstop⟩
      · exact (fuse_blames _ hfuse).elim
    · rintro ⟨rfl, op, dims, axis, done, sizes, hop, hstop⟩
      rw [← hoptions hop] at hstop
      refine ⟨op, hop, ?_⟩
      rw [hplan hop]
      refine Except.bind_eq_error_iff.mpr (.inl (planConcatenation_eq_overflow_iff.mpr ?_))
      exact ⟨rfl, dims, axis, done, sizes, hstop⟩

/-- Four vectors of 2 ^ 31 - 1 elements that are joined, and two of them. The third one of the four
    would end behind 2 ^ 32. -/
def longJoin : Model where
  tensors := List.replicate 6 { name := "v", shape := [2147483647], storage := .float32 }
  operators := [
    { code := .concatenation, inputs := [0, 1, 2, 3], outputs := [4] },
    { code := .concatenation, inputs := [0, 1], outputs := [5] }]
  inputs := [0, 1, 2, 3]
  outputs := [4, 5]

/-- The operator that joins four of them, with its tensors. -/
def longJoinFour : Operation where
  model := longJoin
  index := 0
  operator := { code := .concatenation, inputs := [0, 1, 2, 3], outputs := [4] }
  inputs := [0, 1, 2, 3]
  outputs := [4]

theorem origins_of_joins_longJoin :
    Plan.ofOperator longJoin 0 false = .error (.overflow .add) ∧
    ∃ plan op sizes params, Plan.ofOperator longJoin 1 false = .ok plan ∧
      plan.Joins op 1 0 sizes params ∧ op.inputs = [0, 1] := by
  constructor
  · have hfound : ofModel longJoin 0 = .ok longJoinFour := rfl
    have hdims : ∀ t ∈ [0, 1, 2, 4], longJoinFour.dims t = .ok [2147483647] := by decide +kernel
    have hsize (t : Nat) (ht : t ∈ [0, 1, 2, 4]) : longJoinFour.SizeAlong 1 0 t 2147483647 :=
      ⟨_, hdims t ht, rfl, rfl⟩
    refine ((origins_of_joins false rfl rfl).2 _).mpr ⟨rfl, longJoinFour, _, 0, [0, 1, 2],
      List.replicate 3 2147483647, hfound, rfl, hdims 4 (by decide), rfl, ⟨[3], rfl⟩, ?_, by decide⟩
    exact .cons (hsize 0 (by decide)) (.cons (hsize 1 (by decide))
      (.cons (hsize 2 (by decide)) .nil))
  · have hplanned : (Plan.ofOperator longJoin 1 false).toBool = true := by decide +kernel
    cases hplan : Plan.ofOperator longJoin 1 false with
    | error e =>
      rw [hplan] at hplanned
      cases hplanned
    | ok plan =>
      obtain ⟨op, dims, axis, sizes, params, hop, hdims, haxis, hjoins⟩ :=
        (origins_of_joins false rfl rfl).1 plan hplan
      have hfound : ofModel longJoin 1 = .ok ⟨longJoin, 1,
          { code := .concatenation, inputs := [0, 1], outputs := [5] }, [0, 1], [5]⟩ := rfl
      rw [hfound] at hop
      cases hop
      obtain rfl : [2147483647] = dims := Except.ok.inj hdims
      obtain rfl : axis = 0 := haxis
      exact ⟨plan, _, sizes, params, rfl, hjoins, rfl⟩

end Plan

end LayerGraph
