import LayerGraph.Proofs.Lowering.Elements
import LayerGraph.Proofs.Lowering.Joins
import LayerGraph.Proofs.Lowering.Splits

/-! # Lists with an entry for each dimension

  Paddings, boxes, origins and permutations are lists with an entry for each dimension of the
  tensors that a layer reads. Most of them come from constants, which may have any length.

  Main statement: the lists of what is planned for a padding, a slice, a split or a join are as long
  as the ranks of the tensors ask for, and those of a transposition are when there is no permutation,
  or when the permutation that is given has the right length (`Plan.lists_fit_ranks`). This length
  is not compared with anything. A permutation of another length is accepted, though it cannot be
  applied to the shape.
-/

namespace LayerGraph

/-- The lists of a layer that have an entry for each dimension are made for tensors of the rank. -/
def LayerKind.FitsRank (rank : Nat) : LayerKind → Prop
  | .pad p => p.pads.length = rank
  | .slice p => p.start.length = rank ∧ p.size.length = rank
  | .splitter p => ∀ list ∈ p.origins ++ p.sizes, list.length = rank
  | .concat p => ∀ origin ∈ p.origins, origin.length = rank
  | .transpose p => p.length = rank
  | _ => False

/-- The lists of the operator are compared with the ranks of its tensors. -/
def OperatorCode.ComparesRanks : OperatorCode → Prop
  | .pad | .padV2 | .mirrorPad | .slice | .split | .splitV | .concatenation => True
  | _ => False

/-- The primary layer of a plan reads some tensors, and its lists are made for each of them. -/
structure Plan.Fits (plan : Plan) : Prop where
  reads : plan.primary.inputs ≠ []
  fits : ∀ info ∈ plan.primary.inputs, plan.primary.kind.FitsRank info.shape.rank

/-- A permutation can be applied to the shapes that have its length. -/
theorem Permutation.exists_permuteShape_iff {p : Permutation} {dims : List UInt32} :
    (∃ permuted, p.permuteShape dims = .ok permuted) ↔ p.length = dims.length := by
  unfold permuteShape
  by_cases hlength : dims.length = p.length
  · rw [if_pos hlength]
    exact ⟨fun _ => hlength.symm, fun _ => ⟨_, rfl⟩⟩
  · rw [if_neg hlength]
    exact ⟨nofun, fun heq => absurd heq.symm hlength⟩

namespace Operation

open Planning

variable {op : Operation} {kind : LayerKind} {name label : String} {connected : List Nat}
variable {plan : Plan} {t rank axis : Nat} {dims sizes : List UInt32} {info : TensorInfo}

/-! ### One layer -/

/-- A tensor has as many sizes as its descriptor has dimensions. -/
theorem rank_eq_of_dims (hdims : op.dims t = .ok dims) (hinfo : op.info t = .ok info) :
    info.shape.rank = dims.length := by
  obtain ⟨info', hinfo', hshape⟩ := dims_eq_ok hdims
  rw [hinfo] at hinfo'
  cases hinfo'
  rw [hshape, Shape.rank, Shape.ofDims, List.length_map]

/-- The lists fit when they fit each of the tensors that are read. -/
theorem layer_fits (hconnected : connected ≠ [])
    (hfits : ∀ t ∈ connected, ∀ info, op.info t = .ok info → kind.FitsRank info.shape.rank) :
    (op.layer kind name connected).Yields Plan.Fits := by
  intro plan h
  obtain ⟨inputs, outputs, hinputs, -, rfl⟩ := layer_eq_ok h
  have hread := Except.mapM_eq_ok_iff.mp hinputs
  constructor
  · rintro rfl
    exact hconnected (List.forall₂_nil_right_iff.mp hread)
  · intro info hinfo
    obtain ⟨t, ht, hinfo⟩ := exists_mem_of_forall₂ hread hinfo
    exact hfits t ht info hinfo

/-- The lists fit the one tensor that is read. -/
theorem layer_fits_one (hfits : ∀ info, op.info t = .ok info → kind.FitsRank info.shape.rank) :
    (op.layer kind name [t]).Yields Plan.Fits := by
  refine layer_fits (List.cons_ne_nil _ _) fun t' ht' => ?_
  rw [List.mem_singleton.mp ht']
  exact hfits

/-- A permutation fits when it is as long as the rank of the one tensor that is read. -/
theorem fits_transpose_iff {p : Permutation} (hkind : plan.primary.kind = .transpose p)
    (hinputs : plan.primary.inputs = [info]) : plan.Fits ↔ p.length = info.shape.rank := by
  constructor
  · intro hplan
    have hfirst := hplan.fits info (by simp [hinputs])
    rwa [hkind] at hfirst
  · intro hlength
    refine ⟨by simp [hinputs], fun info' hinfo' => ?_⟩
    rw [hinputs, List.mem_singleton] at hinfo'
    rw [hinfo', hkind]
    exact hlength

/-- A fused activation leaves the primary layer as it is. -/
theorem fuse_fits {plan' : Plan} (h : plan.Fits) (hfuse : op.fuse plan = .ok plan') :
    plan'.Fits := by
  rcases fuse_eq_ok hfuse with rfl | ⟨activation, name, rfl⟩
  · exact h
  · exact ⟨h.reads, h.fits⟩

/-! ### Lists that are checked -/

theorem planPad_fits {mode : PaddingMode} {given : Bool} :
    (op.planPad label mode given).Yields Plan.Fits := by
  unfold planPad
  refine .bind fun _ _ => .bind fun info hinfo => .bind fun pads _ => .check fun hcount => ?_
  refine .bind fun value _ => layer_fits_one fun info' hinfo' => ?_
  rw [hinfo] at hinfo'
  cases hinfo'
  exact not_not.mp hcount

theorem planSlice_fits : op.planSlice.Yields Plan.Fits := by
  unfold planSlice
  refine .bind fun _ _ => .bind fun dims hdims => .bind fun start _ => ?_
  refine .bind fun requested _ => .check fun hrank => .bind fun size hsize => ?_
  rw [not_or, not_not, not_not] at hrank
  refine layer_fits_one fun info hinfo => ?_
  rw [rank_eq_of_dims hdims hinfo]
  refine ⟨hrank.1, ?_⟩
  rw [length_of_mapM hsize, List.length_zip, List.length_zip, hrank.1, hrank.2, Nat.min_self,
    Nat.min_self]

theorem length_of_mem_originsOf {origin : List UInt32} (h : origin ∈ originsOf rank axis sizes) :
    origin.length = rank := by
  obtain ⟨k, hk⟩ := List.mem_iff_getElem?.mp h
  have hlt := (List.getElem?_eq_some_iff.mp hk).1
  rw [length_originsOf] at hlt
  rw [getElem?_originsOf hlt, Option.some.injEq] at hk
  rw [← hk, List.length_set, List.length_replicate]

theorem planParts_fits (hdims : op.dims t = .ok dims) :
    (op.planParts t dims axis sizes label).Yields Plan.Fits := by
  intro plan h
  refine layer_fits_one (fun info hinfo => ?_) plan (planParts_eq_ok_iff.mp h).2
  rw [rank_eq_of_dims hdims hinfo]
  intro list hlist
  rcases List.mem_append.mp hlist with horigin | hsize
  · exact length_of_mem_originsOf horigin
  · obtain ⟨size, -, rfl⟩ := List.mem_map.mp hsize
    exact List.length_set

theorem planSplit_fits : op.planSplit.Yields Plan.Fits := by
  intro plan h
  obtain ⟨dims, value, axis, -, -, hdims, -, -, -, hparts⟩ := planSplit_eq_ok h
  exact planParts_fits hdims plan hparts

theorem planSplitV_fits : op.planSplitV.Yields Plan.Fits := by
  intro plan h
  obtain ⟨dims, value, axis, requested, closed, sizes, -, -, hdims, -, -, -, -, -, -, -, -,
    hparts⟩ := planSplitV_eq_ok_iff.mp h
  exact planParts_fits hdims plan hparts

/-- Tensors that are joined have the rank of the result, which the origins have too. -/
theorem planConcatenation_fits : op.planConcatenation.Yields Plan.Fits := by
  intro plan h
  obtain ⟨dims, axis, sizes, harity, -, haxis, hsizes, -, hlayer⟩ :=
    planConcatenation_eq_ok_iff.mp h
  obtain ⟨hvalid, hfrom⟩ := axis_eq_ok_iff.mp haxis
  have hlt : axis < dims.length := hfrom ▸ axisFrom_lt hvalid
  have hsome : 1 ≤ op.inputs.length := least_le_of_allows (checkArity_eq_ok_iff.mp harity).1
  refine layer_fits (List.ne_nil_of_length_pos hsome) (fun t ht info hinfo => ?_) plan hlayer
  obtain ⟨size, -, hsize⟩ :=
    exists_mem_of_forall₂ (Except.mapM_eq_ok_iff.mp hsizes).flip ht
  obtain ⟨found, hfound, hrank, -⟩ := (joinedSize_eq_ok_iff hlt).mp hsize
  -- Every tensor was compared with the result, and the origins are made for the result.
  rw [rank_eq_of_dims hfound hinfo, hrank]
  exact fun origin horigin => length_of_mem_originsOf horigin

/-! ### The list that is not -/

/-- One layer that reads one tensor has its descriptor. -/
theorem layer_reads_one (h : op.layer kind name [t] = .ok plan) :
    ∃ info, op.info t = .ok info ∧ plan.primary.kind = kind ∧ plan.primary.inputs = [info] := by
  obtain ⟨inputs, outputs, hinputs, -, rfl⟩ := layer_eq_ok h
  cases Except.mapM_eq_ok_iff.mp hinputs with
  | cons hinfo hrest =>
    cases hrest
    exact ⟨_, hinfo, rfl, rfl⟩

/-- A transposition reads one tensor. Its permutation is as long as the constant that gives it, and
    without a constant it has an entry for each dimension. -/
theorem planTranspose_eq_ok (h : op.planTranspose = .ok plan) :
    ∃ p info, op.input 0 ∈ op.inputs ∧ op.info (op.input 0) = .ok info ∧
      plan.primary.kind = .transpose p ∧ plan.primary.inputs = [info] ∧
      (∀ t, op.inputs[1]? = some t → ∃ values, op.ints t = .ok values ∧
        p.length = values.length) ∧
      (op.inputs[1]? = none → p.length = info.shape.rank) := by
  unfold planTranspose at h
  obtain ⟨_, harity, h⟩ := Except.bind_eq_ok_iff.mp h
  have hread : op.input 0 ∈ op.inputs :=
    input_mem (least_le_of_allows (checkArity_eq_ok_iff.mp harity).1)
  dsimp only at h
  split at h
  · next permutation hgiven =>
    obtain ⟨mappings, hsizes, h⟩ := Except.bind_eq_ok_iff.mp h
    obtain ⟨values, hvalues, hsizes⟩ := Except.bind_eq_ok_iff.mp hsizes
    split at h
    · next p hp =>
      obtain ⟨info, hinfo, hkind, hinputs⟩ := layer_reads_one h
      refine ⟨p, info, hread, hinfo, hkind, hinputs, fun t ht => ?_, fun hnone => ?_⟩
      · rw [hgiven, Option.some.injEq] at ht
        subst ht
        refine ⟨values, hvalues, ?_⟩
        rw [Permutation.length, Permutation.mappings_of_ofMappings hp, length_of_mapM hsizes]
      · rw [hgiven] at hnone
        cases hnone
    · cases h
  · next habsent =>
    obtain ⟨dims, hdims, h⟩ := Except.bind_eq_ok_iff.mp h
    obtain ⟨mappings, hmappings, h⟩ := Except.bind_eq_ok_iff.mp h
    obtain rfl := Except.pure_eq_ok_iff.mp hmappings
    split at h
    · next p hp =>
      obtain ⟨info, hinfo, hkind, hinputs⟩ := layer_reads_one h
      refine ⟨p, info, hread, hinfo, hkind, hinputs, fun t ht => ?_, fun _ => ?_⟩
      · rw [habsent] at ht
        cases ht
      · -- Without a constant the dimensions are reversed, and none is lost.
        rw [Permutation.length, Permutation.mappings_of_ofMappings hp, rank_eq_of_dims hdims hinfo]
        simp
    · cases h

/-! ### All operators -/

theorem plan_fits {standIn : Bool} (hcode : op.operator.code.ComparesRanks) :
    (op.plan standIn).Yields Plan.Fits := by
  unfold Operation.plan
  cases hop : op.operator.code <;> rw [hop] at hcode <;> try cases hcode
  case pad => exact planPad_fits
  case padV2 => exact planPad_fits
  case mirrorPad =>
    dsimp only
    split
    · exact planPad_fits
    · exact planPad_fits
  case slice => exact planSlice_fits
  case split => exact planSplit_fits
  case splitV => exact planSplitV_fits
  case concatenation =>
    exact planConcatenation_fits.andThen fun plan hplan => fun plan' hfuse => fuse_fits hplan hfuse

end Operation

namespace Plan

open Operation

/-- What is planned for an operator that pads a tensor, cuts or takes it apart, or joins tensors has
    lists that fit the rank of each tensor that it reads. What is planned for a transposition has
    such a list when no permutation is given. A permutation that is given fits exactly when it is as
    long as the rank, and it can be applied to the shape of the tensor exactly when it fits. -/
theorem lists_fit_ranks {model : Model} {index : Nat} {operator : ModelOperator} {standIn : Bool}
    {plan : Plan} (hoperator : model.operators[index]? = some operator)
    (h : Plan.ofOperator model index standIn = .ok plan) :
    (operator.code.ComparesRanks → plan.Fits) ∧
    (operator.code = .transpose → ∃ op p info dims, ofModel model index = .ok op ∧
      plan.primary.kind = .transpose p ∧ plan.primary.inputs = [info] ∧
      op.dims (op.input 0) = .ok dims ∧ info.shape = .ofDims dims ∧
      (op.inputs[1]? = none → plan.Fits) ∧
      (∀ t, op.inputs[1]? = some t → ∃ values, op.ints t = .ok values ∧
        (plan.Fits ↔ values.length = dims.length)) ∧
      ((∃ permuted, p.permuteShape dims = .ok permuted) ↔ plan.Fits)) := by
  obtain ⟨op, hop, hplan⟩ := Except.bind_eq_ok_iff.mp h
  have hfound := operator_of_ofModel hop
  rw [hoperator, Option.some.injEq] at hfound
  constructor
  · intro hcode
    rw [hfound] at hcode
    exact plan_fits hcode plan hplan
  · intro hcode
    unfold Operation.plan at hplan
    rw [← hfound, hcode] at hplan
    obtain ⟨p, info, hread, hinfo, hkind, hinputs, hgiven, habsent⟩ := planTranspose_eq_ok hplan
    obtain ⟨dims, hdims⟩ := exists_dims hop (List.mem_append_left _ hread) hinfo
    -- Nothing compares the length with the rank, so whether it fits is left open.
    have hrank := rank_eq_of_dims hdims hinfo
    have hfits := fits_transpose_iff hkind hinputs
    rw [hrank] at hfits
    obtain ⟨info', hinfo', hshape⟩ := dims_eq_ok hdims
    rw [hinfo] at hinfo'
    cases hinfo'
    refine ⟨op, p, info, dims, hop, hkind, hinputs, hdims, hshape, ?_, ?_, ?_⟩
    · intro hnone
      exact hfits.mpr ((habsent hnone).trans hrank)
    · intro t ht
      obtain ⟨values, hvalues, hlength⟩ := hgiven t ht
      exact ⟨values, hvalues, by rw [hfits, hlength]⟩
    · rw [hfits]
      exact Permutation.exists_permuteShape_iff

/-- A tensor of three dimensions that is padded, and moved by permutations of three and of two. -/
def movedAround : Model where
  tensors := [
    { name := "x", shape := [2, 3, 4], storage := .float32 },
    { name := "pads", shape := [3, 2], storage := .int32
      data := some ([0, 0, 1, 1, 0, 2].flatMap fun n => [n, 0, 0, 0]) },
    { name := "three", shape := [3], storage := .int32
      data := some ([2, 0, 1].flatMap fun n => [n, 0, 0, 0]) },
    { name := "two", shape := [2], storage := .int32, data := some [1, 0, 0, 0, 0, 0, 0, 0] },
    { name := "y", shape := [2, 5, 6], storage := .float32 },
    { name := "z", shape := [4, 2, 3], storage := .float32 }]
  operators := [
    { code := .pad, inputs := [0, 1], outputs := [4] },
    { code := .transpose, inputs := [0, 2], outputs := [5] },
    { code := .transpose, inputs := [0, 3], outputs := [5] }]
  inputs := [0]
  outputs := [4, 5]

/-- The operator that moves the dimensions by the permutation of the tensor. -/
def movedBy (index permutation : Nat) : Operation where
  model := movedAround
  index := index
  operator := { code := .transpose, inputs := [0, .ofNat permutation], outputs := [5] }
  inputs := [0, permutation]
  outputs := [5]

/-- The permutation of two dimensions is accepted, and cannot be applied to the shape. -/
theorem lists_fit_ranks_movedAround :
    (∃ plan, Plan.ofOperator movedAround 0 false = .ok plan ∧ plan.Fits) ∧
    (∃ plan, Plan.ofOperator movedAround 1 false = .ok plan ∧ plan.Fits) ∧
    ∃ plan p, Plan.ofOperator movedAround 2 false = .ok plan ∧ plan.primary.kind = .transpose p ∧
      ¬ plan.Fits ∧ ¬ ∃ permuted, p.permuteShape [2, 3, 4] = .ok permuted := by
  have hplanned (index : Nat) (hindex : index < 3) :
      ∃ plan, Plan.ofOperator movedAround index false = .ok plan := by
    have hall : ∀ index < 3, (Plan.ofOperator movedAround index false).toBool = true := by
      decide +kernel
    have hok := hall index hindex
    cases hplan : Plan.ofOperator movedAround index false with
    | ok plan => exact ⟨plan, rfl⟩
    | error e =>
      rw [hplan] at hok
      cases hok
  obtain ⟨padded, hpadded⟩ := hplanned 0 (by decide)
  obtain ⟨moved, hmoved⟩ := hplanned 1 (by decide)
  obtain ⟨short, hshort⟩ := hplanned 2 (by decide)
  obtain ⟨hpad, -⟩ := lists_fit_ranks rfl hpadded
  refine ⟨⟨padded, hpadded, hpad trivial⟩, ⟨moved, hmoved, ?_⟩, ?_⟩
  · obtain ⟨op, p, info, dims, hop, -, -, hdims, -, -, hgiven, -⟩ :=
      (lists_fit_ranks rfl hmoved).2 rfl
    have hfound : ofModel movedAround 1 = .ok (movedBy 1 2) := rfl
    obtain rfl := Except.ok.inj (hfound.symm.trans hop)
    have hknown : (movedBy 1 2).dims 0 = .ok [2, 3, 4] := by decide +kernel
    obtain rfl := Except.ok.inj (hknown.symm.trans hdims)
    obtain ⟨values, hvalues, hfits⟩ := hgiven 2 rfl
    have hthree : (movedBy 1 2).ints 2 = .ok [2, 0, 1] := by decide +kernel
    obtain rfl := Except.ok.inj (hthree.symm.trans hvalues)
    exact hfits.mpr rfl
  · obtain ⟨op, p, info, dims, hop, hkind, -, hdims, -, -, hgiven, happlied⟩ :=
      (lists_fit_ranks rfl hshort).2 rfl
    have hfound : ofModel movedAround 2 = .ok (movedBy 2 3) := rfl
    obtain rfl := Except.ok.inj (hfound.symm.trans hop)
    have hknown : (movedBy 2 3).dims 0 = .ok [2, 3, 4] := by decide +kernel
    obtain rfl := Except.ok.inj (hknown.symm.trans hdims)
    obtain ⟨values, hvalues, hfits⟩ := hgiven 3 rfl
    have htwo : (movedBy 2 3).ints 3 = .ok [1, 0] := by decide +kernel
    obtain rfl := Except.ok.inj (htwo.symm.trans hvalues)
    have hnot : ¬ short.Fits := by
      rw [hfits]
      decide
    exact ⟨short, p, hshort, hkind, hnot, by rwa [happlied]⟩

end Plan

end LayerGraph
