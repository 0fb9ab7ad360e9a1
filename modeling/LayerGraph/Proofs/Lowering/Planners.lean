import LayerGraph.Proofs.Lowering.Drawn
import LayerGraph.Proofs.Lowering.Rows

/-! # Planner by planner

  There is a planner for every kind of operator, and one statement about each of them (`Draws`):
  what it refuses is the fault of the operator, or a number that does not fit where it may not, and
  what it gives is a plan that is drawn up as it should be. The tensors of the operator are counted
  before any of them is looked at, so they are there when they are. Main statement: all operators
  are planned so (`plan_draws`).
-/

namespace LayerGraph

namespace Planning

variable {α β : Type} {p : LoweringError → Prop} {x : Planning α}

theorem Refuses.ends {post : α → Prop} (hx : Refuses x p) (h : Yields x post) :
    Except.Ends p post x := by
  cases hrun : x with
  | error e => exact .error (hx e hrun)
  | ok a => exact .ok (h a hrun)

theorem Refuses.andThen {f : α → Planning β} {post : β → Prop} (hx : Refuses x p)
    (hf : ∀ a, x = .ok a → Except.Ends p post (f a)) : Except.Ends p post (x >>= f) :=
  (hx.ends fun _ ha => ha).bind fun a ha _ => hf a ha

variable {op : Operation}

theorem Blames.refuses (hx : x.Blames op.index) : x.Refuses op.Rejects :=
  fun e he => (hx e he).rejects

theorem Blames.ends {post : α → Prop} (hx : x.Blames op.index) (h : Yields x post) :
    Except.Ends op.Rejects post x :=
  hx.refuses.ends h

theorem Blames.andThen {f : α → Planning β} {post : β → Prop} (hx : x.Blames op.index)
    (hf : ∀ a, x = .ok a → Except.Ends op.Rejects post (f a)) :
    Except.Ends op.Rejects post (x >>= f) :=
  hx.refuses.andThen hf

end Planning

namespace Operation

open Planning

variable {op : Operation} {kind : LayerKind} {name label : String} {connected : List Nat}
variable {P : Plan → Prop} {R : List UInt32 → List UInt32 → Prop} {dims target : List UInt32}
variable {plan : Plan} {t role n : Nat} {info : TensorInfo} {arity : Arity}

/-- What is planned is drawn up for the operator, and what is refused is refused for its fault or
    for numbers that do not fit. -/
abbrev Draws (op : Operation) (P : Plan → Prop) (x : Planning Plan) : Prop :=
  Except.Ends op.Rejects (op.Drawn P) x

theorem Draws.of_unfused {x : Planning Plan} (h : op.Draws (op.Unfused R) x) :
    op.Draws (op.Reshapes R) x :=
  h.mono fun _ hplan => hplan.of_unfused

/-- The tensors of an operator are counted first. -/
theorem draws_arity {f : Unit → Planning Plan}
    (h : arity.allows op.inputs.length = true → op.outputs.length = n → op.Draws P (f ())) :
    op.Draws P (op.checkArity arity (.exactly n) >>= f) := by
  refine checkArity_blames.andThen fun _ hcheck => ?_
  obtain ⟨hinputs, houtputs⟩ := checkArity_eq_ok_iff.mp hcheck
  exact h hinputs (allows_exactly_iff.mp houtputs)

/-! ### Layers -/

/-- A layer that is no reshape. -/
theorem layer_draws (hkind : op.Represents kind connected) (hother : kind.target? = none)
    (hown : ∀ k ∈ connected, k ∈ op.inputs) :
    op.Draws (op.Unfused R) (op.layer kind name connected) :=
  layer_blames.ends fun plan h =>
    ⟨.layer hkind h, layer_readsOwn hown plan h, layer_unfused R hother plan h⟩

/-- A layer that reads what plays a role. -/
theorem layer_draws_of_role (hkind : Simple 1 kind) (hother : kind.target? = none)
    (hin : arity.allows op.inputs.length = true) (hone : op.outputs.length = 1)
    (hrole : role < arity.least) :
    op.Draws (op.Unfused R) (op.layer kind name [op.input role]) :=
  layer_draws (hkind.represents rfl hone) hother
    (List.forall_mem_singleton.mpr (input_mem_of_allows hin hrole))

/-- A layer that reads all inputs of the operator. -/
theorem layer_draws_of_inputs (hkind : Simple n kind) (hother : kind.target? = none)
    (hin : (Arity.exactly n).allows op.inputs.length = true) (hone : op.outputs.length = 1) :
    op.Draws (op.Unfused R) (op.layer kind name op.inputs) :=
  layer_draws (hkind.represents (allows_exactly_iff.mp hin) hone) hother fun _ hk => hk

/-- A reshape of an input. -/
theorem layer_draws_of_reshape (ht : op.HasDims t info dims) (hR : R dims target)
    (hone : op.outputs.length = 1) :
    op.Draws (op.Reshapes R) (op.layer (.reshape target) name [t]) := by
  have hkind : Simple 1 (.reshape target) := simple rfl trivial rfl rfl rfl
  refine layer_blames.ends fun plan h => ⟨.layer (hkind.represents rfl hone) h, ?_, ?_⟩
  · exact layer_readsOwn (List.forall_mem_singleton.mpr ht.mem) plan h
  · exact layer_reshapes ht hR plan h

theorem single_draws (hkind : Simple 1 kind) (hother : kind.target? = none) :
    op.Draws (op.Unfused R) (op.single kind label) := by
  unfold single
  exact draws_arity fun hin hone => layer_draws_of_inputs hkind hother hin hone

/-- An activation is fused to an operator of one output. -/
theorem fused_draws {f : Unit → Planning Plan}
    (h : op.Draws (op.Unfused R) (op.checkArity arity (.exactly 1) >>= f)) :
    op.Draws (op.Reshapes R) ((op.checkArity arity (.exactly 1) >>= f) >>= op.fuse) := by
  refine h.bind fun plan hrun hplan => fuse_blames.ends fun plan' hfuse => ?_
  exact hplan.of_unfused.fuse (length_outputs_of_checked hrun) hfuse

/-! ### Elementwise operators -/

theorem planPrelu_draws : op.Draws (op.Unfused R) op.planPrelu := by
  unfold planPrelu
  exact draws_arity fun hin hone =>
    layer_draws_of_inputs (simple rfl trivial rfl rfl rfl) rfl hin hone

theorem planResponseNormalization_draws :
    op.Draws (op.Unfused R) op.planResponseNormalization := by
  unfold planResponseNormalization
  exact .check rfl fun _ => single_draws (simple rfl trivial rfl rfl rfl) rfl

/-- An operand of fewer dimensions gets ones in front. -/
theorem raiseOperand_draws {rank slot : Nat} (h : op.Drawn (op.Unfused SameCount) plan)
    (ht : t ∈ op.inputs) : op.Draws (op.Unfused SameCount) (op.raiseOperand rank plan slot t) := by
  unfold raiseOperand
  refine info_blames.andThen fun info hinfo => ?_
  split
  · exact .ok h
  · refine dims_blames.andThen fun dims hdims => .ok ?_
    obtain ⟨info', hinfo', hshape⟩ := dims_eq_ok hdims
    obtain rfl := Except.ok.inj (hinfo.symm.trans hinfo')
    exact h.reshapeInput ⟨ht, hinfo, hshape⟩ sameCount_replicate_append

theorem planBinary_draws (hkind : Simple 2 kind) (hother : kind.target? = none) :
    op.Draws (op.Unfused SameCount) (op.planBinary kind label) := by
  unfold planBinary
  refine draws_arity fun hin hone => ?_
  refine Blames.andThen (refuses_mapM (fun _ => info_blames) op.inputs) fun operands _ => ?_
  have hlayer : op.Draws (op.Unfused SameCount) (op.layer kind (op.layerName label) op.inputs) :=
    layer_draws_of_inputs hkind hother hin hone
  refine hlayer.bind fun plan _ hplan => ?_
  refine Except.Ends.foldlM (P := fun _ plan => op.Drawn (op.Unfused SameCount) plan) ?_ hplan
  rintro done ⟨t, slot⟩ after plan hsplit hplan
  have hmem : (t, slot) ∈ op.inputs.zipIdx := by
    rw [hsplit]
    exact List.mem_append_right done List.mem_cons_self
  exact raiseOperand_draws hplan (List.fst_mem_of_mem_zipIdx hmem)

/-! ### Image operators -/

theorem planPooling_draws {algorithm : PoolingAlgorithm} :
    op.Draws (op.Unfused R) (op.planPooling algorithm label) := by
  unfold planPooling
  refine draws_arity fun hin hone => dims4_blames.andThen fun image _ => ?_
  refine marginsOf_blames.andThen fun margins _ => ?_
  exact layer_draws_of_inputs (simple rfl trivial rfl rfl rfl) rfl hin hone

theorem planConvolution_draws : op.Draws (op.Unfused R) op.planConvolution := by
  unfold planConvolution
  refine draws_arity fun hin hone => dims4_blames.andThen fun image _ => ?_
  refine dims4_blames.andThen fun kernel _ => convolutionParams_blames.andThen fun params _ => ?_
  refine constant_blames.andThen fun weights hweights => ?_
  refine optionalConstant_blames.andThen fun biases hbiases => ?_
  have hstorable : (LayerKind.convolution params weights biases).Storable :=
    storable_of_weights rfl trivial (constant_consistent hweights)
      (optionalConstant_consistent hbiases)
  exact layer_draws_of_role ⟨hstorable, rfl, rfl, rfl⟩ rfl hin hone (by decide)

/-- The weights have one scale, which agrees with the shape that they are given. -/
theorem planDepthwiseConvolution_draws :
    op.Draws (op.Unfused R) op.planDepthwiseConvolution := by
  unfold planDepthwiseConvolution
  refine draws_arity fun hin hone => dims4_blames.andThen fun image _ => ?_
  refine dims4_blames.andThen fun kernel _ => constant_blames.andThen fun stored _ => ?_
  refine .check rfl fun hperTensor => ?_
  split
  · next weights hmoved =>
    refine (refuses_ok weights).andThen fun moved hpure => ?_
    refine convolutionParams_blames.andThen fun params _ => ?_
    refine optionalConstant_blames.andThen fun biases hbiases => ?_
    cases hpure
    obtain ⟨h, w, c, -, hinfo, -⟩ := Constant.depthwiseToMihw_eq_ok hmoved
    have hweights : weights.info.Consistent := by
      apply TensorInfo.consistent_of_axis_eq_none
      rw [hinfo]
      simpa [TensorInfo.isPerAxis, TensorInfo.withShape] using hperTensor
    have hstorable : (LayerKind.depthwiseConvolution params weights biases).Storable :=
      storable_of_weights rfl trivial hweights (optionalConstant_consistent hbiases)
    exact layer_draws_of_role ⟨hstorable, rfl, rfl, rfl⟩ rfl hin hone (by decide)
  · exact .error rfl

theorem planTransposeConvolution_draws :
    op.Draws (op.Unfused R) op.planTransposeConvolution := by
  unfold planTransposeConvolution
  refine draws_arity fun hin hone => sizes_blames.andThen fun outputShape _ => ?_
  refine dims4_blames.andThen fun image _ => dims4_blames.andThen fun kernel _ => ?_
  refine marginsOf_blames.andThen fun margins _ => ?_
  refine optionalConstant_blames.andThen fun biases hbiases => ?_
  refine constant_blames.andThen fun weights hweights => ?_
  refine layer_draws_of_role ⟨?_, rfl, rfl, rfl⟩ rfl hin hone (by decide)
  exact storable_of_weights rfl trivial (constant_consistent hweights)
    (optionalConstant_consistent hbiases)

theorem planResize_draws {method : ResizeMethod} :
    op.Draws (op.Unfused R) (op.planResize method label) := by
  unfold planResize
  refine draws_arity fun hin hone => sizes_blames.andThen fun size _ => ?_
  split
  · exact layer_draws_of_role (simple rfl trivial rfl rfl rfl) rfl hin hone (by decide)
  · exact .error rfl

theorem planBlockDepth_draws {kind : BlockDepthParams → LayerKind}
    (hkind : ∀ params, Simple 1 (kind params)) (hother : ∀ params, (kind params).target? = none) :
    op.Draws (op.Unfused R) (op.planBlockDepth kind label) := by
  unfold planBlockDepth
  exact .check rfl fun _ => single_draws (hkind _) (hother _)

theorem planBlockBatch_draws {kind : BlockBatchParams → LayerKind}
    (hkind : ∀ params, Simple 1 (kind params)) (hother : ∀ params, (kind params).target? = none) :
    op.Draws (op.Unfused R) (op.planBlockBatch kind label) := by
  unfold planBlockBatch
  refine draws_arity fun hin hone => sizes_blames.andThen fun blockShape _ => ?_
  refine pairs_blames.andThen fun borders _ => ?_
  exact layer_draws_of_role (hkind _) (hother _) hin hone (by decide)

/-! ### Reductions and weighted sums -/

theorem planArgMinMax_draws {function : ArgMinMaxFunction} :
    op.Draws (op.Unfused R) (op.planArgMinMax function label) := by
  unfold planArgMinMax
  refine draws_arity fun hin hone => scalar_blames.andThen fun axis _ => .check rfl fun _ => ?_
  refine info_blames.andThen fun info _ => .check rfl fun _ => ?_
  exact layer_draws_of_role (simple rfl trivial rfl rfl rfl) rfl hin hone (by decide)

theorem planMean_draws : op.Draws (op.Unfused R) op.planMean := by
  unfold planMean
  refine draws_arity fun hin hone => axes_blames.andThen fun axes _ => ?_
  exact layer_draws_of_role (simple rfl trivial rfl rfl rfl) rfl hin hone (by decide)

theorem planReduce_draws {operation : ReduceOperation} :
    op.Draws (op.Unfused R) (op.planReduce operation) := by
  unfold planReduce
  refine draws_arity fun hin hone => axes_blames.andThen fun axes _ => ?_
  exact layer_draws_of_role (simple rfl trivial rfl rfl rfl) rfl hin hone (by decide)

/-- Data of more than two dimensions is brought into rows. -/
theorem planFullyConnected_draws : op.Draws (op.Unfused SomeRows) op.planFullyConnected := by
  unfold planFullyConnected
  refine draws_arity fun hin hone => constant_blames.andThen fun weights hweights => ?_
  split
  · next height rowSize _ =>
    refine optionalConstant_blames.andThen fun biases hbiases => ?_
    have hkind (params : FullyConnectedParams) :
        Simple 1 (.fullyConnected params weights biases) :=
      ⟨storable_of_weights rfl trivial (constant_consistent hweights)
        (optionalConstant_consistent hbiases), rfl, rfl, rfl⟩
    refine (layer_draws_of_role (R := SomeRows) (hkind _) rfl hin hone (by decide)).bind
      fun plan _ hplan => ?_
    refine info_blames.andThen fun info hinfo => ?_
    split
    · exact .ok hplan
    · refine elementCount_blames.andThen fun elements helements => ?_
      refine .check rfl fun hrows => .ok ?_
      rw [not_or, not_not] at hrows
      obtain ⟨info', dims, hinfo', hshape, hcount⟩ := elementCount_eq_ok helements
      obtain rfl := Except.ok.inj (hinfo.symm.trans hinfo')
      have hmem : op.input 0 ∈ op.inputs := input_mem_of_allows hin (by decide)
      have hpos : 0 < rowSize.toNat := by
        refine Nat.pos_of_ne_zero fun hzero => hrows.1 ?_
        rwa [← UInt32.toNat_inj]
      refine hplan.reshapeInput ⟨hmem, hinfo, hshape⟩ ⟨_, _, hpos, ?_, rfl⟩
      -- The rows hold all elements, since the size of a row divides their number.
      rw [hcount, Nat.div_mul_cancel (Nat.dvd_of_mod_eq_zero hrows.2)]
  · exact .error rfl

/-! ### Reshapes and permutations -/

theorem planReshape_draws : op.Draws (op.Reshapes SameCount) op.planReshape := by
  unfold planReshape
  refine draws_arity fun hin hone => requestedShape_blames.andThen fun requested _ => ?_
  refine elementCount_blames.andThen fun elements helements => ?_
  have hmem : op.input 0 ∈ op.inputs := input_mem_of_allows hin (by decide)
  obtain ⟨info, dims, hinfo, hshape, hcount⟩ := elementCount_eq_ok helements
  split
  · next found hfound =>
    refine (refuses_ok found).andThen fun target htarget => ?_
    cases htarget
    refine layer_draws_of_reshape ⟨hmem, hinfo, hshape⟩ ?_ hone
    rw [SameCount, hcount]
    exact (fills_of_reshapeTarget hfound).2.count_eq
  · exact .error rfl

theorem planExpandDims_draws : op.Draws (op.Reshapes SameCount) op.planExpandDims := by
  unfold planExpandDims
  refine draws_arity fun hin hone => dims_blames.andThen fun target _ => ?_
  refine elementCount_blames.andThen fun elements helements => ?_
  have hmem : op.input 0 ∈ op.inputs := input_mem_of_allows hin (by decide)
  obtain ⟨info, dims, hinfo, hshape, hcount⟩ := elementCount_eq_ok helements
  split
  · next count hexpanded =>
    refine (refuses_ok count).andThen fun expanded hpure => .check rfl fun hsame => ?_
    cases hpure
    refine layer_draws_of_reshape ⟨hmem, hinfo, hshape⟩ ?_ hone
    rw [SameCount, hcount, ← Shape.elementCount_ofDims hexpanded]
    exact (not_not.mp hsame).symm
  · exact .error rfl

theorem planSqueeze_draws : op.Draws (op.Reshapes SameCount) op.planSqueeze := by
  unfold planSqueeze
  refine draws_arity fun hin hone => dims_blames.andThen fun dims hdims => ?_
  refine axesOf_blames.andThen fun axes _ => ?_
  have hmem : op.input 0 ∈ op.inputs := input_mem_of_allows hin (by decide)
  have hinputs : op.inputs = [op.input 0] := by
    obtain ⟨t, ht⟩ := List.length_eq_one_iff.mp (allows_exactly_iff.mp hin)
    simp [input, ht]
  obtain ⟨info, hinfo, hshape⟩ := dims_eq_ok hdims
  split
  · exact .error rfl
  · next hfind =>
    rw [hinputs]
    refine layer_draws_of_reshape ⟨hmem, hinfo, hshape⟩ (sameCount_squeezedDims ?_) hone
    intro axis haxis
    have hnone : axes.find? (fun a => dims[a]? != some 1) = none :=
      Option.eq_none_iff_forall_not_mem.mpr hfind
    simpa using List.find?_eq_none.mp hnone axis haxis

theorem planTranspose_draws : op.Draws (op.Unfused R) op.planTranspose := by
  unfold planTranspose
  refine draws_arity fun hin hone => ?_
  -- Where the mappings come from makes no difference.
  split
  · refine sizes_blames.andThen fun mappings _ => ?_
    dsimp only
    split
    · refine (refuses_ok _).andThen fun mappings _ => ?_
      exact layer_draws_of_role (simple rfl trivial rfl rfl rfl) rfl hin hone (by decide)
    · exact .error rfl
  · refine dims_blames.andThen fun dims _ => (refuses_ok _).andThen fun mappings _ => ?_
    dsimp only
    split
    · refine (refuses_ok _).andThen fun mappings _ => ?_
      exact layer_draws_of_role (simple rfl trivial rfl rfl rfl) rfl hin hone (by decide)
    · exact .error rfl

/-! ### Joins and parts -/

theorem planConcatenation_draws (hcode : op.operator.code = .concatenation) :
    op.Draws (op.Unfused R) op.planConcatenation := by
  unfold planConcatenation
  refine draws_arity fun _ hone => dims_blames.andThen fun dims _ => ?_
  refine axis_blames.andThen fun axis _ => ?_
  have hrefuses : (op.inputs.foldlM (op.joinInto dims.length axis) {}).Refuses op.Rejects :=
    refuses_foldlM (fun row _ => joinInto_refuses hcode row) _ _
  refine hrefuses.andThen fun row hrow => ?_
  obtain ⟨sizes, hsizes, -, rfl⟩ := foldlM_joinInto_eq_ok_iff.mp hrow
  have horigins : (originsOf dims.length axis sizes).length = op.inputs.length := by
    rw [length_originsOf, length_of_mapM hsizes]
  refine layer_draws ?_ rfl fun _ hk => hk
  exact represents (storable_of_no_constants rfl trivial) rfl horigins hone.symm

theorem planPack_draws (hcode : op.operator.code = .pack) :
    op.Draws (op.Unfused R) op.planPack := by
  unfold planPack
  refine draws_arity fun _ hone => dims_blames.andThen fun dims _ => ?_
  split
  · exact .error rfl
  · refine axis_blames.andThen fun axis _ => ?_
    refine layer_draws ⟨storable_of_no_constants rfl trivial, rfl, ?_, hone.ge, ?_⟩ rfl
      fun _ hk => hk
    · exact UInt32.toNat_ofNat'.trans_le (Nat.mod_le _ _)
    · exact fun h => ⟨UInt32.toNat_ofNat_of_lt' (h.packed hcode), hone.symm⟩

/-- The parts make up a row, unless they are of given sizes that do not fit. -/
theorem planParts_draws {axis : Nat} {sizes : List UInt32}
    (hsizes : sizes.length = op.outputs.length)
    (hfits : op.operator.code = .splitV ∨ (sizes.map UInt32.toNat).sum < 2 ^ 32)
    (ht : t ∈ op.inputs) : op.Draws (op.Unfused R) (op.planParts t dims axis sizes label) := by
  unfold planParts
  have hlong : ∀ e, sizes.foldlM (Row.add dims.length axis) {} = .error e → op.MayOverflow e := by
    intro e he
    obtain ⟨hlong, rfl⟩ := foldlM_add_eq_error_iff.mp he
    exact .parts (hfits.resolve_right (Nat.not_lt.mpr hlong))
  refine (mapError_refuses hlong).andThen fun row hrow => ?_
  obtain ⟨-, rfl⟩ := foldlM_add_eq_ok_iff.mp (Except.mapError_eq_ok_iff.mp hrow)
  have horigins := length_originsOf dims.length axis sizes
  have heven : (sizes.map (dims.set axis)).length = (originsOf dims.length axis sizes).length := by
    rw [List.length_map, horigins]
  refine layer_draws ?_ rfl (List.forall_mem_singleton.mpr ht)
  exact represents (storable_of_no_constants rfl heven) rfl rfl (horigins.trans hsizes)

/-- Equal parts are together no larger than the dimension. -/
theorem sum_replicate_div_lt (count size : UInt32) :
    ((List.replicate count.toNat (size / count)).map UInt32.toNat).sum < 2 ^ 32 := by
  rw [List.map_replicate, List.sum_replicate_nat, UInt32.toNat_div]
  exact Nat.lt_of_le_of_lt (Nat.mul_div_le _ _) (UInt32.toNat_lt size)

theorem planSplit_draws : op.Draws (op.Unfused R) op.planSplit := by
  unfold planSplit
  refine draws_arity fun hin hcount => .check rfl fun _ => dims_blames.andThen fun dims _ => ?_
  refine scalar_blames.andThen fun value _ => axis_blames.andThen fun axis _ => ?_
  refine .check rfl fun _ => ?_
  refine planParts_draws ?_ (.inr (sum_replicate_div_lt _ _)) (input_mem_of_allows hin (by decide))
  rw [List.length_replicate, hcount]

theorem closeSizes_eq_error {total : UInt32} {requested : List Int} {e : Overflow}
    (h : closeSizes total requested = .error e) : e = .add := by
  unfold closeSizes at h
  split at h
  · rcases Except.bind_eq_error_iff.mp h with hsum | ⟨_, -, hpure⟩
    · exact (sumInt64_eq_error_iff.mp hsum).2.symm
    · cases hpure
  · cases h

theorem length_closeSizes {total : UInt32} {requested sizes : List Int}
    (h : closeSizes total requested = .ok sizes) : sizes.length = requested.length := by
  unfold closeSizes at h
  split at h
  · obtain ⟨known, -, h⟩ := Except.bind_eq_ok_iff.mp h
    cases h
    exact List.length_map _
  · cases h
    rfl

theorem planSplitV_draws (hcode : op.operator.code = .splitV) :
    op.Draws (op.Unfused R) op.planSplitV := by
  unfold planSplitV
  refine draws_arity fun hin hcount => dims_blames.andThen fun dims _ => ?_
  refine scalar_blames.andThen fun value _ => axis_blames.andThen fun axis _ => ?_
  refine ints_blames.andThen fun requested _ => ?_
  refine .check rfl fun hrequested => .check rfl fun _ => ?_
  have hclose : ∀ e, closeSizes (dims.getD axis 0) requested = .error e → op.MayOverflow e :=
    fun e he => closeSizes_eq_error he ▸ .parts hcode
  refine (mapError_refuses hclose).andThen fun closed hclosed => ?_
  have hsum : ∀ e, sumInt64 closed = .error e → op.MayOverflow e :=
    fun e he => (sumInt64_eq_error_iff.mp he).2 ▸ .parts hcode
  refine (mapError_refuses hsum).andThen fun sum _ => .check rfl fun _ => ?_
  refine sizesOf_blames.andThen fun sizes hsizes => ?_
  refine planParts_draws ?_ (.inl hcode) (input_mem_of_allows hin (by decide))
  rw [length_of_mapM hsizes, length_closeSizes (Except.mapError_eq_ok_iff.mp hclosed),
    not_not.mp hrequested, hcount]

theorem planSlice_draws : op.Draws (op.Unfused R) op.planSlice := by
  unfold planSlice
  refine draws_arity fun hin hone => dims_blames.andThen fun dims _ => ?_
  refine sizes_blames.andThen fun start _ => ints_blames.andThen fun requested _ => ?_
  refine .check rfl fun _ => ?_
  refine Blames.andThen (refuses_mapM (fun _ => boxSize_blames) _) fun size _ => ?_
  exact layer_draws_of_role (simple rfl trivial rfl rfl rfl) rfl hin hone (by decide)

theorem planStridedSlice_draws : op.Draws (op.Unfused R) op.planStridedSlice := by
  unfold planStridedSlice
  refine draws_arity fun hin hone => signed_blames.andThen fun start _ => ?_
  refine signed_blames.andThen fun stop _ => signed_blames.andThen fun stride _ => ?_
  exact layer_draws_of_role (simple rfl trivial rfl rfl rfl) rfl hin hone (by decide)

theorem planGather_draws : op.Draws (op.Unfused R) op.planGather := by
  unfold planGather
  exact draws_arity fun hin hone =>
    layer_draws_of_inputs (simple rfl trivial rfl rfl rfl) rfl hin hone

theorem planPad_draws {mode : PaddingMode} {given : Bool}
    (hcode : given = true → op.operator.code = .padV2) :
    op.Draws (op.Unfused R) (op.planPad label mode given) := by
  unfold planPad
  refine draws_arity fun hin hone => info_blames.andThen fun info _ => ?_
  refine pairs_blames.andThen fun pads _ => .check rfl fun _ => ?_
  refine (padValue_refuses hcode).andThen fun value _ => ?_
  refine layer_draws_of_role (simple rfl trivial rfl rfl rfl) rfl hin hone ?_
  cases given <;> decide

/-! ### All operators -/

theorem planStandIn_draws (hcode : op.operator.code = .other name) :
    op.Draws (op.Unfused R) (op.planStandIn name) := by
  unfold planStandIn
  refine layer_draws ⟨storable_of_no_constants rfl trivial, rfl, ?_, ?_, ?_⟩ rfl fun _ hk => hk
  · exact UInt32.toNat_ofNat'.trans_le (Nat.mod_le _ _)
  · exact UInt32.toNat_ofNat'.trans_le (Nat.mod_le _ _)
  · intro h
    obtain ⟨hinputs, houtputs⟩ := h.unknown name hcode
    exact ⟨UInt32.toNat_ofNat_of_lt' hinputs, UInt32.toNat_ofNat_of_lt' houtputs⟩

/-- Every operator is planned as it should be, or refused for its own fault or for numbers that do
    not fit. -/
theorem plan_draws {standIn : Bool} :
    op.Draws (op.Reshapes (Reshaped op.operator.code)) (op.plan standIn) := by
  unfold plan
  cases hcode : op.operator.code with
  | abs | exp | neg | rsqrt | logicalNot | elu | hardSwish | leakyRelu | logistic | relu | relu6
  | tanh | softmax | logSoftmax | cast | dequantize | quantize =>
    exact .of_unfused (single_draws (simple rfl trivial rfl rfl rfl) rfl)
  | add | sub | mul | div =>
    exact fused_draws (planBinary_draws (simple rfl trivial rfl rfl rfl) rfl)
  | maximum | minimum | equal | notEqual | greater | greaterEqual | less | lessEqual =>
    exact .of_unfused (planBinary_draws (simple rfl trivial rfl rfl rfl) rfl)
  | argMax | argMin => exact planArgMinMax_draws.of_unfused
  | averagePool2d | maxPool2d => exact fused_draws planPooling_draws
  | conv2d => exact fused_draws planConvolution_draws
  | depthwiseConv2d => exact fused_draws planDepthwiseConvolution_draws
  | transposeConv => exact planTransposeConvolution_draws.of_unfused
  | fullyConnected => exact fused_draws planFullyConnected_draws
  | concatenation => exact fused_draws (planConcatenation_draws hcode)
  | l2Normalization => exact fused_draws (single_draws (simple rfl trivial rfl rfl rfl) rfl)
  | depthToSpace | spaceToDepth =>
    exact .of_unfused (planBlockDepth_draws (fun _ => simple rfl trivial rfl rfl rfl) fun _ => rfl)
  | batchToSpaceNd | spaceToBatchNd =>
    exact .of_unfused (planBlockBatch_draws (fun _ => simple rfl trivial rfl rfl rfl) fun _ => rfl)
  | localResponseNormalization => exact planResponseNormalization_draws.of_unfused
  | mean => exact planMean_draws.of_unfused
  | reduceMax | reduceMin | reduceProd | sum => exact planReduce_draws.of_unfused
  | pad => exact .of_unfused (planPad_draws nofun)
  | padV2 => exact .of_unfused (planPad_draws fun _ => hcode)
  | mirrorPad =>
    dsimp only
    split <;> exact .of_unfused (planPad_draws nofun)
  | pack => exact .of_unfused (planPack_draws hcode)
  | gather => exact planGather_draws.of_unfused
  | prelu => exact planPrelu_draws.of_unfused
  | reshape => exact planReshape_draws
  | expandDims => exact planExpandDims_draws
  | squeeze => exact planSqueeze_draws
  | resizeBilinear | resizeNearestNeighbor => exact planResize_draws.of_unfused
  | slice => exact planSlice_draws.of_unfused
  | stridedSlice => exact planStridedSlice_draws.of_unfused
  | split => exact planSplit_draws.of_unfused
  | splitV => exact .of_unfused (planSplitV_draws hcode)
  | transpose => exact planTranspose_draws.of_unfused
  | other name =>
    dsimp only
    split
    · exact .of_unfused (planStandIn_draws hcode)
    · exact .error rfl

/-- Whatever is planned for an operator comes about from one layer. -/
theorem plan_planned {standIn : Bool} : (op.plan standIn).Yields op.Planned :=
  fun _ h => (plan_draws.post_of_ok h).planned

/-- The primary layer of a plan has as many slots as the operator needs exactly when it can count
    them. -/
theorem counted_iff_countable {standIn : Bool} (h : op.plan standIn = .ok plan) :
    plan.Counted ↔ op.Countable := by
  refine ⟨fun hcounted => ?_, (plan_planned plan h).covered.counts⟩
  have hfits {n : Nat} (hn : (UInt32.ofNat n).toNat = n) : n < 2 ^ 32 := hn ▸ UInt32.toNat_lt _
  unfold Operation.plan at h
  constructor
  case packed =>
    intro hcode
    rw [hcode] at h
    dsimp only at h
    unfold planPack at h
    obtain ⟨_, -, h⟩ := Except.bind_eq_ok_iff.mp h
    obtain ⟨dims, -, h⟩ := Except.bind_eq_ok_iff.mp h
    split at h
    · cases h
    · obtain ⟨axis, -, h⟩ := Except.bind_eq_ok_iff.mp h
      obtain ⟨_, _, -, -, rfl⟩ := layer_eq_ok h
      exact hfits (hcounted.1.trans (List.length_map _))
  case unknown =>
    intro name hcode
    rw [hcode] at h
    dsimp only at h
    split at h
    · obtain ⟨_, _, -, -, rfl⟩ := layer_eq_ok h
      exact ⟨hfits (hcounted.1.trans (List.length_map _)), hfits hcounted.2⟩
    · cases h

/-- Planning refuses only the operator that is planned, or numbers that do not fit. -/
theorem plan_refuses {standIn : Bool} : (op.plan standIn).Refuses op.Rejects :=
  fun _ h => plan_draws.fails_of_error h

end Operation

open Planning

/-- Planning refuses only the operator that it is asked about, or numbers that do not fit. -/
theorem Plan.ofOperator_eq_error {model : Model} {index : Nat} {standIn : Bool} {e : LoweringError}
    (h : Plan.ofOperator model index standIn = .error e) :
    e.Blames index ∨ ∃ op operation, Operation.ofModel model index = .ok op ∧
      op.plan standIn = .error (.overflow operation) ∧ op.MayOverflow operation ∧
      e = .overflow operation := by
  unfold Plan.ofOperator at h
  rcases Except.bind_eq_error_iff.mp h with hnone | ⟨op, hop, hplan⟩
  · exact .inl (Operation.ofModel_blames _ hnone)
  · have hrejects := Operation.plan_refuses e hplan
    cases e with
    | overflow operation => exact .inr ⟨op, operation, hop, hplan, hrejects, rfl⟩
    | _ => exact .inl (Operation.index_eq_of_ofModel hop ▸ hrejects)

end LayerGraph
