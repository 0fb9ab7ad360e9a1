import LayerGraph.Proofs.Lowering.Signatures

/-! # Roles of inputs

  Main statement: in what is planned for an operator, the tensors that its operation has found play
  the roles of the operator in order, and a role behind the last of them is left out
  (`plan_inOrder`). The places that count are those among the tensors of the operation. Where the
  operator lists them is another question.
-/

namespace LayerGraph

namespace Operation

open Planning

variable {op : Operation} {plan : Plan} {kind : LayerKind} {label : String}
variable {biases : Option Constant} {n t : Nat}

/-! ### Operands alone -/

/-- A layer that reads the only tensor of the operation. -/
theorem layer_inOrder_alone (hin : (Arity.exactly 1).allows op.inputs.length = true) :
    (op.layer kind label op.inputs).Yields (op.InOrder (.fixed [.operand 0] none)) := by
  refine layer_inOrder hin fun plan hplan => ?_
  exact ⟨operand?_eq_input hplan (least_le_of_allows hin), trivial⟩

theorem single_inOrder : (op.single kind label).Yields (op.InOrder (.fixed [.operand 0] none)) := by
  unfold single
  exact yields_arity fun hin _ => layer_inOrder_alone hin

/-- Two slots that read the two tensors of the operation. -/
theorem inOrder_pair (hin : (Arity.exactly 2).allows op.inputs.length = true)
    (h : plan.Connects op.inputs) : op.InOrder (.fixed [.operand 0, .operand 1] none) plan := by
  have hlength := allows_exactly_iff.mp hin
  refine inOrder_fixed hin ⟨?_, ?_, trivial⟩ nofun
  · exact operand?_eq_input h (by omega)
  · exact operand?_eq_input h (by omega)

theorem inOrder_operands (hin : (Arity.atLeast n).allows op.inputs.length = true)
    (h : plan.Connects op.inputs) : op.InOrder (.operands n) plan := by
  refine inOrder_of_plays hin fun k role hrole => ?_
  cases hrole
  have hread := h.operand? k
  cases ht : op.inputs[k]? with
  | none => exact hread.trans ht
  | some t => exact hread.trans ht

theorem raiseOperand_connects {rank slot : Nat} (h : plan.Connects op.inputs)
    (ht : op.inputs[slot]? = some t) :
    (op.raiseOperand rank plan slot t).Yields (·.Connects op.inputs) := by
  unfold raiseOperand
  refine .bind fun info _ => ?_
  split
  · exact yields_ok h
  · exact .bind fun dims _ => yields_ok (h.reshapeInput ht)

theorem planBinary_inOrder :
    (op.planBinary kind label).Yields (op.InOrder (.fixed [.operand 0, .operand 1] none)) := by
  unfold planBinary
  refine yields_arity fun hin _ => .bind fun operands _ => .bind fun plan hplan => ?_
  intro plan' hfold
  -- Every operand may be raised, and none is put in the place of another.
  have hconnects : plan'.Connects op.inputs := by
    refine Except.foldlM_invariant (P := (·.Connects op.inputs)) ?_ (layer_connects hplan).2 hfold
    intro ⟨t, slot⟩ hmem plan plan' h hraise
    exact raiseOperand_connects h (List.mem_zipIdx_iff_getElem?.mp hmem) plan' hraise
  exact inOrder_pair hin hconnects

theorem planPrelu_inOrder :
    op.planPrelu.Yields (op.InOrder (.fixed [.operand 0, .operand 1] none)) := by
  unfold planPrelu
  exact yields_arity fun hin _ plan hplan => inOrder_pair hin (layer_connects hplan).2

theorem planGather_inOrder :
    op.planGather.Yields (op.InOrder (.fixed [.operand 0, .operand 1] none)) := by
  unfold planGather
  exact yields_arity fun hin _ plan hplan => inOrder_pair hin (layer_connects hplan).2

theorem planConcatenation_inOrder : op.planConcatenation.Yields (op.InOrder (.operands 1)) := by
  unfold planConcatenation
  refine yields_arity fun hin _ => .bind fun dims _ => .bind fun axis _ => .bind fun sizes _ => ?_
  exact fun plan hplan => inOrder_operands hin (layer_connects hplan).2

theorem planPack_inOrder : op.planPack.Yields (op.InOrder (.operands 1)) := by
  unfold planPack
  refine yields_arity fun hin _ => .bind fun dims _ => ?_
  split
  · exact yields_error
  · refine .bind fun axis _ => ?_
    exact fun plan hplan => inOrder_operands hin (layer_connects hplan).2

theorem planStandIn_inOrder {name : String} :
    (op.planStandIn name).Yields (op.InOrder (.operands 0)) := by
  intro plan hplan
  exact inOrder_operands (by simp [Arity.allows, Arity.atLeast]) (layer_connects hplan).2

theorem planResponseNormalization_inOrder :
    op.planResponseNormalization.Yields (op.InOrder (.fixed [.operand 0] none)) := by
  unfold planResponseNormalization
  exact .check fun _ => single_inOrder

theorem planBlockDepth_inOrder {kind : BlockDepthParams → LayerKind} :
    (op.planBlockDepth kind label).Yields (op.InOrder (.fixed [.operand 0] none)) := by
  unfold planBlockDepth
  exact .check fun _ => single_inOrder

theorem planPooling_inOrder {algorithm : PoolingAlgorithm} :
    (op.planPooling algorithm label).Yields (op.InOrder (.fixed [.operand 0] none)) := by
  unfold planPooling
  refine yields_arity fun hin _ => .bind fun image _ => .bind fun margins _ => ?_
  exact layer_inOrder_alone hin

theorem planSqueeze_inOrder : op.planSqueeze.Yields (op.InOrder (.fixed [.operand 0] none)) := by
  unfold planSqueeze
  refine yields_arity fun hin _ => .bind fun dims _ => .bind fun axes _ => ?_
  split
  · exact yields_error
  · exact layer_inOrder_alone hin

/-! ### Weights and biases -/

/-- Biases are read when there are as many tensors as there can be. -/
theorem isSome_of_optionalConstant (hin : (Arity.between n (n + 1)).allows op.inputs.length = true)
    (h : op.optionalConstant n = .ok biases) :
    biases.isSome = decide (op.inputs.length = n + 1) := by
  obtain ⟨hle, hlt⟩ := allows_between_iff.mp hin
  unfold optionalConstant at h
  split at h
  · next t ht =>
    rw [map_eq_pure_bind, Except.bind_eq_ok_iff] at h
    obtain ⟨c, -, h⟩ := h
    cases h
    have hn := (List.getElem?_eq_some_iff.mp ht).1
    exact (decide_eq_true (by omega)).symm
  · next hnone =>
    cases h
    rw [List.getElem?_eq_none_iff] at hnone
    exact (decide_eq_false (by omega)).symm

theorem plays_biases (h : op.optionalConstant n = .ok biases)
    (hkind : kind.biased? = some (biases.isSome, biases)) :
    op.Plays plan kind .biases op.inputs[n]? := by
  unfold optionalConstant at h
  split at h
  · next t ht =>
    rw [map_eq_pure_bind, Except.bind_eq_ok_iff] at h
    obtain ⟨c, hc, h⟩ := h
    cases h
    rw [ht]
    exact ⟨c, hc, hkind⟩
  · next hnone =>
    cases h
    rw [hnone]
    exact hkind

theorem hasBias_of_convolutionParams {image kernel : Dims4} {params : ConvolutionParams}
    (h : op.convolutionParams image kernel = .ok params) :
    params.hasBias = decide (op.inputs.length = 3) := by
  unfold convolutionParams at h
  obtain ⟨margins, -, h⟩ := Except.bind_eq_ok_iff.mp h
  cases h
  rfl

/-- A convolution says that it has biases when it reads some. -/
theorem plays_biases_of_convolutionParams {image kernel : Dims4} {params : ConvolutionParams}
    (hin : (Arity.between 2 3).allows op.inputs.length = true)
    (hparams : op.convolutionParams image kernel = .ok params)
    (hbiases : op.optionalConstant 2 = .ok biases)
    (hkind : kind.biased? = some (params.hasBias, biases)) :
    op.Plays plan kind .biases op.inputs[2]? := by
  apply plays_biases hbiases
  rw [hkind, isSome_of_optionalConstant hin hbiases, hasBias_of_convolutionParams hparams]

theorem planConvolution_inOrder :
    op.planConvolution.Yields (op.InOrder (.fixed [.operand 0, .weights] (some .biases))) := by
  unfold planConvolution
  refine yields_arity fun hin _ => .bind fun image himage => .bind fun kernel hkernel => ?_
  refine .bind fun params hparams => .bind fun weights hweights => .bind fun biases hbiases => ?_
  refine layer_inOrder_optional hin fun plan hplan => ⟨⟨?operand, ?weights, trivial⟩, ?biases⟩
  case operand => exact hplan.operand? 0
  case weights =>
    exact ⟨hweights, image, kernel, ⟨⟨_, hplan.operand? 0, himage⟩, hkernel⟩, hparams⟩
  case biases =>
    rintro role ⟨⟩
    exact plays_biases_of_convolutionParams hin hparams hbiases rfl

theorem planDepthwiseConvolution_inOrder :
    op.planDepthwiseConvolution.Yields
      (op.InOrder (.fixed [.operand 0, .weights] (some .biases))) := by
  unfold planDepthwiseConvolution
  refine yields_arity fun hin _ => .bind fun image himage => .bind fun kernel hkernel => ?_
  refine .bind fun stored hstored => .check fun _ => ?_
  split
  · next weights hweights =>
    refine .bind fun weights' hsame => .bind fun params hparams => .bind fun biases hbiases => ?_
    cases hsame
    refine layer_inOrder_optional hin fun plan hplan => ⟨⟨?operand, ?weights, trivial⟩, ?biases⟩
    case operand => exact hplan.operand? 0
    case weights =>
      exact ⟨stored, image, kernel, hstored, ⟨⟨_, hplan.operand? 0, himage⟩, hkernel⟩, hweights,
        hparams⟩
    case biases =>
      rintro role ⟨⟩
      exact plays_biases_of_convolutionParams hin hparams hbiases rfl
  · exact yields_error

/-- The shape of the result is first, and the data third. -/
theorem planTransposeConvolution_inOrder :
    op.planTransposeConvolution.Yields
      (op.InOrder (.fixed [.outputShape, .weights, .operand 0] (some .biases))) := by
  unfold planTransposeConvolution
  refine yields_arity fun hin _ => .bind fun outputShape hshape => .bind fun image himage => ?_
  refine .bind fun kernel hkernel => .bind fun margins hmargins => .bind fun biases hbiases => ?_
  refine .bind fun weights hweights => layer_inOrder_optional hin fun plan hplan => ?_
  refine ⟨⟨hshape, ?weights, hplan.operand? 0, trivial⟩, ?biases⟩
  case weights =>
    exact ⟨hweights, _, image, kernel, ⟨⟨_, hplan.operand? 0, himage⟩, hkernel⟩, hmargins⟩
  case biases =>
    rintro role ⟨⟩
    exact plays_biases hbiases rfl

theorem planFullyConnected_inOrder :
    op.planFullyConnected.Yields (op.InOrder (.fixed [.operand 0, .weights] (some .biases))) := by
  unfold planFullyConnected
  refine yields_arity fun hin _ => .bind fun weights hweights => ?_
  split
  · refine .bind fun biases hbiases => .bind fun plan hplan => .bind fun info _ => ?_
    obtain ⟨hkind, hconnects⟩ := layer_connects hplan
    -- Rows are made of the data alone, so the weights are the same with them and without.
    have hfinal (plan : Plan)
        (hkind : plan.primary.kind = .fullyConnected ⟨op.inputs.length = 3, true⟩ weights biases)
        (hconnects : plan.Connects [op.input 0]) :
        op.InOrder (.fixed [.operand 0, .weights] (some .biases)) plan := by
      refine inOrder_fixed hin ?_ ?_
      · rw [hkind]
        exact ⟨hconnects.operand? 0, hweights, trivial⟩
      · rintro role ⟨⟩
        rw [hkind]
        apply plays_biases hbiases
        rw [isSome_of_optionalConstant hin hbiases]
        rfl
    split
    · exact yields_ok (hfinal plan hkind hconnects)
    · refine .bind fun elements _ => .check fun _ => yields_ok ?_
      exact hfinal _ hkind (hconnects.reshapeInput rfl)
  · exact yields_error

/-! ### Parameters from constants -/

theorem planArgMinMax_inOrder {function : ArgMinMaxFunction} :
    (op.planArgMinMax function label).Yields (op.InOrder (.fixed [.operand 0, .axis] none)) := by
  unfold planArgMinMax
  refine yields_arity fun hin _ => .bind fun axis haxis => .check fun hrange => ?_
  refine .bind fun info _ => .check fun _ => layer_inOrder hin fun plan hplan => ?_
  have hexact : (Int32.ofInt axis).toInt = axis := by
    obtain ⟨hge, hlt⟩ := not_or.mp hrange
    exact Int32.toInt_ofInt_of_le (by omega) (by omega)
  refine ⟨hplan.operand? 0, ?_, trivial⟩
  show op.scalar (op.input 1) = .ok (Int32.ofInt axis).toInt
  rw [hexact]
  exact haxis

theorem planMean_inOrder : op.planMean.Yields (op.InOrder (.fixed [.operand 0, .axes] none)) := by
  unfold planMean
  refine yields_arity fun hin _ => .bind fun axes haxes => layer_inOrder hin fun plan hplan => ?_
  exact ⟨hplan.operand? 0, ⟨_, hplan.operand? 0, haxes⟩, trivial⟩

theorem planReduce_inOrder {operation : ReduceOperation} :
    (op.planReduce operation).Yields (op.InOrder (.fixed [.operand 0, .axes] none)) := by
  unfold planReduce
  refine yields_arity fun hin _ => .bind fun axes haxes => layer_inOrder hin fun plan hplan => ?_
  exact ⟨hplan.operand? 0, ⟨_, hplan.operand? 0, haxes⟩, trivial⟩

theorem planResize_inOrder {method : ResizeMethod} :
    (op.planResize method label).Yields (op.InOrder (.fixed [.operand 0, .imageSize] none)) := by
  unfold planResize
  refine yields_arity fun hin _ => .bind fun size hsize => ?_
  split
  · exact layer_inOrder hin fun plan hplan => ⟨hplan.operand? 0, hsize, trivial⟩
  · exact yields_error

theorem planBlockBatch_inOrder {kind : BlockBatchParams → LayerKind}
    (hkind : kind = .batchToSpace ∨ kind = .spaceToBatch) :
    (op.planBlockBatch kind label).Yields
      (op.InOrder (.fixed [.operand 0, .blockShape, .borders] none)) := by
  unfold planBlockBatch
  refine yields_arity fun hin _ => .bind fun shape hshape => .bind fun borders hborders => ?_
  refine layer_inOrder hin fun plan hplan => ?_
  obtain rfl | rfl := hkind
  · exact ⟨hplan.operand? 0, hshape, hborders, trivial⟩
  · exact ⟨hplan.operand? 0, hshape, hborders, trivial⟩

theorem planPad_inOrder {mode : PaddingMode} :
    (op.planPad label mode false).Yields (op.InOrder (.fixed [.operand 0, .paddings] none)) := by
  unfold planPad
  refine yields_arity fun hin _ => .bind fun info _ => .bind fun pads hpads => .check fun _ => ?_
  refine .bind fun value _ => layer_inOrder hin fun plan hplan => ?_
  exact ⟨hplan.operand? 0, hpads, trivial⟩

theorem planPad_inOrder_of_given {mode : PaddingMode} :
    (op.planPad label mode true).Yields
      (op.InOrder (.fixed [.operand 0, .paddings, .padValue] none)) := by
  unfold planPad
  refine yields_arity fun hin _ => .bind fun info _ => .bind fun pads hpads => .check fun _ => ?_
  refine .bind fun value hvalue => layer_inOrder hin fun plan hplan => ?_
  refine ⟨hplan.operand? 0, hpads, ?_, trivial⟩
  obtain ⟨c, hc, hvalue⟩ := Except.bind_eq_ok_iff.mp hvalue
  obtain ⟨found, hfound, hvalue⟩ := Except.bind_eq_ok_iff.mp hvalue
  rw [Except.mapError_eq_ok_iff] at hfound
  split at hvalue
  · cases hvalue
    exact ⟨c, hc, hfound⟩
  · cases hvalue

theorem planSlice_inOrder :
    op.planSlice.Yields (op.InOrder (.fixed [.operand 0, .start, .boxSize] none)) := by
  unfold planSlice
  refine yields_arity fun hin _ => .bind fun dims hdims => .bind fun start hstart => ?_
  refine .bind fun requested hrequested => .check fun _ => .bind fun size hsize => ?_
  refine layer_inOrder hin fun plan hplan => ⟨hplan.operand? 0, hstart, ?_, trivial⟩
  exact ⟨requested, dims, hrequested, ⟨_, hplan.operand? 0, hdims⟩, hsize⟩

theorem planStridedSlice_inOrder :
    op.planStridedSlice.Yields
      (op.InOrder (.fixed [.operand 0, .start, .stop, .stride] none)) := by
  unfold planStridedSlice
  refine yields_arity fun hin _ => .bind fun start hstart => .bind fun stop hstop => ?_
  refine .bind fun stride hstride => layer_inOrder hin fun plan hplan => ?_
  exact ⟨hplan.operand? 0, hstart, hstop, hstride, trivial⟩

/-! ### Reshapes and permutations -/

/-- Without a shape in the options, it is asked of the second tensor and then of the output. -/
theorem requestedShape_eq (h : op.options.newShape.getD [] = []) :
    op.requestedShape =
      if op.inputs.length = 2 ∧ (op.tensor (op.input 1)).isConstant then op.ints (op.input 1)
      else do return (← op.dims (op.output 0)).map fun d => (d.toNat : Int) := by
  unfold requestedShape
  split
  · next d rest hshape =>
    rw [hshape] at h
    cases h
  · rfl

theorem planReshape_inOrder :
    op.planReshape.Yields (op.InOrder (.fixed [.operand 0] (some .targetShape))) := by
  unfold planReshape
  refine yields_arity fun hin _ => .bind fun requested hrequested => ?_
  refine .bind fun elements helements => ?_
  split
  · next target htarget =>
    refine .bind fun target' hsame => ?_
    cases hsame
    refine layer_inOrder_optional hin fun plan hplan => ⟨⟨hplan.operand? 0, trivial⟩, ?_⟩
    have htargets : op.Targets plan requested target :=
      ⟨_, elements, hplan.operand? 0, helements, htarget⟩
    rintro role ⟨⟩
    show op.Plays plan _ .targetShape op.inputs[1]?
    -- A second input gives the shape when it is a constant and the options give none.
    cases ht : op.inputs[1]? with
    | none =>
      intro hoptions
      have hlength : op.inputs.length ≠ 2 := by
        rw [List.getElem?_eq_none_iff] at ht
        omega
      rw [requestedShape_eq hoptions, if_neg fun h => hlength h.1] at hrequested
      obtain ⟨dims, hdims, hrequested⟩ := Except.bind_eq_ok_iff.mp hrequested
      cases hrequested
      exact ⟨dims, hdims, htargets⟩
    | some t =>
      intro hoptions hconstant
      have hlength : op.inputs.length = 2 := by
        have hlt := (List.getElem?_eq_some_iff.mp ht).1
        have hmost := (allows_between_iff.mp hin).2
        omega
      obtain rfl : op.input 1 = t := by
        rw [getElem?_inputs (by omega)] at ht
        exact Option.some.inj ht
      rw [requestedShape_eq hoptions, if_pos ⟨hlength, hconstant⟩] at hrequested
      exact ⟨requested, hrequested, htargets⟩
  · exact yields_error

/-- The axis of the new dimension is in the shape of the output. -/
theorem planExpandDims_inOrder :
    op.planExpandDims.Yields (op.InOrder (.fixed [.operand 0, .newAxis] none)) := by
  unfold planExpandDims
  refine yields_arity fun hin _ => .bind fun target htarget => .bind fun elements _ => ?_
  split
  · refine .bind fun expanded _ => .check fun _ => layer_inOrder hin fun plan hplan => ?_
    exact ⟨hplan.operand? 0, htarget, trivial⟩
  · exact yields_error

theorem planTranspose_inOrder :
    op.planTranspose.Yields (op.InOrder (.fixed [.operand 0] (some .permutation))) := by
  unfold planTranspose
  refine yields_arity fun hin _ => ?_
  -- A second input is the permutation; without one the dimensions are reversed.
  split
  · next permutation hgiven =>
    refine .bind fun mappings hsizes => ?_
    dsimp only
    split
    · next p hp =>
      refine .bind fun p' hsame => ?_
      cases hsame
      refine layer_inOrder_optional hin fun plan hplan => ⟨⟨hplan.operand? 0, trivial⟩, ?_⟩
      rintro role ⟨⟩
      show op.Plays plan _ .permutation op.inputs[1]?
      rw [hgiven]
      show op.sizes permutation = .ok p.mappings
      rw [Permutation.mappings_of_ofMappings hp]
      exact hsizes
    · exact yields_error
  · next habsent =>
    refine .bind fun dims hdims => .bind fun mappings hmappings => ?_
    cases hmappings
    dsimp only
    split
    · next p hp =>
      refine .bind fun p' hsame => ?_
      cases hsame
      refine layer_inOrder_optional hin fun plan hplan => ⟨⟨hplan.operand? 0, trivial⟩, ?_⟩
      rintro role ⟨⟩
      show op.Plays plan _ .permutation op.inputs[1]?
      rw [habsent]
      exact ⟨dims, ⟨_, hplan.operand? 0, hdims⟩, Permutation.mappings_of_ofMappings hp⟩
    · exact yields_error

/-! ### Parts -/

/-- The axis is first, and the data second. -/
theorem planSplit_inOrder :
    op.planSplit.Yields (op.InOrder (.fixed [.axis, .operand 0] none)) := by
  intro plan h
  obtain ⟨dims, value, axis, hin, -, hdims, hvalue, haxis, -, hparts⟩ := planSplit_eq_ok h
  refine layer_inOrder ?_ ?_ plan (planParts_eq_ok_iff.mp hparts).2
  · exact allows_exactly_iff.mpr hin
  · intro plan hplan
    have hdata : op.ReadsDims plan dims := ⟨_, hplan.operand? 0, hdims⟩
    refine ⟨?axis, hplan.operand? 0, trivial⟩
    exact ⟨value, dims, axis, _, hvalue, hdata, haxis, rfl⟩

theorem planSplitV_inOrder :
    op.planSplitV.Yields (op.InOrder (.fixed [.operand 0, .partSizes, .axis] none)) := by
  intro plan h
  obtain ⟨dims, value, axis, requested, closed, sizes, hin, -, hdims, hvalue, haxis, hrequested, -,
    -, hclosed, -, hsizes, hparts⟩ := planSplitV_eq_ok_iff.mp h
  refine layer_inOrder ?_ ?_ plan (planParts_eq_ok_iff.mp hparts).2
  · exact allows_exactly_iff.mpr hin
  · intro plan hplan
    have hdata : op.ReadsDims plan dims := ⟨_, hplan.operand? 0, hdims⟩
    refine ⟨hplan.operand? 0, ?sizes, ?axis, trivial⟩
    case sizes =>
      exact ⟨requested, dims, axis, closed, sizes, hrequested, hdata, hclosed, hsizes, rfl⟩
    case axis => exact ⟨value, dims, axis, sizes, hvalue, hdata, haxis, rfl⟩

/-! ### All operators -/

/-- In what is planned for an operator, the tensors of the operation play the roles in order. -/
theorem plan_inOrder {standIn : Bool} :
    (op.plan standIn).Yields (op.InOrder op.operator.code.signature) := by
  unfold plan
  cases hcode : op.operator.code with
  | abs | exp | neg | rsqrt | logicalNot => exact single_inOrder
  | add | sub | mul | div => exact fused_inOrder planBinary_inOrder
  | maximum | minimum | equal | notEqual | greater | greaterEqual | less | lessEqual =>
    exact planBinary_inOrder
  | argMax | argMin => exact planArgMinMax_inOrder
  | averagePool2d | maxPool2d => exact fused_inOrder planPooling_inOrder
  | conv2d => exact fused_inOrder planConvolution_inOrder
  | depthwiseConv2d => exact fused_inOrder planDepthwiseConvolution_inOrder
  | transposeConv => exact planTransposeConvolution_inOrder
  | fullyConnected => exact fused_inOrder planFullyConnected_inOrder
  | concatenation => exact fused_inOrder planConcatenation_inOrder
  | l2Normalization => exact fused_inOrder single_inOrder
  | elu | hardSwish | leakyRelu | logistic | relu | relu6 | tanh | softmax | logSoftmax | cast
  | dequantize | quantize => exact single_inOrder
  | depthToSpace | spaceToDepth => exact planBlockDepth_inOrder
  | batchToSpaceNd => exact planBlockBatch_inOrder (.inl rfl)
  | spaceToBatchNd => exact planBlockBatch_inOrder (.inr rfl)
  | localResponseNormalization => exact planResponseNormalization_inOrder
  | mean => exact planMean_inOrder
  | reduceMax | reduceMin | reduceProd | sum => exact planReduce_inOrder
  | pad => exact planPad_inOrder
  | padV2 => exact planPad_inOrder_of_given
  | mirrorPad =>
    dsimp only
    split
    · exact planPad_inOrder
    · exact planPad_inOrder
  | pack => exact planPack_inOrder
  | gather => exact planGather_inOrder
  | prelu => exact planPrelu_inOrder
  | reshape => exact planReshape_inOrder
  | expandDims => exact planExpandDims_inOrder
  | squeeze => exact planSqueeze_inOrder
  | resizeBilinear | resizeNearestNeighbor => exact planResize_inOrder
  | slice => exact planSlice_inOrder
  | stridedSlice => exact planStridedSlice_inOrder
  | split => exact planSplit_inOrder
  | splitV => exact planSplitV_inOrder
  | transpose => exact planTranspose_inOrder
  | other name =>
    dsimp only
    split
    · exact planStandIn_inOrder
    · exact yields_error

end Operation

end LayerGraph
