import LayerGraph.Proofs.Numeric.Order
import LayerGraph.Proofs.Quantize.Rewriting
import LayerGraph.Proofs.Tensor.Constant

/-! # Biases

  Main statement: a bias of a quantized graph has the scale of the products that it is added to
  (`Linked.quantize_couples_biases`). That is the scale of what feeds the layer in the quantized
  graph, times the scale of its quantized weights. A layer whose product is no finite number above
  zero is refused.

  The scale of the inputs is read while the quantized graph is built, at the slot that stands for
  what the layer reads. It stays what it was, for nothing that was added is described again, so the
  simulation says it of the finished graph.
-/

namespace LayerGraph

/-! ### One bias -/

/-- A bias is stored at the scale of the products: that of the inputs times that of the weights, in
    single precision. Each value is the nearest multiple of the scale, as far as 32 bits reach. -/
structure BiasCoupled (bias : Constant) (inputScale weightScale : Binary32) (bias' : Constant) :
    Prop where
  info : bias'.info =
    (TensorInfo.quantized bias.info.shape .signed32 (inputScale * weightScale) 0).withConstant true
  finite : (inputScale * weightScale).isFinite = true
  positive : Binary.lt .zero (inputScale * weightScale) = true
  values : ∃ values, bias.toBinary32 = .ok values ∧ bias'.toInts = .ok (values.map fun v =>
    (v / (inputScale * weightScale)).roundClamped (-2 ^ 31) (2 ^ 31 - 1))

variable {bias bias' : Constant} {inputScale weightScale : Binary32}

theorem biasCoupled_of_quantizeBias (hfloat : bias.elementType.isFloat = true)
    (h : quantizeBias bias inputScale weightScale = .ok bias') :
    BiasCoupled bias inputScale weightScale bias' := by
  unfold quantizeBias at h
  rw [if_pos hfloat] at h
  dsimp only at h
  split at h
  · cases h
  · next hpositive =>
    rw [Bool.not_eq_true, Bool.not_eq_false', Binary32.isPositive, Bool.and_eq_true] at hpositive
    obtain ⟨values, hvalues, hstored⟩ := Except.bind_eq_ok_iff.mp h
    have hvalues := Except.mapError_eq_ok_iff.mp hvalues
    have hstored := Except.mapError_eq_ok_iff.mp hstored
    refine ⟨(Constant.info_of_ofInts hstored).1, hpositive.1, hpositive.2, values, hvalues, ?_⟩
    apply Constant.toInts_of_ofInts hstored rfl
    intro v hv
    obtain ⟨value, -, rfl⟩ := List.mem_map.mp hv
    exact Binary.roundClamped_mem (by decide) (by decide) _

theorem quantizeBias_of_not_positive (hfloat : bias.elementType.isFloat = true)
    (h : (inputScale * weightScale).isPositive = false) :
    quantizeBias bias inputScale weightScale =
      .error (.invalidBiasScale inputScale weightScale) := by
  unfold quantizeBias
  rw [if_pos hfloat]
  dsimp only
  rw [h]
  rfl

/-! ### Layers with weights -/

/-- The weights and the bias of a layer that weighs what it reads. -/
def LayerKind.weighted? : LayerKind → Option (Constant × Option Constant)
  | .convolution _ weights biases | .depthwiseConvolution _ weights biases
  | .fullyConnected _ weights biases | .transposeConvolution _ weights biases =>
    some (weights, biases)
  | _ => none

variable {kind kind' : LayerKind} {weights weights' : Constant} {biases : Option Constant}

/-- Such a layer has one input, and is no boundary. -/
theorem LayerKind.slots_of_weighted (h : kind.weighted? = some (weights, biases)) :
    kind.inputCount = 1 ∧ kind.binding? = none ∧ kind.constants = weights :: biases.toList := by
  cases kind with
  | convolution | depthwiseConvolution | fullyConnected | transposeConvolution =>
    cases h
    exact ⟨rfl, rfl, rfl⟩
  | _ => cases h

/-- The quantized kind weighs with the quantized weights. -/
theorem QuantizedKind.weighted {scheme : Scheme}
    (h : QuantizedKind scheme inputScale kind kind')
    (hkind : kind.weighted? = some (weights, biases)) :
    ∃ weights' biases', kind'.weighted? = some (weights', biases') ∧
      QuantizedWeights scheme inputScale weights biases weights' biases' := by
  cases h with
  | convolution h | depthwiseConvolution h | fullyConnected h | transposeConvolution h =>
    cases hkind
    exact ⟨_, _, rfl, h⟩
  | constant | batchNormalization => cases hkind
  | plain _ hconstants =>
    have hweights := (LayerKind.slots_of_weighted hkind).2.2
    rw [hconstants] at hweights
    cases hweights

/-- When its bias is refused, so is the layer. -/
theorem Quantizer.quantizedKind_of_weighted {s : Quantizer.Setting} {p : Quantizer.Progress}
    {l : Layer} {inputs : List OutputRef} {e : QuantizationError}
    (hkind : l.kind.weighted? = some (weights, biases))
    (h : Quantizer.quantizedWeights s p l inputs weights biases = .error e) :
    Quantizer.quantizedKind s p l inputs = .error e := by
  unfold Quantizer.quantizedKind
  cases heq : l.kind with
  | convolution | depthwiseConvolution | fullyConnected | transposeConvolution =>
    rw [heq] at hkind
    cases hkind
    dsimp only
    rw [h]
    rfl
  | _ =>
    rw [heq] at hkind
    cases hkind

namespace Quantizer

open LayerGraph.Graph

variable {s : Setting} {q : Graph} {φ : LayerId → LayerId} {id : LayerId} {l : Layer}
variable {ids done : List LayerId} {p : Progress} {supply : GuidSupply}

/-- The layer of a graph at a position has weights, and a bias that is coupled to them and to what
    the layer reads in that graph. -/
def CoupledAt (q : Graph) (k : LayerId) (bias : Constant) : Prop :=
  ∃ kind weights' bias' feed info, q.kind? k = some kind ∧
    kind.weighted? = some (weights', some bias') ∧ q.producer? ⟨k, 0⟩ = some feed ∧
    q.info? feed = some info ∧ BiasCoupled bias info.scale weights'.info.scale bias'

/-- The scale of the first input is that of its descriptor. -/
theorem firstScale_singleton {feed : OutputRef} {info : TensorInfo} (h : q.info? feed = some info) :
    q.firstScale [feed] = info.scale := by
  show ((q.info? feed).map (·.scale)).getD .zero = _
  rw [h]
  rfl

/-- A layer with weights reads one tensor. -/
theorem exists_source_of_weighted (hg : s.graph.Linked) (hl : s.graph.layers[id]? = some l)
    (hkind : l.kind.weighted? = some (weights, biases)) {sources : List OutputRef}
    (hsources : (l.content.renumber φ).inputs = sources.map some) :
    ∃ feed, sources = [feed] := by
  have hcount := (hg.slots id l hl).1
  rw [(LayerKind.slots_of_weighted hkind).1] at hcount
  have hlength := congrArg List.length hsources
  rw [List.length_map] at hlength
  have hinputs : (l.content.renumber φ).inputs.length = l.inputs.length := List.length_map _
  exact List.length_eq_one_iff.mp (hlength.symm.trans (hinputs.trans hcount))

/-- In the quantized graph the bias is coupled to what feeds the layer there. -/
theorem Simulates.coupledAt (h : Simulates s ids q φ) (hg : s.graph.Linked) (hq : q.Coherent)
    (hcomplete : q.Complete) (hid : id ∈ ids) (hl : s.graph.layers[id]? = some l)
    (hkind : l.kind.weighted? = some (weights, some bias))
    (hfloat : bias.elementType.isFloat = true) : CoupledAt q (φ id) bias := by
  obtain ⟨sources, drafts, start, hsources, hcounterpart, hend, hcontents⟩ := h.stands id hid l hl
  obtain ⟨feed, rfl⟩ := exists_source_of_weighted hg hl hkind hsources
  have hinterior := (LayerKind.slots_of_weighted hkind).2.1
  cases hcounterpart with
  | input hboundary | keptInput hboundary | output hboundary | keptOutput hboundary =>
    rw [hboundary] at hinterior
    cases hinterior
  | @interior kind infos hquantized hinfos =>
    have hplace : start = φ id := Nat.succ.inj hend
    subst hplace
    have hcontent : q.content? (φ id) = some (⟨l.name, kind, [feed], infos⟩ : Draft).content :=
      hcontents 0 _ rfl
    have hlayer : q.content? (⟨φ id, 0⟩ : InputRef).layer = _ := hcontent
    have hproducer : q.producer? ⟨φ id, 0⟩ = some feed := producer?_of_draft hlayer
    -- What feeds the layer is described, since the quantized graph is complete.
    obtain ⟨info, hinfo⟩ := hcomplete.exists_info (hq.linked.ends_exist hproducer).1
    rw [firstScale_singleton hinfo] at hquantized
    obtain ⟨weights', biases', hkind', -, hbiases⟩ := hquantized.weighted hkind
    obtain ⟨bias', hbias, hsome⟩ := Except.bind_eq_ok_iff.mp hbiases
    cases hsome
    exact ⟨kind, weights', bias', feed, info, kind?_of_draft hcontent, hkind', hproducer, hinfo,
      biasCoupled_of_quantizeBias hfloat hbias⟩

/-- When the product of the scales is no finite number above zero, the next layer is refused for
    its bias. -/
theorem Reached.visit_invalidBiasScale (h : Reached s done p φ supply) (hg : s.graph.Linked)
    (hcomplete : s.graph.Complete) (hnext : Next s done id l)
    (hkind : l.kind.weighted? = some (weights, some bias))
    (hfloat : bias.elementType.isFloat = true)
    (hweights : s.options.scheme.quantizeConstant weights = .ok weights') :
    ∃ source feed info, l.inputs = [some source] ∧
      quantizedInput s p l 0 (some source) = .ok feed ∧ p.target.info? feed = some info ∧
      ((info.scale * weights'.info.scale).isPositive = false →
        (visit s p id l).run supply =
          .error (.invalidBiasScale info.scale weights'.info.scale) supply) := by
  obtain ⟨sources, hsources, hproducers⟩ := hnext.exists_sources hcomplete
  have hcount := (hg.slots id l hnext.layer).1
  rw [(LayerKind.slots_of_weighted hkind).1, hsources, List.length_map] at hcount
  obtain ⟨source, rfl⟩ := List.length_eq_one_iff.mp hcount
  have hfound := h.mapM_quantizedInput hsources hproducers
  have hreadable := h.hasOutput hg hnext.layer hsources hproducers
  obtain ⟨info, hinfo⟩ := h.complete.exists_info (hreadable _ List.mem_cons_self)
  refine ⟨source, counterpartSlot φ source, info, hsources, ?_, hinfo, ?_⟩
  · exact h.quantizedInput_eq_ok (hproducers source List.mem_cons_self) 0
  · intro hproduct
    have hrefused : quantizedWeights s p l [counterpartSlot φ source] weights (some bias) =
        .error (.invalidBiasScale info.scale weights'.info.scale) := by
      unfold quantizedWeights
      rw [hweights]
      show (quantizeBias bias (p.target.firstScale [counterpartSlot φ source]) _ >>= _) = _
      rw [firstScale_singleton hinfo, quantizeBias_of_not_positive hfloat hproduct]
      rfl
    have hadd : (addInterior s p l [counterpartSlot φ source]).run supply =
        .error (.invalidBiasScale info.scale weights'.info.scale) supply := by
      unfold addInterior
      rw [quantizedKind_of_weighted hkind hrefused]
      rfl
    have hinterior := (LayerKind.slots_of_weighted hkind).2.1
    unfold visit
    rw [Build.run_bind_of_ok (Build.ofExcept_eq_ok_iff.mpr ⟨hfound, rfl⟩)]
    dsimp only
    split
    · next hboundary =>
      rw [hboundary] at hinterior
      cases hinterior
    · next hboundary =>
      rw [hboundary] at hinterior
      cases hinterior
    · exact Build.run_bind_error hadd

end Quantizer

namespace Graph

open LayerGraph.Quantizer

variable {g : Graph}

/-- In a quantized graph every bias has the scale of the products that it is added to, which is the
    scale of what feeds its layer there, times the scale of the weights of its layer there. A layer
    whose product is no finite number above zero is refused as soon as it is visited. -/
theorem Linked.quantize_couples_biases (hg : g.Linked) (ranges : RangeTable)
    (options : QuantizerOptions) (supply : GuidSupply) :
    (∀ q supply', (g.quantize ranges options).run supply = .ok q supply' →
      ∃ φ, Simulates ⟨g, ranges, options⟩ (List.range g.layers.length) q φ ∧
        ∀ id kind weights bias, g.kind? id = some kind →
          kind.weighted? = some (weights, some bias) → bias.elementType.isFloat = true →
          CoupledAt q (φ id) bias) ∧
      (g.Complete → ∀ before id l after p t weights weights' bias,
        g.orderedLayers = before ++ (id, l) :: after →
        (visitAll ⟨g, ranges, options⟩ before).run supply = .ok p t →
        l.kind.weighted? = some (weights, some bias) → bias.elementType.isFloat = true →
        options.scheme.quantizeConstant weights = .ok weights' →
        ∃ source feed info, l.inputs = [some source] ∧
          quantizedInput ⟨g, ranges, options⟩ p l 0 (some source) = .ok feed ∧
          p.target.info? feed = some info ∧
          ((info.scale * weights'.info.scale).isPositive = false →
            (g.quantize ranges options).run supply =
              .error (.invalidBiasScale info.scale weights'.info.scale) t)) := by
  constructor
  · intro q supply' hrun
    obtain ⟨hcoherent, hcomplete, -, φ, hsimulates⟩ := hg.quantized hrun
    refine ⟨φ, hsimulates, ?_⟩
    intro id kind weights bias hkind hweighted hfloat
    obtain ⟨l, hl, rfl⟩ := Option.map_eq_some_iff.mp hkind
    have hid : id ∈ List.range g.layers.length :=
      List.mem_range.mpr (List.getElem?_eq_some_iff.mp hl).1
    exact hsimulates.coupledAt hg hcoherent hcomplete hid hl hweighted hfloat
  · intro hcomplete before id l after p t weights weights' bias horder hbefore hweighted hfloat
      hweights
    have hnext : Next ⟨g, ranges, options⟩ (before.map Prod.fst) id l :=
      next_of_orderedLayers hg horder
    obtain ⟨φ, hreached⟩ := reached_of_visitAll hg hcomplete horder hbefore
    obtain ⟨source, feed, info, hsource, hfeed, hinfo, hrefused⟩ :=
      hreached.visit_invalidBiasScale hg hcomplete hnext hweighted hfloat hweights
    refine ⟨source, feed, info, hsource, hfeed, hinfo, ?_⟩
    intro hproduct
    have hvalid : (change (.ofExcept g.validate)).run supply = .ok () supply :=
      change_ofExcept_of_ok (validate_eq_ok_iff.mpr hcomplete) supply
    -- The layers before are visited, and this one is refused.
    have hrewrite : (visitAll ⟨g, ranges, options⟩ g.orderedLayers).run supply =
        .error (.invalidBiasScale info.scale weights'.info.scale) t := by
      rw [horder, visitAll, List.foldlM_append, ← visitAll, Build.run_bind_of_ok hbefore,
        List.foldlM_cons]
      exact Build.run_bind_error (hrefused hproduct)
    unfold Graph.quantize
    rw [Build.run_bind_of_ok hvalid]
    exact Build.run_bind_error hrewrite

/-- Ranges so narrow that their scale is zero in single precision. -/
def narrowRanges : RangeTable := ⟨[], some ⟨.zero, ⟨1#32⟩⟩⟩

/-- The layer that weighs the input. -/
def weighing : Layer := (weighed.layers[1]?).getD (Layer.new ⟨0⟩ .rank "")

theorem quantize_couples_biases_weighed :
    (∃ q supply' k bias,
      (weighed.quantize ⟨[], some (.usual .standard)⟩ ⟨.standard, true⟩).run .initial =
        .ok q supply' ∧ CoupledAt q k bias) ∧
      ∃ inputScale weightScale supply',
        (weighed.quantize narrowRanges ⟨.standard, true⟩).run .initial =
          .error (.invalidBiasScale inputScale weightScale) supply' := by
  have hlinked : weighed.Linked := ((Session.sound_start .initial).run _).coherent.linked
  have hcouples (ranges : RangeTable) :=
    hlinked.quantize_couples_biases ranges ⟨.standard, true⟩ .initial
  obtain ⟨after, weights, bias, horder, hkind, hweighted, hfloat⟩ :
      ∃ after weights bias,
        weighed.orderedLayers = weighed.orderedLayers.take 1 ++ (1, weighing) :: after ∧
          weighed.kind? 1 = some weighing.kind ∧
          weighing.kind.weighted? = some (weights, some bias) ∧
          bias.elementType.isFloat = true :=
    ⟨[_], _, _, rfl, rfl, rfl, rfl⟩
  constructor
  · have hsome :
        ((weighed.quantize ⟨[], some (.usual .standard)⟩ ⟨.standard, true⟩).run' .initial).isSome =
        true := by
      decide +kernel
    obtain ⟨q, hq⟩ := Option.isSome_iff_exists.mp hsome
    obtain ⟨supply', hrun⟩ := Build.exists_run_of_eq_some hq
    obtain ⟨φ, -, hcoupled⟩ := (hcouples ⟨[], some (.usual .standard)⟩).1 q supply' hrun
    exact ⟨q, supply', φ 1, bias, hrun, hcoupled 1 _ weights bias hkind hweighted hfloat⟩
  · have hcomplete : weighed.Complete := validate_eq_ok_iff.mp (by decide +kernel)
    have hproduct : ((visitAll ⟨weighed, narrowRanges, ⟨.standard, true⟩⟩
        (weighed.orderedLayers.take 1)).run' .initial).any (fun p =>
          ((quantizedInput ⟨weighed, narrowRanges, ⟨.standard, true⟩⟩ p weighing 0
            (some ⟨0, 0⟩)).toOption.bind p.target.info?).any fun info =>
              weighing.kind.weighted?.any fun weights =>
                (Scheme.standard.quantizeConstant weights.1).toOption.any fun weights' =>
                  !(info.scale * weights'.info.scale).isPositive) = true := by
      decide +kernel
    obtain ⟨p, hp, hproduct⟩ := (Option.any_eq_true _ _).mp hproduct
    obtain ⟨info, hinfo, hproduct⟩ := (Option.any_eq_true _ _).mp hproduct
    rw [hweighted, Option.any_some] at hproduct
    obtain ⟨weights', hweights, hproduct⟩ := (Option.any_eq_true _ _).mp hproduct
    obtain ⟨t, hbefore⟩ := Build.exists_run_of_eq_some hp
    obtain ⟨source, feed, info', hsource, hfeed, hinfo', hrefused⟩ :=
      (hcouples narrowRanges).2 hcomplete _ 1 weighing after p t weights weights' bias horder
        hbefore hweighted hfloat (Except.toOption_eq_some_iff.mp hweights)
    obtain rfl : source = ⟨0, 0⟩ := by
      have hread : weighing.inputs = [some ⟨0, 0⟩] := rfl
      rw [hread] at hsource
      cases hsource
      rfl
    rw [hfeed] at hinfo
    obtain rfl : info' = info := Option.some.inj (hinfo'.symm.trans hinfo)
    exact ⟨_, _, t, hrefused (Bool.not_eq_true' _ |>.mp hproduct)⟩

end Graph

end LayerGraph
