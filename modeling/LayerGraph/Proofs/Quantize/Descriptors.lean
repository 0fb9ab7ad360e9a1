import LayerGraph.Proofs.Quantize.Rewriting
import LayerGraph.Proofs.Tensor.Constant

/-! # Descriptors of a quantized graph

  Main statement: a quantized graph keeps the descriptors at its boundaries where they are to keep
  their types, and is free of floating point tensors elsewhere (`Linked.quantize_descriptors`).

  The descriptor of a tensor is given in four places: at inputs, before outputs, at constants and at
  the other layers. What is stored for a tensor is the same in all of them (`Stores`): an exact
  tensor keeps its descriptor, and any other one takes the type of the scheme. A boundary that is
  kept has one descriptor more, which is the one of the graph.
-/

namespace LayerGraph

/-- Descriptor of what enters or leaves the graph at a layer. -/
def Graph.boundaryInfo? (g : Graph) (id : LayerId) : Direction → Option TensorInfo
  | .input => g.info? ⟨id, 0⟩
  | .output => g.inputInfo? ⟨id, 0⟩

/-- The outputs of constant layers are described as their values are. -/
def Graph.ConstantsDescribed (g : Graph) : Prop :=
  ∀ id t, g.kind? id = some (.constant t) → g.info? ⟨id, 0⟩ = some t.info

namespace Quantizer

open LayerGraph.Graph

variable {s : Setting} {q : Graph} {φ : LayerId → LayerId} {id : LayerId} {l : Layer}
variable {ids : List LayerId} {index : Nat} {info info' : TensorInfo}
variable {sources : List OutputRef} {inputScale : Binary32} {start : LayerId} {drafts : List Draft}

/-! ### What is stored for a tensor -/

/-- A tensor is stored as the second descriptor says: a floating point tensor has the type of the
    scheme then, and an exact one is left alone. -/
structure Stores (scheme : Scheme) (info info' : TensorInfo) : Prop where
  float : info.elementType.isFloat = true →
    info'.elementType = scheme.elementType ∧ info'.shape = info.shape
  exact : info.elementType.isExact = true → info' = info
  stored : info'.elementType.isFloat = false

theorem isFloat_elementType (scheme : Scheme) : scheme.elementType.isFloat = false := by
  cases scheme <;> rfl

/-- No type is both floating point and exact. -/
theorem isFloat_of_isExact {t : ElementType} (h : t.isExact = true) : t.isFloat = false := by
  cases t <;> first | rfl | cases h

/-- A tensor that is not exact takes the type of the scheme. -/
theorem stores_scheme {scheme : Scheme} {scale : Binary32} {offset : Int32} {flag : Bool}
    (hexact : info.elementType.isExact = false) :
    Stores scheme info
      ((TensorInfo.quantized info.shape scheme.elementType scale offset).withConstant flag) where
  float _ := ⟨rfl, rfl⟩
  exact h := by
    rw [hexact] at h
    cases h
  stored := isFloat_elementType scheme

/-- A tensor that is not floating point may be left alone. -/
theorem stores_self (scheme : Scheme) (h : info.elementType.isFloat = false) :
    Stores scheme info info where
  float hfloat := by
    rw [h] at hfloat
    cases hfloat
  exact _ := rfl
  stored := h

theorem stores_of_quantizedInfo (hl : s.graph.layers[id]? = some l)
    (h : quantizedInfo s l index = .ok info') :
    ∃ info, s.graph.info? ⟨id, index⟩ = some info ∧ Stores s.options.scheme info info' := by
  obtain ⟨info, hsource, hrest⟩ := Except.bind_eq_ok_iff.mp h
  refine ⟨info, ?_, ?_⟩
  · unfold sourceInfo at hsource
    split at hsource
    · next info₀ hinfo =>
      cases hsource
      show (s.graph.layers[id]? >>= fun l => l.outputs[index]? >>= (·.info)) = _
      rw [hl]
      exact hinfo
    · cases hsource
  · dsimp only at hrest
    split at hrest
    · next hexact =>
      cases hrest
      exact stores_self _ (isFloat_of_isExact hexact)
    · next hexact =>
      split at hrest
      · obtain ⟨parameters, -, hstored⟩ := Except.bind_eq_ok_iff.mp hrest
        cases hstored
        exact stores_scheme (Bool.not_eq_true _ |>.mp hexact)
      · cases hrest

/-- A constant is stored as any tensor is. -/
theorem stores_of_quantizeConstant {scheme : Scheme} {t t' : Constant}
    (h : scheme.quantizeConstant t = .ok t') : Stores scheme t.info t'.info := by
  unfold Scheme.quantizeConstant at h
  split at h
  · next hfloat =>
    obtain ⟨values, -, h⟩ := Except.bind_eq_ok_iff.mp h
    obtain ⟨extent, -, h⟩ := Except.bind_eq_ok_iff.mp h
    obtain ⟨parameters, -, h⟩ := Except.bind_eq_ok_iff.mp h
    obtain ⟨stored, -, h⟩ := Except.bind_eq_ok_iff.mp h
    have hstored := Except.mapError_eq_ok_iff.mp h
    rw [(Constant.info_of_ofInts hstored).1]
    apply stores_scheme
    cases hexact : t.info.elementType.isExact with
    | false => rfl
    | true =>
      have hfloat : t.info.elementType.isFloat = true := hfloat
      rw [isFloat_of_isExact hexact] at hfloat
      cases hfloat
  · next hfloat =>
    cases h
    exact stores_self _ (Bool.not_eq_true _ |>.mp hfloat)

/-! ### The layers that stand for a layer -/

/-- An output of a layer inside the graph. -/
theorem stores_of_interiorInfo {kind : LayerKind} (hconstants : s.graph.ConstantsDescribed)
    (hl : s.graph.layers[id]? = some l) (hslots : l.outputs.length = l.kind.outputCount)
    (hkind : QuantizedKind s.options.scheme inputScale l.kind kind)
    (hindex : index < l.outputs.length) (h : interiorInfo s l kind index = .ok info') :
    ∃ info, s.graph.info? ⟨id, index⟩ = some info ∧ Stores s.options.scheme info info' := by
  unfold interiorInfo at h
  split at h
  · next t' =>
    cases h
    -- The values are those of a constant, stored over their own range.
    obtain ⟨t, heq, ht⟩ :
        ∃ t, l.kind = .constant t ∧ s.options.scheme.quantizeConstant t = .ok t' := by
      generalize l.kind = source at hkind
      cases hkind with
      | constant ht => exact ⟨_, rfl, ht⟩
      | plain _ hnone => cases hnone
    have hkind? : s.graph.kind? id = some (.constant t) := by
      rw [Graph.kind?, hl, Option.map_some, heq]
    have hzero : index = 0 := by
      rw [hslots, heq] at hindex
      exact Nat.lt_one_iff.mp hindex
    subst hzero
    exact ⟨t.info, hconstants id t hkind?, stores_of_quantizeConstant ht⟩
  · exact stores_of_quantizedInfo hl h

/-- The descriptors of the outputs of a layer inside the graph. -/
theorem getElem?_infos {kind : LayerKind} {infos : List TensorInfo}
    (h : (List.range l.outputs.length).mapM (interiorInfo s l kind) = .ok infos)
    (hinfo : infos[index]? = some info') :
    index < l.outputs.length ∧ interiorInfo s l kind index = .ok info' := by
  have hall := Except.mapM_eq_ok_iff.mp h
  obtain ⟨hlt, heq⟩ := List.getElem?_eq_some_iff.mp hinfo
  have hrange : index < (List.range l.outputs.length).length := by
    rw [hall.length_eq]
    exact hlt
  have hget := hall.get hrange hlt
  rw [List.get_eq_getElem, List.get_eq_getElem, List.getElem_range, heq] at hget
  rw [List.length_range] at hrange
  exact ⟨hrange, hget⟩

/-- The output of an input layer. -/
theorem stores_of_singleton {quantized : TensorInfo} (hl : s.graph.layers[id]? = some l)
    (h : quantizedInfo s l 0 = .ok quantized) (hinfo' : [quantized][index]? = some info') :
    ∃ info, s.graph.info? ⟨id, index⟩ = some info ∧ Stores s.options.scheme info info' := by
  cases index with
  | zero =>
    cases hinfo'
    exact stores_of_quantizedInfo hl h
  | succ index => cases hinfo'

/-- The last of the layers that stand for a layer stores what the outputs of the layer carry. -/
theorem Counterpart.stores (h : Counterpart s id l sources inputScale start drafts)
    (hconstants : s.graph.ConstantsDescribed) (hl : s.graph.layers[id]? = some l)
    (hslots : l.outputs.length = l.kind.outputCount) {d : Draft}
    (hd : drafts[(s.keptAs id l.kind).toNat]? = some d) (hinfo' : d.infos[index]? = some info') :
    ∃ info, s.graph.info? ⟨id, index⟩ = some info ∧ Stores s.options.scheme info info' := by
  cases h with
  | input _ hkept hquantized | keptInput _ hkept _ hquantized =>
    rw [hkept] at hd
    cases hd
    exact stores_of_singleton hl hquantized hinfo'
  | output _ hkept | keptOutput _ hkept =>
    rw [hkept] at hd
    cases hd
    cases hinfo'
  | interior hkind hinfos =>
    rw [Setting.keptAs_of_binding? hkind.binding?.1] at hd
    cases hd
    obtain ⟨hlt, hinfo⟩ := getElem?_infos hinfos hinfo'
    exact stores_of_interiorInfo hconstants hl hslots hkind hlt hinfo

/-- Only a boundary that is kept has a layer with a floating point output among those that stand for
    it, namely the input, or what dequantizes for the output. -/
theorem Counterpart.of_isFloat (h : Counterpart s id l sources inputScale start drafts)
    (hconstants : s.graph.ConstantsDescribed) (hl : s.graph.layers[id]? = some l)
    (hslots : l.outputs.length = l.kind.outputCount) {d : Draft} (hd : d ∈ drafts)
    (hinfo' : d.infos[index]? = some info') (hfloat : info'.elementType.isFloat = true) :
    s.options.preserveType = true ∧ ((∃ b, d.kind = .input b) ∨ d.kind = .dequantize) := by
  -- The last layer stores what it has, so the layer in question is the other one.
  have hlast : drafts[(s.keptAs id l.kind).toNat]? ≠ some d := by
    intro hlast
    obtain ⟨info, -, hstores⟩ := h.stores hconstants hl hslots hlast hinfo'
    rw [hstores.stored] at hfloat
    cases hfloat
  have hpreserve (kept : Option TensorInfo) (hkept : s.keeps kept = true) :
      s.options.preserveType = true := ((Bool.and_eq_true _ _).mp hkept).1
  cases h with
  | input _ hkept | output _ hkept =>
    rw [hkept] at hlast
    obtain rfl := List.mem_singleton.mp hd
    exact absurd rfl hlast
  | interior hkind =>
    rw [Setting.keptAs_of_binding? hkind.binding?.1] at hlast
    obtain rfl := List.mem_singleton.mp hd
    exact absurd rfl hlast
  | keptInput hkind hkept =>
    rw [hkept] at hlast
    rw [hkind] at hkept
    rcases List.mem_cons.mp hd with rfl | hd
    · exact ⟨hpreserve _ hkept, .inl ⟨_, rfl⟩⟩
    · obtain rfl := List.mem_singleton.mp hd
      exact absurd rfl hlast
  | keptOutput hkind hkept =>
    rw [hkept] at hlast
    rw [hkind] at hkept
    rcases List.mem_cons.mp hd with rfl | hd
    · exact ⟨hpreserve _ hkept, .inr rfl⟩
    · obtain rfl := List.mem_singleton.mp hd
      exact absurd rfl hlast

/-! ### Whole graphs -/

/-- The slot that stands for a slot stores what it carries. -/
theorem Simulates.stores (h : Simulates s ids q φ) (hg : s.graph.Linked)
    (hconstants : s.graph.ConstantsDescribed) {p : OutputRef} (hp : p.layer ∈ ids)
    (hinfo : s.graph.info? p = some info) :
    ∃ info', q.info? (counterpartSlot φ p) = some info' ∧ Stores s.options.scheme info info' := by
  obtain ⟨l, hl, hslot⟩ := Option.bind_eq_some_iff.mp hinfo
  have hindex : p.index < l.outputs.length := by
    obtain ⟨slot, hslot, -⟩ := Option.bind_eq_some_iff.mp hslot
    exact (List.getElem?_eq_some_iff.mp hslot).1
  obtain ⟨sources, drafts, start, -, hcounterpart, hend, hcontents⟩ := h.stands p.layer hp l hl
  have hslots := (hg.slots p.layer l hl).2
  have hlength := hcounterpart.length
  obtain ⟨d, hd, hinfos⟩ := hcounterpart.length_infos hslots
  have hplace : start + (s.keptAs p.layer l.kind).toNat = φ p.layer := by
    omega
  have hcontent := hcontents _ d hd
  rw [hplace] at hcontent
  have hlt : p.index < d.infos.length := by
    rw [hinfos]
    exact hindex
  have hinfo' : d.infos[p.index]? = some d.infos[p.index] := List.getElem?_eq_getElem hlt
  refine ⟨d.infos[p.index], ?_, ?_⟩
  · have hlayer : q.content? (counterpartSlot φ p).layer = some d.content := hcontent
    exact (info?_of_draft hlayer).trans hinfo'
  · obtain ⟨info₀, hinfo₀, hstores⟩ := hcounterpart.stores hconstants hl hslots hd hinfo'
    obtain rfl : info = info₀ := Option.some.inj (hinfo.symm.trans hinfo₀)
    exact hstores

/-- A floating point tensor of the quantized graph is at a boundary that is kept. -/
theorem Simulates.of_isFloat (h : Simulates s ids q φ) (hg : s.graph.Linked)
    (hexists : ∀ a ∈ ids, ∃ l, s.graph.layers[a]? = some l)
    (hconstants : s.graph.ConstantsDescribed) {p : OutputRef} (hinfo : q.info? p = some info)
    (hfloat : info.elementType.isFloat = true) :
    s.options.preserveType = true ∧
      ((∃ b, q.kind? p.layer = some (.input b)) ∨ q.kind? p.layer = some .dequantize) := by
  rw [info?_eq_content?] at hinfo
  obtain ⟨c, hc, -⟩ := Option.bind_eq_some_iff.mp hinfo
  obtain ⟨id, hid, l, sources, start, drafts, d, hl, hcounterpart, hd, rfl⟩ :=
    h.exists_draft hexists hc
  rw [← info?_eq_content?, info?_of_draft hc] at hinfo
  have hslots := (hg.slots id l hl).2
  obtain ⟨hpreserve, hkind⟩ := hcounterpart.of_isFloat hconstants hl hslots hd hinfo hfloat
  refine ⟨hpreserve, ?_⟩
  rw [kind?_of_draft hc]
  rcases hkind with ⟨b, hkind⟩ | hkind
  · exact .inl ⟨b, congrArg some hkind⟩
  · exact .inr (congrArg some hkind)

/-- An input that is kept or exact is described as in the graph. -/
theorem Simulates.exists_input (h : Simulates s ids q φ) (hid : id ∈ ids) {b : BindingId}
    (hkind? : s.graph.kind? id = some (.input b)) (hinfo : s.graph.info? ⟨id, 0⟩ = some info)
    (hexact : s.keeps (some info) = false → info.elementType.isExact = true) :
    ∃ k, q.kind? k = some (.input b) ∧ q.info? ⟨k, 0⟩ = some info := by
  obtain ⟨l, hl, hkind⟩ := Option.map_eq_some_iff.mp hkind?
  obtain ⟨sources, drafts, start, -, hcounterpart, -, hcontents⟩ := h.stands id hid l hl
  suffices hdraft : ∃ d, drafts[0]? = some d ∧ d.kind = .input b ∧ d.infos = [info] by
    obtain ⟨d, hd, hdkind, hdinfos⟩ := hdraft
    have hlayer : q.content? (⟨start, 0⟩ : OutputRef).layer = some d.content := hcontents 0 d hd
    refine ⟨start, ?_, ?_⟩
    · rw [kind?_of_draft hlayer, hdkind]
    · rw [info?_of_draft hlayer, hdinfos]
      rfl
  cases hcounterpart with
  | input hinput hkept hquantized =>
    have hsame := hinput.symm.trans hkind
    cases hsame
    rw [hkind] at hkept
    have hkept : s.keeps (s.graph.info? ⟨id, 0⟩) = false := hkept
    rw [hinfo] at hkept
    obtain ⟨info₀, hinfo₀, hstores⟩ := stores_of_quantizedInfo hl hquantized
    obtain rfl : info = info₀ := Option.some.inj (hinfo.symm.trans hinfo₀)
    rw [hstores.exact (hexact hkept)]
    exact ⟨_, rfl, rfl, rfl⟩
  | keptInput hinput _ hdescribed =>
    have hsame := hinput.symm.trans hkind
    cases hsame
    obtain rfl := Option.some.inj (hinfo.symm.trans hdescribed)
    exact ⟨_, rfl, rfl, rfl⟩
  | output hother | keptOutput hother =>
    rw [hkind] at hother
    cases hother
  | interior hquantized =>
    have hnone := hquantized.binding?.1
    rw [hkind] at hnone
    cases hnone

/-- What feeds an output that is kept or exact is described as in the graph. -/
theorem Simulates.exists_output (h : Simulates s ids q φ) (hg : s.graph.Linked)
    (hids : ∀ a, a < s.graph.layers.length → a ∈ ids) (hconstants : s.graph.ConstantsDescribed)
    {b : BindingId} (hkind? : s.graph.kind? id = some (.output b))
    (hinfo : s.graph.inputInfo? ⟨id, 0⟩ = some info)
    (hexact : s.keeps (some info) = false → info.elementType.isExact = true) :
    ∃ k, q.kind? k = some (.output b) ∧ q.inputInfo? ⟨k, 0⟩ = some info := by
  obtain ⟨p, hread, hp⟩ := Option.bind_eq_some_iff.mp hinfo
  obtain ⟨l, hl, hindex⟩ := producer?_eq_some_iff.mp hread
  have hkind : l.kind = .output b := by
    rw [Graph.kind?, show s.graph.layers[id]? = some l from hl] at hkind?
    exact Option.some.inj hkind?
  have hid : id ∈ ids := hids id (List.getElem?_eq_some_iff.mp hl).1
  have hproducer : p.layer ∈ ids := hids p.layer (hg.ends_exist hread).1.lt
  obtain ⟨sources, drafts, start, hsources, hcounterpart, -, hcontents⟩ := h.stands id hid l hl
  have hsource := getElem?_sources hsources hindex
  cases hcounterpart with
  | input hother | keptInput hother =>
    rw [hkind] at hother
    cases hother
  | interior hquantized =>
    have hnone := hquantized.binding?.1
    rw [hkind] at hnone
    cases hnone
  | output houtput hkept hsingle =>
    have hsame := houtput.symm.trans hkind
    cases hsame
    subst hsingle
    rw [hkind] at hkept
    have hkept : s.keeps (s.graph.inputInfo? ⟨id, 0⟩) = false := hkept
    rw [hinfo] at hkept
    -- The output reads what stands for its tensor, which is left alone.
    obtain ⟨info', hinfo', hstores⟩ := h.stores hg hconstants hproducer hp
    have hlayer : q.content? (⟨start, 0⟩ : InputRef).layer = _ := hcontents 0 _ rfl
    refine ⟨start, kind?_of_draft hlayer, ?_⟩
    rw [inputInfo?, producer?_of_draft hlayer]
    show q.info? _ = _
    rw [Option.some.inj hsource, hinfo', hstores.exact (hexact hkept)]
  | keptOutput houtput _ hdescribed hsingle =>
    have hsame := houtput.symm.trans hkind
    cases hsame
    obtain rfl := Option.some.inj (hinfo.symm.trans hdescribed)
    have hlayer : q.content? (⟨start + 1, 0⟩ : InputRef).layer = _ := hcontents 1 _ rfl
    have hbefore : q.content? (⟨start, 0⟩ : OutputRef).layer = _ := hcontents 0 _ rfl
    refine ⟨start + 1, kind?_of_draft hlayer, ?_⟩
    rw [inputInfo?, producer?_of_draft hlayer]
    exact info?_of_draft hbefore

end Quantizer

namespace Graph

open LayerGraph.Quantizer

variable {g q : Graph} {ranges : RangeTable} {options : QuantizerOptions}
variable {supply supply' : GuidSupply}

/-- The layer of a binding is found by it. -/
theorem Coherent.findBinding?_of_kind? (hg : g.Coherent) {direction : Direction} {b : BindingId}
    {id : LayerId} (h : g.kind? id = some (direction.kind b)) :
    g.findBinding? direction b = some id := by
  refine hg.findBinding?_eq_some_iff.mpr ⟨(hg.mem_boundary direction id).mpr ⟨b, h⟩, ?_⟩
  rw [binding?_eq_bind_kind?, h, Option.bind_some, binding?_directionKind]

/-- Where boundaries keep their types, a floating point or exact tensor enters and leaves the
    quantized graph as it does the graph, and there are no floating point tensors but at the inputs
    and before the outputs. Otherwise there are none at all. Everywhere a floating point tensor is
    stored as one of the type of the scheme with the same shape, and an exact tensor as itself. -/
theorem Linked.quantize_descriptors (hg : g.Linked) (hconstants : g.ConstantsDescribed)
    (hrun : (g.quantize ranges options).run supply = .ok q supply') :
    ∃ φ, Simulates ⟨g, ranges, options⟩ (List.range g.layers.length) q φ ∧
      (∀ p info, g.info? p = some info → ∃ info', q.info? (counterpartSlot φ p) = some info' ∧
        Stores options.scheme info info') ∧
      (options.preserveType = true →
        (∀ direction b id info, g.kind? id = some (direction.kind b) →
          g.boundaryInfo? id direction = some info →
          info.elementType.isFloat = true ∨ info.elementType.isExact = true →
          ∃ k, q.findBinding? direction b = some k ∧ q.boundaryInfo? k direction = some info) ∧
        ∀ p info, q.info? p = some info → info.elementType.isFloat = true →
          (∃ b, q.kind? p.layer = some (.input b)) ∨ q.kind? p.layer = some .dequantize) ∧
      (options.preserveType = false →
        ∀ p info, q.info? p = some info → info.elementType.isFloat = false) := by
  obtain ⟨hcoherent, -, -, φ, hsimulates⟩ := hg.quantized hrun
  have hexists : ∀ a ∈ List.range g.layers.length, ∃ l, g.layers[a]? = some l := fun a ha =>
    ⟨_, List.getElem?_eq_getElem (List.mem_range.mp ha)⟩
  have hids : ∀ a, a < g.layers.length → a ∈ List.range g.layers.length := fun a =>
    List.mem_range.mpr
  have hfloats (p : OutputRef) (info : TensorInfo) (hinfo : q.info? p = some info)
      (hfloat : info.elementType.isFloat = true) :=
    hsimulates.of_isFloat hg hexists hconstants hinfo hfloat
  refine ⟨φ, hsimulates, ?_, ?_, ?_⟩
  · intro p info hinfo
    obtain ⟨l, hl, -⟩ := Option.bind_eq_some_iff.mp hinfo
    exact hsimulates.stores hg hconstants (hids _ (List.getElem?_eq_some_iff.mp hl).1) hinfo
  · intro hpreserve
    refine ⟨?_, fun p info hinfo hfloat => (hfloats p info hinfo hfloat).2⟩
    intro direction b id info hkind hinfo hplain
    -- A boundary that is not kept is exact.
    have hexact (hkept : Setting.keeps ⟨g, ranges, options⟩ (some info) = false) :
        info.elementType.isExact = true := by
      refine hplain.resolve_left fun hfloat => ?_
      unfold Setting.keeps at hkept
      rw [hpreserve, Option.any_some, hfloat] at hkept
      cases hkept
    suffices hlayer : ∃ k, q.kind? k = some (direction.kind b) ∧
        q.boundaryInfo? k direction = some info by
      obtain ⟨k, hk, hkinfo⟩ := hlayer
      exact ⟨k, hcoherent.findBinding?_of_kind? hk, hkinfo⟩
    cases direction with
    | input =>
      obtain ⟨l, hl, -⟩ := Option.map_eq_some_iff.mp hkind
      have hid := hids id (List.getElem?_eq_some_iff.mp hl).1
      exact hsimulates.exists_input hid hkind hinfo hexact
    | output => exact hsimulates.exists_output hg hids hconstants hkind hinfo hexact
  · intro hpreserve p info hinfo
    cases hfloat : info.elementType.isFloat with
    | false => rfl
    | true =>
      have hkeeps : options.preserveType = true := (hfloats p info hinfo hfloat).1
      rw [hpreserve] at hkeeps
      cases hkeeps

/-- A constant is added to an input, and an exact constant leaves the graph beside the sum. -/
def shiftedInput : Graph :=
  ((Session.start .initial).run [.addLayer (.input 3) "x",
    .setInfo ⟨0, 0⟩ (.new (.ofDims [1]) .float32),
    .addLayer (.constant ⟨⟨.ofDims [], .float32, .absent, true⟩, [0, 0, 128, 63], rfl, rfl⟩) "k",
    .setInfo ⟨1, 0⟩ ⟨.ofDims [], .float32, .absent, true⟩,
    .addLayer .addition "sum", .connect ⟨0, 0⟩ ⟨2, 0⟩, .connect ⟨1, 0⟩ ⟨2, 1⟩,
    .setInfo ⟨2, 0⟩ (.new (.ofDims [1]) .float32), .addLayer (.output 7) "y",
    .connect ⟨2, 0⟩ ⟨3, 0⟩,
    .addLayer (.constant ⟨⟨.ofDims [1], .signed32, .absent, true⟩, [9, 0, 0, 0], rfl, rfl⟩) "n",
    .setInfo ⟨4, 0⟩ ⟨.ofDims [1], .signed32, .absent, true⟩, .addLayer (.output 8) "z",
    .connect ⟨4, 0⟩ ⟨5, 0⟩]).graph

theorem quantize_descriptors_shiftedInput :
    ∃ q supply',
      (shiftedInput.quantize ⟨[], some (.usual .standard)⟩ ⟨.standard, true⟩).run .initial =
        .ok q supply' ∧
      (∃ k, q.findBinding? .output 7 = some k ∧
        q.boundaryInfo? k .output = some (.new (.ofDims [1]) .float32)) ∧
      ∃ k, q.findBinding? .output 8 = some k ∧
        q.boundaryInfo? k .output = some ⟨.ofDims [1], .signed32, .absent, true⟩ := by
  have hlinked : shiftedInput.Linked := ((Session.sound_start .initial).run _).coherent.linked
  have hconstants : shiftedInput.ConstantsDescribed := by
    intro id t hkind
    have hdescribed : ∀ id < 6, ∀ kind ∈ shiftedInput.kind? id, ∀ t ∈ kind.constants,
        shiftedInput.info? ⟨id, 0⟩ = some t.info := by
      decide +kernel
    have hlt : id < shiftedInput.layers.length := by
      obtain ⟨l, hl, -⟩ := Option.map_eq_some_iff.mp hkind
      exact (List.getElem?_eq_some_iff.mp hl).1
    exact hdescribed id hlt _ hkind t List.mem_cons_self
  have hsome : ((shiftedInput.quantize ⟨[], some (.usual .standard)⟩
      ⟨.standard, true⟩).run' .initial).isSome =
      true := by
    decide +kernel
  obtain ⟨q, hq⟩ := Option.isSome_iff_exists.mp hsome
  obtain ⟨supply', hrun⟩ := Build.exists_run_of_eq_some hq
  obtain ⟨φ, -, -, hkept, -⟩ := hlinked.quantize_descriptors hconstants hrun
  obtain ⟨hboundary, -⟩ := hkept rfl
  exact ⟨q, supply', hrun, hboundary .output 7 3 _ rfl rfl (.inl rfl),
    hboundary .output 8 5 _ rfl rfl (.inr rfl)⟩

end Graph

end LayerGraph
