import LayerGraph.Proofs.Container.Writing
import LayerGraph.Proofs.Graph.Identities
import LayerGraph.Proofs.Quantize.Rewriting

/-! # Identities play no part

  Main statement: alike graphs have the same containers, and so have their quantized graphs
  (`Alike.same_containers`). What differs between alike graphs, the identities of the layers and
  the order in which readers are listed, has no influence on either.

  Both graphs are quantized at once. The layers are visited in the same order, the tables lead from
  different identities to the same places, and the quantized graphs are the same without identities
  (`Twins`). A visit computes the same kinds and descriptors for both (`Except.Agrees`) and makes
  the same changes (`Build.Lockstep`), or is refused in both.
-/

namespace LayerGraph

namespace Quantizer

open LayerGraph.Graph

variable {s s' : Setting} {p p' : Progress} {φ : LayerId → LayerId} {id : LayerId} {l l' : Layer}
variable {g g' : Graph} {supply supply' : GuidSupply} {inputs : List OutputRef} {index : Nat}

/-! ### Settings -/

/-- The ranges of the slots that correspond are the same. -/
def RangesAgree (g : Graph) (ranges : RangeTable) (g' : Graph) (ranges' : RangeTable) : Prop :=
  ∀ id guid guid', g.guid? id = some guid → g'.guid? id = some guid' →
    ∀ index, g.HasOutput ⟨id, index⟩ → ranges'.range? guid' index = ranges.range? guid index

/-- Settings that differ in the identities of the layers only. -/
structure SettingsAlike (s s' : Setting) : Prop where
  graph : Alike s.graph s'.graph
  ranges : RangesAgree s.graph s.ranges s'.graph s'.ranges
  options : s'.options = s.options

/-- Layers at the same position, which say the same. -/
structure Corresponds (s s' : Setting) (id : LayerId) (l l' : Layer) : Prop where
  left : s.graph.layers[id]? = some l
  right : s'.graph.layers[id]? = some l'
  content : l'.content = l.content

theorem SettingsAlike.corresponds (h : SettingsAlike s s') (hl : s.graph.layers[id]? = some l)
    (hl' : s'.graph.layers[id]? = some l') : Corresponds s s' id l l' := by
  refine ⟨hl, hl', ?_⟩
  have hsame := h.graph.content? id
  rw [content?, content?, hl, hl', Option.map_some, Option.map_some] at hsame
  exact Option.some.inj hsame

theorem Corresponds.kind (h : Corresponds s s' id l l') : l'.kind = l.kind :=
  congrArg LayerContent.kind h.content

theorem Corresponds.name (h : Corresponds s s' id l l') : l'.name = l.name :=
  congrArg LayerContent.name h.content

theorem Corresponds.length (h : Corresponds s s' id l l') :
    l'.outputs.length = l.outputs.length := by
  have hlength := congrArg (·.infos.length) h.content
  simpa [Layer.content] using hlength

/-! ### What is computed for both -/

theorem Corresponds.agrees_sourceInfo (h : Corresponds s s' id l l') (index : Nat) :
    Except.Agrees (sourceInfo l index) (sourceInfo l' index) := by
  have hread (l : Layer) :
      (l.outputs[index]?).bind (·.info) = (l.content.infos[index]?).join := by
    show _ = ((l.outputs.map (·.info))[index]?).join
    rw [List.getElem?_map]
    cases l.outputs[index]? <;> rfl
  unfold sourceInfo
  rw [hread l, hread l', h.content]
  cases (l.content.infos[index]?).join with
  | some info => exact .refl _
  | none => exact Except.agrees_error _ _

theorem SettingsAlike.agrees_quantizedInfo (h : SettingsAlike s s')
    (hc : Corresponds s s' id l l') (index : Nat) :
    Except.Agrees (quantizedInfo s l index) (quantizedInfo s' l' index) := by
  refine (hc.agrees_sourceInfo index).bind fun info hinfo => ?_
  have hslot : s.graph.HasOutput ⟨id, index⟩ := by
    refine ⟨l, hc.left, ?_⟩
    by_contra hle
    unfold sourceInfo at hinfo
    rw [List.getElem?_eq_none_iff.mpr (Nat.le_of_not_lt hle)] at hinfo
    cases hinfo
  have hrange : s'.ranges.range? l'.guid index = s.ranges.range? l.guid index := by
    apply h.ranges id
    · rw [guid?, hc.left, Option.map_some]
    · rw [guid?, hc.right, Option.map_some]
    · exact hslot
  dsimp only
  rw [hrange, h.options]
  cases info.elementType.isExact with
  | true => exact .refl _
  | false =>
    cases s.ranges.range? l.guid index with
    | some range => exact .refl _
    | none => exact Except.agrees_error _ _

theorem SettingsAlike.agrees_interiorInfo (h : SettingsAlike s s')
    (hc : Corresponds s s' id l l') (kind : LayerKind) (index : Nat) :
    Except.Agrees (interiorInfo s l kind index) (interiorInfo s' l' kind index) := by
  unfold interiorInfo
  split
  · exact .refl _
  · exact h.agrees_quantizedInfo hc index

/-- Graphs that are the same without identities have the same descriptors. -/
theorem info?_of_anonymous (hsame : g.anonymous = g'.anonymous) (slot : OutputRef) :
    g'.info? slot = g.info? slot := by
  rw [info?_eq_content?, info?_eq_content?, ← content?_anonymous, ← hsame, content?_anonymous]

theorem agrees_inputScale (hsame : p.target.anonymous = p'.target.anonymous) (l l' : Layer)
    (inputs : List OutputRef) :
    Except.Agrees (inputScale p l inputs) (inputScale p' l' inputs) := by
  cases inputs with
  | nil => exact Except.agrees_error _ _
  | cons first rest =>
    unfold inputScale
    dsimp only
    rw [info?_of_anonymous hsame]
    exact .refl _

theorem SettingsAlike.agrees_quantizedWeights (h : SettingsAlike s s')
    (hsame : p.target.anonymous = p'.target.anonymous) (l l' : Layer) (inputs : List OutputRef)
    (weights : Constant) (biases : Option Constant) :
    Except.Agrees (quantizedWeights s p l inputs weights biases)
      (quantizedWeights s' p' l' inputs weights biases) := by
  unfold quantizedWeights
  rw [h.options]
  refine (Except.Agrees.refl _).bind fun weights' _ => ?_
  cases biases with
  | none => exact .refl _
  | some bias =>
    refine (agrees_inputScale hsame l l' inputs).bind fun scale _ => ?_
    exact .refl _

theorem SettingsAlike.agrees_quantizedKind (h : SettingsAlike s s')
    (hsame : p.target.anonymous = p'.target.anonymous) (hc : Corresponds s s' id l l')
    (inputs : List OutputRef) :
    Except.Agrees (quantizedKind s p l inputs) (quantizedKind s' p' l' inputs) := by
  unfold quantizedKind
  rw [h.options, hc.kind]
  cases l.kind with
  | convolution params weights biases | depthwiseConvolution params weights biases
  | fullyConnected params weights biases | transposeConvolution params weights biases =>
    refine (h.agrees_quantizedWeights hsame l l' inputs weights biases).bind fun _ _ => ?_
    exact .refl _
  | input | output | cast | dequantize | logicalBinary | quantize | rank | standIn =>
    exact Except.agrees_error _ _
  | _ => exact .refl _

/-! ### What is done for both -/

/-- Additions at the same position, to graphs that stay the same without identities. -/
def AddedAlike (added : LayerId × Graph) (_ : GuidSupply) (added' : LayerId × Graph)
    (_ : GuidSupply) : Prop :=
  added'.1 = added.1 ∧ added.2.anonymous = added'.2.anonymous

/-- A blind change is made in both graphs, or refused in both. -/
theorem lockstep_blind {update : Graph → Except GraphError Graph} (hblind : Blind update)
    (hsame : g.anonymous = g'.anonymous) :
    Build.Lockstep (fun _ _ => True) (fun h _ h' _ => h.anonymous = h'.anonymous)
      ((change (.ofExcept (update g))).run supply)
      ((change (.ofExcept (update g'))).run supply') := by
  cases hupdate : update g with
  | ok h =>
    obtain ⟨h', hupdate', hsame'⟩ := hblind g g' h hsame hupdate
    rw [hupdate']
    exact .ok hsame'
  | error e =>
    cases hupdate' : update g' with
    | ok h' =>
      obtain ⟨h, hboth, -⟩ := hblind g' g h' hsame.symm hupdate'
      rw [hupdate] at hboth
      cases hboth
    | error e' => exact .error trivial

theorem lockstep_setInfo (hsame : g.anonymous = g'.anonymous) (slot : OutputRef)
    (info : TensorInfo) :
    Build.Lockstep (fun _ _ => True) (fun h _ h' _ => h.anonymous = h'.anonymous)
      ((setInfo g slot info).run supply) ((setInfo g' slot info).run supply') :=
  lockstep_blind (blind_setInfo slot info) hsame

theorem lockstep_addConnected (hsame : g.anonymous = g'.anonymous) (kind : LayerKind)
    (name : String) (inputs : List OutputRef) :
    Build.Lockstep (fun _ _ => True) AddedAlike ((addConnected g kind name inputs).run supply)
      ((addConnected g' kind name inputs).run supply') := by
  refine Build.Lockstep.bind ((lockstep_insert hsame kind name supply supply').adaptExcept
    fun _ _ _ => trivial) ?_
  rintro ⟨layer, g₁⟩ t ⟨layer', g₁'⟩ t' ⟨-, -, rfl, hsame₁⟩
  refine (Build.Lockstep.foldlM (r := fun h _ h' _ => h.anonymous = h'.anonymous) ?_ hsame₁).bind ?_
  · rintro ⟨source, index⟩ _ g₂ t₂ g₂' t₂' hsame₂
    exact lockstep_blind (blind_connect source ⟨layer', index⟩) hsame₂
  · intro g₂ t₂ g₂' t₂' hsame₂
    exact .ok ⟨rfl, hsame₂⟩

/-- A layer is added and described in both graphs. -/
theorem lockstep_addDescribed (hsame : g.anonymous = g'.anonymous) (kind : LayerKind)
    (name : String) (inputs : List OutputRef) (info : TensorInfo) :
    Build.Lockstep (fun _ _ => True) AddedAlike
      ((do
        let (layer, g) ← addConnected g kind name inputs
        return (layer, ← setInfo g ⟨layer, 0⟩ info)).run supply)
      ((do
        let (layer, g) ← addConnected g' kind name inputs
        return (layer, ← setInfo g ⟨layer, 0⟩ info)).run supply') := by
  refine (lockstep_addConnected hsame kind name inputs).bind ?_
  rintro ⟨layer, g₁⟩ t ⟨layer', g₁'⟩ t' ⟨rfl, hsame₁⟩
  refine (lockstep_setInfo hsame₁ ⟨layer', 0⟩ info).bind ?_
  intro g₂ t₂ g₂' t₂' hsame₂
  exact .ok ⟨rfl, hsame₂⟩

theorem SettingsAlike.lockstep_addInput (h : SettingsAlike s s')
    (hsame : p.target.anonymous = p'.target.anonymous) (hc : Corresponds s s' id l l')
    (binding : BindingId) :
    Build.Lockstep (fun _ _ => True) AddedAlike ((addInput s p l binding).run supply)
      ((addInput s' p' l' binding).run supply') := by
  unfold addInput
  rw [hc.name, h.options]
  refine (lockstep_addConnected hsame (.input binding) l.name []).bind ?_
  rintro ⟨input, g₁⟩ t ⟨input', g₁'⟩ t' ⟨rfl, hsame₁⟩
  refine (Build.lockstep_ofExcept (hc.agrees_sourceInfo 0)).bind ?_
  rintro described t₁ _ t₁' rfl
  refine (Build.lockstep_ofExcept (h.agrees_quantizedInfo hc 0)).bind ?_
  rintro quantized t₂ _ t₂' rfl
  dsimp only
  split
  · refine (lockstep_setInfo hsame₁ ⟨input', 0⟩ described).bind ?_
    intro g₂ t₃ g₂' t₃' hsame₂
    exact lockstep_addDescribed hsame₂ .quantize _ _ quantized
  · refine (lockstep_setInfo hsame₁ ⟨input', 0⟩ quantized).bind ?_
    intro g₂ t₃ g₂' t₃' hsame₂
    exact .ok ⟨rfl, hsame₂⟩

/-- What an input slot reads is described in the same way in alike graphs. -/
theorem inputInfo?_of_alike (h : Alike g g') (slot : InputRef) :
    g'.inputInfo? slot = g.inputInfo? slot := by
  have hproducer : g'.producer? slot = g.producer? slot := by
    rw [producer?_eq_content?, producer?_eq_content?, h.content?]
  have hinfo : g'.info? = g.info? := by
    funext source
    rw [info?_eq_content?, info?_eq_content?, h.content?]
  rw [inputInfo?, inputInfo?, hproducer, hinfo]

theorem SettingsAlike.lockstep_addOutput (h : SettingsAlike s s')
    (hsame : p.target.anonymous = p'.target.anonymous) (hc : Corresponds s s' id l l')
    (binding : BindingId) (inputs : List OutputRef) :
    Build.Lockstep (fun _ _ => True) AddedAlike ((addOutput s p id l binding inputs).run supply)
      ((addOutput s' p' id l' binding inputs).run supply') := by
  unfold addOutput
  split
  · next source =>
    rw [inputInfo?_of_alike h.graph, h.options, hc.name]
    split
    · next described _ =>
      split
      · refine (lockstep_addConnected hsame .dequantize (l.name ++ ":Dequantize") [source]).bind ?_
        rintro ⟨dequantize, g₁⟩ t ⟨dequantize', g₁'⟩ t' ⟨rfl, hsame₁⟩
        refine (lockstep_setInfo hsame₁ ⟨dequantize', 0⟩ described).bind ?_
        intro g₂ t₂ g₂' t₂' hsame₂
        exact lockstep_addConnected hsame₂ (.output binding) l.name _
      · exact lockstep_addConnected hsame (.output binding) l.name [source]
    · exact lockstep_addConnected hsame (.output binding) l.name [source]
  · exact .error trivial

theorem SettingsAlike.lockstep_addInterior (h : SettingsAlike s s')
    (hsame : p.target.anonymous = p'.target.anonymous) (hc : Corresponds s s' id l l')
    (inputs : List OutputRef) :
    Build.Lockstep (fun _ _ => True) AddedAlike ((addInterior s p l inputs).run supply)
      ((addInterior s' p' l' inputs).run supply') := by
  unfold addInterior
  rw [hc.name, hc.length]
  refine (Build.lockstep_ofExcept (h.agrees_quantizedKind hsame hc inputs)).bind ?_
  rintro kind t _ t' rfl
  refine (lockstep_addConnected hsame kind l.name inputs).bind ?_
  rintro ⟨layer, g₁⟩ t₁ ⟨layer', g₁'⟩ t₁' ⟨rfl, hsame₁⟩
  refine (Build.Lockstep.foldlM (r := fun h _ h' _ => h.anonymous = h'.anonymous) ?_ hsame₁).bind ?_
  · intro index _ g₂ t₂ g₂' t₂' hsame₂
    refine (Build.lockstep_ofExcept (h.agrees_interiorInfo hc kind index)).bind ?_
    rintro info t₃ _ t₃' rfl
    exact lockstep_setInfo hsame₂ ⟨layer', index⟩ info
  · intro g₂ t₂ g₂' t₂' hsame₂
    exact .ok ⟨rfl, hsame₂⟩

/-! ### Visiting both -/

/-- The layers in `done` were visited in both graphs. Their counterparts stand at the same places,
    in quantized graphs that are the same without identities. -/
structure Twins (s s' : Setting) (done : List LayerId) (p : Progress) (supply : GuidSupply)
    (p' : Progress) (supply' : GuidSupply) : Prop where
  same : p.target.anonymous = p'.target.anonymous
  reached : ∃ φ, Reached s done p φ supply ∧ Reached s' done p' φ supply'

variable {done : List LayerId}

/-- The next layer is given the same counterpart in both graphs, or refused in both. -/
theorem SettingsAlike.lockstep_visit (h : SettingsAlike s s') (hg : s.graph.Coherent)
    (hg' : s'.graph.Coherent) (hcomplete : s.graph.Complete)
    (htwins : Twins s s' done p supply p' supply') (hnext : Next s done id l)
    (hnext' : Next s' done id l') :
    Build.Lockstep (fun _ _ => True) (Twins s s' (done ++ [id])) ((visit s p id l).run supply)
      ((visit s' p' id l').run supply') := by
  obtain ⟨hsame, φ, hreached, hreached'⟩ := htwins
  have hc := h.corresponds hnext.layer hnext'.layer
  have hcomplete' : s'.graph.Complete := h.graph.complete hcomplete
  -- Both layers read the same counterparts, since these stand at the same places.
  obtain ⟨sources, hsources, hproducers⟩ := hnext.exists_sources hcomplete
  have hsources' : l'.inputs = sources.map some := by
    rw [← hsources]
    exact congrArg LayerContent.inputs hc.content
  have hfound := hreached.mapM_quantizedInput hsources hproducers
  have hfound' := hreached'.mapM_quantizedInput hsources' hproducers
  have hadd : Build.Lockstep (fun _ _ => True)
      (fun q _ q' _ => q.target.anonymous = q'.target.anonymous)
      ((visit s p id l).run supply) ((visit s' p' id l').run supply') := by
    unfold visit
    rw [Build.run_bind_of_ok (Build.ofExcept_eq_ok_iff.mpr ⟨hfound, rfl⟩),
      Build.run_bind_of_ok (Build.ofExcept_eq_ok_iff.mpr ⟨hfound', rfl⟩), hc.kind]
    dsimp only
    split
    · next binding _ =>
      refine (h.lockstep_addInput hsame hc binding).bind ?_
      rintro added t added' t' ⟨-, hadded⟩
      exact .ok hadded
    · next binding _ =>
      refine (h.lockstep_addOutput hsame hc binding _).bind ?_
      rintro added t added' t' ⟨-, hadded⟩
      exact .ok hadded
    · refine (h.lockstep_addInterior hsame hc _).bind ?_
      rintro added t added' t' ⟨-, hadded⟩
      exact .ok hadded
  refine hadd.imp fun q t q' t' hrun hrun' hq => ⟨hq, q.placing φ id, ?_, ?_⟩
  · refine (hreached.ends_visit hg.linked hcomplete hnext
      fun direction b hkind => ?_).post_of_ok hrun
    exact hreached.not_mem_bindings hg hnext.layer hnext.fresh hkind
  · have hplacing : q.placing φ id = q'.placing φ id := by
      unfold Progress.placing
      rw [← length_anonymous q.target, hq, length_anonymous]
    rw [hplacing]
    refine (hreached'.ends_visit hg'.linked hcomplete' hnext'
      fun direction b hkind => ?_).post_of_ok hrun'
    exact hreached'.not_mem_bindings hg' hnext'.layer hnext'.fresh hkind

/-- The layers of alike graphs are visited in the same order. -/
theorem SettingsAlike.lockstep_visitAll (h : SettingsAlike s s') (hg : s.graph.Coherent)
    (hg' : s'.graph.Coherent) (hcomplete : s.graph.Complete) (supply supply' : GuidSupply) :
    Build.Lockstep (fun _ _ => True) (Twins s s' s.graph.topologicalOrder)
      ((visitAll s s.graph.orderedLayers).run supply)
      ((visitAll s' s'.graph.orderedLayers).run supply') := by
  have horder : s.graph.orderedLayers.map Prod.fst = s'.graph.orderedLayers.map Prod.fst := by
    rw [hg.linked.map_fst_orderedLayers, hg'.linked.map_fst_orderedLayers,
      h.graph.topologicalOrder hg hg']
  have hlength : s.graph.orderedLayers.length = s'.graph.orderedLayers.length := by
    simpa using congrArg List.length horder
  -- The two lists of layers are gone through as one list of pairs.
  obtain ⟨entries, hleft, hright⟩ : ∃ entries : List ((LayerId × Layer) × LayerId × Layer),
      s.graph.orderedLayers = entries.map Prod.fst ∧
        s'.graph.orderedLayers = entries.map Prod.snd :=
    ⟨_, (List.map_fst_zip (Nat.le_of_eq hlength)).symm,
      (List.map_snd_zip (Nat.le_of_eq hlength.symm)).symm⟩
  have htwins : Twins s s' [] ⟨.empty, []⟩ supply ⟨.empty, []⟩ supply' :=
    ⟨rfl, _, reached_first s supply, reached_first s' supply'⟩
  unfold visitAll
  rw [← hg.linked.map_fst_orderedLayers, hleft, hright, List.foldlM_map, List.foldlM_map]
  refine Build.Lockstep.foldlM_prefix
    (P := fun done p t p' t' => Twins s s' ((done.map Prod.fst).map Prod.fst) p t p' t') ?_ htwins
  rintro done ⟨⟨id, l⟩, id', l'⟩ after p t p' t' heq htwins
  have hnext : Next s ((done.map Prod.fst).map Prod.fst) id l := by
    apply next_of_orderedLayers hg.linked
    rw [hleft, heq, List.map_append, List.map_cons]
  have hnext' : Next s' ((done.map Prod.snd).map Prod.fst) id' l' := by
    apply next_of_orderedLayers hg'.linked
    rw [hright, heq, List.map_append, List.map_cons]
  obtain ⟨hdone, rfl⟩ :
      (done.map Prod.fst).map Prod.fst = (done.map Prod.snd).map Prod.fst ∧ id = id' := by
    rw [hleft, hright, heq] at horder
    simp only [List.map_append, List.map_cons] at horder
    obtain ⟨hdone, hrest⟩ := List.append_inj horder (by simp)
    exact ⟨hdone, (List.cons.inj hrest).1⟩
  rw [← hdone] at hnext'
  simp only [List.map_append, List.map_cons, List.map_nil]
  exact h.lockstep_visit hg hg' hcomplete htwins hnext hnext'

/-! ### Quantizing both -/

/-- Alike graphs are quantized to alike graphs, or refused both. -/
theorem SettingsAlike.lockstep_quantize (h : SettingsAlike s s') (hg : s.graph.Coherent)
    (hg' : s'.graph.Coherent) (supply supply' : GuidSupply) :
    Build.Lockstep (fun _ _ => True)
      (fun q _ q' _ => Alike q q' ∧ q.Coherent ∧ q'.Coherent ∧ q.Complete)
      ((s.graph.quantize s.ranges s.options).run supply)
      ((s'.graph.quantize s'.ranges s'.options).run supply') := by
  have hvalid : Except.Agrees s.graph.validate s'.graph.validate := by
    intro _
    rw [validate_eq_ok_iff, validate_eq_ok_iff]
    exact ⟨h.graph.complete, h.graph.symm.complete⟩
  have hcomplete : Build.Lockstep (fun _ _ => True) (fun _ _ _ _ => s.graph.Complete)
      ((change (.ofExcept s.graph.validate)).run supply)
      ((change (.ofExcept s'.graph.validate)).run supply') := by
    refine ((Build.lockstep_ofExcept hvalid).adaptExcept fun _ _ _ => trivial).imp ?_
    intro _ t _ t' hrun _ _
    have hrun := Build.ofExcept_eq_ok_iff.mp (Build.adaptExcept_eq_ok_iff.mp hrun)
    exact validate_eq_ok_iff.mp hrun.1
  rw [quantize_eq, quantize_eq]
  refine hcomplete.bind ?_
  intro _ t _ t' hcomplete
  refine (h.lockstep_visitAll hg hg' hcomplete t t').bind ?_
  rintro p t p' t' ⟨hsame, φ, hreached, hreached'⟩
  rw [← h.graph.topologicalOrder hg hg'] at hreached'
  obtain ⟨q, hrun, hlayers, hq⟩ := exists_putInOrder hreached hg
  obtain ⟨q', hrun', hlayers', hq'⟩ := exists_putInOrder hreached' hg'
  show Build.Lockstep _ _ ((putInOrder s p.target).run t) ((putInOrder s' p'.target).run t')
  rw [hrun, hrun']
  refine .ok ⟨⟨fun id => ?_, fun direction => ?_⟩, hq.coherent, hq'.coherent, hq.complete⟩
  · rw [content?_of_layers hlayers, content?_of_layers hlayers', ← content?_anonymous, ← hsame,
      content?_anonymous]
  · rw [hq.bindings, hq'.bindings, h.graph.bindings]

end Quantizer

namespace Graph

open LayerGraph.Quantizer

variable {g g' : Graph} {ranges ranges' : RangeTable}

/-- Alike graphs have the same container, and with the same ranges their quantized graphs have the
    same container, if they can be quantized. An error may name a layer of either graph. -/
theorem Alike.same_containers (h : Alike g g') (hg : g.Coherent) (hg' : g'.Coherent)
    (hranges : RangesAgree g ranges g' ranges') (options : QuantizerOptions)
    (supply supply' : GuidSupply) :
    g'.serialize.mapError anonymousError = g.serialize.mapError anonymousError ∧
      ((∃ q t, (g.quantize ranges options).run supply = .ok q t) ↔
        ∃ q' t', (g'.quantize ranges' options).run supply' = .ok q' t') ∧
      ∀ q t q' t', (g.quantize ranges options).run supply = .ok q t →
        (g'.quantize ranges' options).run supply' = .ok q' t' → q'.serialize = q.serialize := by
  have hsettings : SettingsAlike ⟨g, ranges, options⟩ ⟨g', ranges', options⟩ := ⟨h, hranges, rfl⟩
  have hstep := hsettings.lockstep_quantize hg hg' supply supply'
  refine ⟨h.serialize_anonymous hg hg', ?_⟩
  generalize (g.quantize ranges options).run supply = x at hstep
  generalize (g'.quantize ranges' options).run supply' = x' at hstep
  cases hstep with
  | ok hq =>
    obtain ⟨halike, hcoherent, hcoherent', hcomplete⟩ := hq
    refine ⟨⟨fun _ => ⟨_, _, rfl⟩, fun _ => ⟨_, _, rfl⟩⟩, ?_⟩
    intro q t q' t' hrun hrun'
    cases hrun
    cases hrun'
    exact halike.serialize_of_complete hcoherent hcoherent' hcomplete
  | error _ =>
    refine ⟨⟨?_, ?_⟩, ?_⟩
    · rintro ⟨q, t, hrun⟩
      cases hrun
    · rintro ⟨q, t, hrun⟩
      cases hrun
    · intro q t q' t' hrun
      cases hrun

/-- A tensor is added to itself, with the two slots of the sum connected in the given order. -/
def sumOfTwice (supply : GuidSupply) (slots : List Nat) : Graph :=
  ((Session.start supply).run ([.addLayer (.input 3) "x",
    .setInfo ⟨0, 0⟩ (.new (.ofDims [2]) .float32), .addLayer .addition "sum",
    .setInfo ⟨1, 0⟩ (.new (.ofDims [2]) .float32), .addLayer (.output 7) "y",
    .connect ⟨1, 0⟩ ⟨2, 0⟩] ++ slots.map fun slot => .connect ⟨0, 0⟩ ⟨1, slot⟩)).graph

theorem same_containers_sumOfTwice :
    sumOfTwice .initial [0, 1] ≠ sumOfTwice GuidSupply.initial.advance [1, 0] ∧
      ∃ bytes q t q' t',
        (sumOfTwice .initial [0, 1]).serialize = .ok bytes ∧
        (sumOfTwice GuidSupply.initial.advance [1, 0]).serialize = .ok bytes ∧
        ((sumOfTwice .initial [0, 1]).quantize ⟨[], some (.usual .standard)⟩ {}).run .initial =
          .ok q t ∧
        ((sumOfTwice GuidSupply.initial.advance [1, 0]).quantize
          ⟨[], some (.usual .standard)⟩ {}).run .initial = .ok q' t' ∧
        q'.serialize = q.serialize := by
  have hleft : (sumOfTwice .initial [0, 1]).Coherent := ((Session.sound_start _).run _).coherent
  have hright : (sumOfTwice GuidSupply.initial.advance [1, 0]).Coherent :=
    ((Session.sound_start _).run _).coherent
  have halike : Alike (sumOfTwice .initial [0, 1])
      (sumOfTwice GuidSupply.initial.advance [1, 0]) := by
    have hcontents : (sumOfTwice GuidSupply.initial.advance [1, 0]).contents =
        (sumOfTwice .initial [0, 1]).contents := by
      decide +kernel
    refine ⟨fun id => ?_, fun direction => ?_⟩
    · rw [← getElem?_contents, ← getElem?_contents, hcontents]
    · cases direction <;> decide +kernel
  have hranges : RangesAgree (sumOfTwice .initial [0, 1]) ⟨[], some (.usual .standard)⟩
      (sumOfTwice GuidSupply.initial.advance [1, 0]) ⟨[], some (.usual .standard)⟩ := by
    intro id guid guid' _ _ index _
    rfl
  obtain ⟨hserialize, hboth, hquantized⟩ :=
    halike.same_containers hleft hright hranges {} .initial .initial
  have hwritten : (sumOfTwice .initial [0, 1]).serialize.toOption.isSome = true := by
    decide +kernel
  have hsome : (((sumOfTwice .initial [0, 1]).quantize ⟨[], some (.usual .standard)⟩ {}).run'
      .initial).isSome = true := by
    decide +kernel
  obtain ⟨bytes, hbytes⟩ := Option.isSome_iff_exists.mp hwritten
  have hbytes := Except.toOption_eq_some_iff.mp hbytes
  rw [hbytes] at hserialize
  obtain ⟨q, hq⟩ := Option.isSome_iff_exists.mp hsome
  obtain ⟨t, hrun⟩ := Build.exists_run_of_eq_some hq
  obtain ⟨q', t', hrun'⟩ := hboth.mp ⟨q, t, hrun⟩
  exact ⟨by decide +kernel, bytes, q, t, q', t', hbytes, Except.mapError_eq_ok_iff.mp hserialize,
    hrun, hrun', hquantized q t q' t' hrun hrun'⟩

end Graph

end LayerGraph
