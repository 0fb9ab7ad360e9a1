import LayerGraph.Proofs.Graph.Continuing
import LayerGraph.Proofs.Quantize.Kinds

/-! # Counterparts

  A layer is quantized by appending one or two layers to the quantized graph, the last of which
  has its outputs (`Counterpart`). There are two of them where a boundary keeps a floating point
  tensor (`Setting.kept`): an input is followed by a quantizing layer, and an output comes behind a
  dequantizing one.

  Each of the three ways to add a counterpart appends the layers of `Counterpart`, or refuses
  (`Additions`). No change of the quantized graph is refused on the way.
-/

namespace LayerGraph

namespace Quantizer

open LayerGraph.Graph

/-! ### What stands for a layer -/

/-- Whether a tensor with the given descriptor stays as it is at a boundary, because it is a
    floating point tensor and boundaries keep their type. -/
def Setting.keeps (s : Setting) (info : Option TensorInfo) : Bool :=
  s.options.preserveType && info.any (·.elementType.isFloat)

/-- Whether a layer of the given kind is a boundary where the tensor stays as it is. -/
def Setting.keptAs (s : Setting) (id : LayerId) : LayerKind → Bool
  | .input _ => s.keeps (s.graph.info? ⟨id, 0⟩)
  | .output _ => s.keeps (s.graph.inputInfo? ⟨id, 0⟩)
  | _ => false

/-- Whether the layer at a position is a boundary where the tensor stays as it is. -/
def Setting.kept (s : Setting) (id : LayerId) : Bool := (s.graph.kind? id).any (s.keptAs id)

/-- The layers that stand for a layer, from the position `start` on. The last one has the outputs of
    the layer. What the layer reads is given by the output slots of the quantized graph that stand
    for it, and by the scale of the first of them. -/
inductive Counterpart (s : Setting) (id : LayerId) (l : Layer) (sources : List OutputRef)
    (inputScale : Binary32) (start : LayerId) : List Draft → Prop
  | input {binding : BindingId} {info : TensorInfo} (hkind : l.kind = .input binding)
      (hkept : s.keptAs id l.kind = false) (hinfo : quantizedInfo s l 0 = .ok info) :
      Counterpart s id l sources inputScale start [⟨l.name, .input binding, [], [info]⟩]
  | keptInput {binding : BindingId} {described info : TensorInfo} (hkind : l.kind = .input binding)
      (hkept : s.keptAs id l.kind = true) (hdescribed : s.graph.info? ⟨id, 0⟩ = some described)
      (hinfo : quantizedInfo s l 0 = .ok info) :
      Counterpart s id l sources inputScale start
        [⟨l.name, .input binding, [], [described]⟩,
          ⟨l.name ++ ":Quantize", .quantize, [⟨start, 0⟩], [info]⟩]
  | output {binding : BindingId} {source : OutputRef} (hkind : l.kind = .output binding)
      (hkept : s.keptAs id l.kind = false) (hsources : sources = [source]) :
      Counterpart s id l sources inputScale start [⟨l.name, .output binding, [source], []⟩]
  | keptOutput {binding : BindingId} {source : OutputRef} {described : TensorInfo}
      (hkind : l.kind = .output binding) (hkept : s.keptAs id l.kind = true)
      (hdescribed : s.graph.inputInfo? ⟨id, 0⟩ = some described) (hsources : sources = [source]) :
      Counterpart s id l sources inputScale start
        [⟨l.name ++ ":Dequantize", .dequantize, [source], [described]⟩,
          ⟨l.name, .output binding, [⟨start, 0⟩], []⟩]
  | interior {kind : LayerKind} {infos : List TensorInfo}
      (hkind : QuantizedKind s.options.scheme inputScale l.kind kind)
      (hinfos : (List.range l.outputs.length).mapM (interiorInfo s l kind) = .ok infos) :
      Counterpart s id l sources inputScale start [⟨l.name, kind, sources, infos⟩]

variable {s : Setting} {id : LayerId} {l : Layer} {sources : List OutputRef}
variable {inputScale : Binary32} {start : LayerId} {drafts : List Draft}

theorem Setting.keptAs_of_binding? {kind : LayerKind} (h : kind.binding? = none) :
    s.keptAs id kind = false := by
  cases kind <;> first | rfl | cases h

/-- There is a second layer exactly where a boundary is kept. -/
theorem Counterpart.length (h : Counterpart s id l sources inputScale start drafts) :
    drafts.length = 1 + (s.keptAs id l.kind).toNat := by
  cases h with
  | input _ hkept => rw [hkept]; rfl
  | keptInput _ hkept => rw [hkept]; rfl
  | output _ hkept => rw [hkept]; rfl
  | keptOutput _ hkept => rw [hkept]; rfl
  | interior hkind => rw [Setting.keptAs_of_binding? hkind.binding?.1]; rfl

/-- The last layer has the output slots of the layer that it stands for. -/
theorem Counterpart.length_infos (h : Counterpart s id l sources inputScale start drafts)
    (hslots : l.outputs.length = l.kind.outputCount) :
    ∃ d, drafts[(s.keptAs id l.kind).toNat]? = some d ∧ d.infos.length = l.outputs.length := by
  cases h with
  | input hkind hkept => exact ⟨_, by rw [hkept]; rfl, by rw [hslots, hkind]; rfl⟩
  | keptInput hkind hkept => exact ⟨_, by rw [hkept]; rfl, by rw [hslots, hkind]; rfl⟩
  | output hkind hkept => exact ⟨_, by rw [hkept]; rfl, by rw [hslots, hkind]; rfl⟩
  | keptOutput hkind hkept => exact ⟨_, by rw [hkept]; rfl, by rw [hslots, hkind]; rfl⟩
  | interior hkind hinfos =>
    refine ⟨_, by rw [Setting.keptAs_of_binding? hkind.binding?.1]; rfl, ?_⟩
    have hlength := (Except.mapM_eq_ok_iff.mp hinfos).length_eq
    simpa using hlength.symm

/-- One of the layers has the binding of the layer that they stand for, and none has another. -/
theorem Counterpart.binding_iff (h : Counterpart s id l sources inputScale start drafts)
    {direction : Direction} {binding : BindingId} :
    (∃ d ∈ drafts, d.kind = direction.kind binding) ↔ l.kind = direction.kind binding := by
  cases h with
  | input hkind | keptInput hkind | output hkind | keptOutput hkind =>
    cases direction <;> simp [hkind, Direction.kind]
  | interior hkind =>
    have hboundary (kind : LayerKind) (hnone : kind.binding? = none) :
        kind ≠ direction.kind binding := by
      intro heq
      rw [heq, binding?_directionKind] at hnone
      cases hnone
    simp [hboundary _ hkind.binding?.1, hboundary _ hkind.binding?.2]

/-! ### Changes of the quantized graph -/

variable {g g' : Graph} {supply : GuidSupply} {kind : LayerKind} {name : String}

theorem change_ofExcept_of_ok {α : Type} {x : Except GraphError α} {a : α} (h : x = .ok a)
    (supply : GuidSupply) : (change (.ofExcept x)).run supply = .ok a supply := by
  rw [h]
  rfl

/-- A layer is added and connected, when its slots and what it reads are there and its binding is
    not taken. -/
theorem exists_addConnected (h : Grown g supply) (kind : LayerKind) (name : String)
    (sources : List OutputRef) (hinputs : kind.inputCount = sources.length)
    (hbinding : ∀ direction b, kind = direction.kind b → b ∉ g.bindings direction)
    (hsources : ∀ p ∈ sources, g.HasOutput p) :
    ∃ g', (addConnected g kind name sources).run supply =
        .ok (g.layers.length, g') supply.advance ∧
      Continues g [⟨name, kind, sources.map some, List.replicate kind.outputCount none⟩] g'
        supply.advance := by
  obtain ⟨g₁, g', hinsert, hconnect, hcontinues⟩ :=
    h.exists_connected name hinputs hbinding hsources
  have hchange : (change (g.insert kind name)).run supply =
      .ok (g.layers.length, g₁) supply.advance := Build.adaptExcept_eq_ok_iff.mpr hinsert
  refine ⟨g', Build.bind_eq_ok_iff.mpr ⟨_, _, hchange, ?_⟩, hcontinues⟩
  refine Build.bind_eq_ok_iff.mpr ⟨g', _, ?_, rfl⟩
  refine Build.foldlM_of_ok ?_ hconnect
  intro g entry g' supply hentry
  exact change_ofExcept_of_ok hentry supply

/-- A layer that was added had a binding that was not taken. -/
theorem not_mem_bindings_of_addConnected {inputs : List OutputRef} {added : LayerId × Graph}
    {supply' : GuidSupply} (h : (addConnected g kind name inputs).run supply = .ok added supply')
    (direction : Direction) (b : BindingId) (hkind : kind = direction.kind b) :
    b ∉ g.bindings direction := by
  obtain ⟨inserted, t, hinsert, -⟩ := Build.bind_eq_ok_iff.mp h
  obtain ⟨-, -, hadded⟩ := insert_eq_ok_iff.mp (Build.adaptExcept_eq_ok_iff.mp hinsert)
  rw [bindings, List.mem_filterMap]
  rintro ⟨id, hid, hb⟩
  exact hadded.fresh direction b hkind id hid hb

/-- A descriptor of the last layer is set. -/
theorem exists_setInfo {c : LayerContent} {g₁ : Graph} (h : Continues g [c] g₁ supply) {index : Nat}
    (hindex : index < c.infos.length) (info : TensorInfo) :
    ∃ g', (setInfo g₁ ⟨g.layers.length, index⟩ info).run supply = .ok g' supply ∧
      Continues g [{ c with infos := c.infos.set index (some info) }] g' supply := by
  obtain ⟨g', hset, hcontinues⟩ := h.exists_setInfo hindex info
  exact ⟨g', change_ofExcept_of_ok hset supply, hcontinues⟩

/-- A layer with one output is added and connected, and can then be described. -/
theorem exists_addDescribed (h : Grown g supply) (kind : LayerKind) (name : String)
    (sources : List OutputRef) (hinputs : kind.inputCount = sources.length)
    (houtputs : kind.outputCount = 1)
    (hbinding : ∀ direction b, kind = direction.kind b → b ∉ g.bindings direction)
    (hsources : ∀ p ∈ sources, g.HasOutput p) :
    ∃ g₁, (addConnected g kind name sources).run supply =
        .ok (g.layers.length, g₁) supply.advance ∧
      ∀ info, ∃ g', (setInfo g₁ ⟨g.layers.length, 0⟩ info).run supply.advance =
          .ok g' supply.advance ∧
        Continues g [(⟨name, kind, sources, [info]⟩ : Draft).content] g' supply.advance := by
  obtain ⟨g₁, hadd, hcontinues⟩ := exists_addConnected h kind name sources hinputs hbinding hsources
  rw [houtputs] at hcontinues
  exact ⟨g₁, hadd, exists_setInfo hcontinues Nat.zero_lt_one⟩

/-! ### Descriptors -/

variable {index : Nat}

theorem exists_sourceInfo (hcomplete : s.graph.Complete) (hl : s.graph.layers[id]? = some l)
    (hindex : index < l.outputs.length) :
    ∃ info, sourceInfo l index = .ok info ∧ s.graph.info? ⟨id, index⟩ = some info := by
  have hslot : l.outputs[index]? = some l.outputs[index] := List.getElem?_eq_getElem hindex
  have hinfo : s.graph.info? ⟨id, index⟩ = l.outputs[index].info := by
    simp [info?, hl, hslot]
  have hcontent : s.graph.content? id = some l.content := by
    rw [content?, hl, Option.map_some]
  cases hopen : l.outputs[index].info with
  | none =>
    refine absurd ?_ (hcomplete id l.content hcontent).2
    exact List.mem_map.mpr ⟨l.outputs[index], List.getElem_mem hindex, hopen⟩
  | some info =>
    refine ⟨info, ?_, by rw [hinfo, hopen]⟩
    rw [sourceInfo, hslot, Option.bind_some, hopen]

/-- The descriptor of an output of a complete graph is only refused for its range. -/
theorem settles_quantizedInfo (hcomplete : s.graph.Complete) (hl : s.graph.layers[id]? = some l)
    (hindex : index < l.outputs.length) : Settles s (fun _ => True) (quantizedInfo s l index) := by
  obtain ⟨info, hinfo, -⟩ := exists_sourceInfo hcomplete hl hindex
  unfold quantizedInfo
  rw [hinfo]
  show Settles s _ (if info.elementType.isExact then _ else _)
  split
  · exact .ok trivial
  · split
    · refine (settles_compute _ _ _).bind fun parameters _ _ => ?_
      exact .ok trivial
    · exact .error (.refused (.missingRange _ _))

theorem settles_interiorInfo (hcomplete : s.graph.Complete) (hl : s.graph.layers[id]? = some l)
    (kind : LayerKind) (hindex : index < l.outputs.length) :
    Settles s (fun _ => True) (interiorInfo s l kind index) := by
  unfold interiorInfo
  split
  · exact .ok trivial
  · exact settles_quantizedInfo hcomplete hl hindex

/-! ### Adding counterparts -/

/-- What was added to the quantized graph stands for the layer, and the given position is that of
    its last layer. -/
def Adds (s : Setting) (id : LayerId) (l : Layer) (sources : List OutputRef) (g : Graph)
    (added : LayerId × Graph) (supply : GuidSupply) : Prop :=
  ∃ drafts, Counterpart s id l sources (g.firstScale sources) g.layers.length drafts ∧
    Continues g (drafts.map Draft.content) added.2 supply ∧
    added.1 + 1 = g.layers.length + drafts.length

variable {p : Progress} {binding : BindingId}

/-- A layer that is no boundary takes no binding. -/
theorem not_mem_bindings_of_binding? (hkind : kind.binding? = none) (direction : Direction)
    (b : BindingId) (h : kind = direction.kind b) : b ∉ g.bindings direction := by
  rw [h, binding?_directionKind] at hkind
  cases hkind

/-- A boundary layer takes its own binding only. -/
theorem not_mem_bindings_of_direction {direction : Direction} (h : binding ∉ g.bindings direction)
    (other : Direction) (b : BindingId) (heq : direction.kind binding = other.kind b) :
    b ∉ g.bindings other := by
  cases direction with
  | input =>
    cases other with
    | input => cases heq; exact h
    | output => cases heq
  | output =>
    cases other with
    | input => cases heq
    | output => cases heq; exact h

/-- An input is followed by a quantizing layer when it is kept. -/
theorem ends_addInput (hcomplete : s.graph.Complete) (hl : s.graph.layers[id]? = some l)
    (hslots : l.outputs.length = l.kind.outputCount) (hkind : l.kind = .input binding)
    (hgrown : Grown p.target supply) (hbinding : binding ∉ p.target.bindings .input) :
    Build.Ends s.Fails (Adds s id l sources p.target)
      ((addInput s p l binding).run supply) := by
  have hindex : 0 < l.outputs.length := by
    rw [hslots, hkind]
    exact Nat.zero_lt_one
  obtain ⟨described, hsource, hdescribed⟩ := exists_sourceInfo hcomplete hl hindex
  have hkept : s.keptAs id l.kind = (s.options.preserveType && described.elementType.isFloat) := by
    rw [hkind]
    show s.keeps (s.graph.info? ⟨id, 0⟩) = _
    rw [hdescribed]
    rfl
  obtain ⟨g₁, hadd, hdescribe⟩ :=
    exists_addDescribed hgrown (.input binding) l.name [] rfl rfl
      (not_mem_bindings_of_direction hbinding) (by simp)
  unfold addInput
  refine Build.Ends.bind_of_ok hadd ?_
  rw [hsource]
  refine Build.Ends.bind_of_ok rfl ?_
  refine Build.Ends.bind_ofExcept (settles_quantizedInfo hcomplete hl hindex) ?_
  intro info hinfo _
  dsimp only
  split
  · next hkeep =>
    rw [← hkept] at hkeep
    -- The input keeps its descriptor, and the layer behind it has the quantized one.
    obtain ⟨g₂, hset, hcontinues⟩ := hdescribe described
    have hlength : g₂.layers.length = p.target.layers.length + 1 := hcontinues.length
    have hslot : g₂.HasOutput ⟨p.target.layers.length, 0⟩ :=
      hcontinues.hasOutput_new Nat.zero_lt_one
    obtain ⟨g₃, hadd₃, hdescribe₃⟩ := exists_addDescribed hcontinues.grown .quantize
      (l.name ++ ":Quantize") [⟨p.target.layers.length, 0⟩] rfl rfl
      (not_mem_bindings_of_binding? rfl) (List.forall_mem_singleton.mpr hslot)
    obtain ⟨g₄, hset₄, hcontinues₄⟩ := hdescribe₃ info
    refine Build.Ends.bind_of_ok hset ?_
    refine Build.Ends.bind_of_ok hadd₃ ?_
    refine Build.Ends.bind_of_ok hset₄ (.ok ?_)
    refine ⟨_, .keptInput hkind hkeep hdescribed hinfo, hcontinues.trans hcontinues₄, ?_⟩
    show g₂.layers.length + 1 = p.target.layers.length + 2
    omega
  · next hkeep =>
    rw [Bool.not_eq_true, ← hkept] at hkeep
    obtain ⟨g₂, hset, hcontinues⟩ := hdescribe info
    refine Build.Ends.bind_of_ok hset (.ok ?_)
    exact ⟨_, .input hkind hkeep hinfo, hcontinues, rfl⟩

/-- An output that is not kept is added alone. -/
theorem ends_addPlainOutput {source : OutputRef} (hkind : l.kind = .output binding)
    (hkept : s.keptAs id l.kind = false) (hgrown : Grown p.target supply)
    (hbinding : binding ∉ p.target.bindings .output) (hsource : p.target.HasOutput source) :
    Build.Ends s.Fails (Adds s id l [source] p.target)
      ((addConnected p.target (.output binding) l.name [source]).run supply) := by
  obtain ⟨g₁, hadd, hcontinues⟩ := exists_addConnected hgrown (.output binding) l.name [source] rfl
    (not_mem_bindings_of_direction hbinding) (List.forall_mem_singleton.mpr hsource)
  rw [hadd]
  exact .ok ⟨_, .output hkind hkept rfl, hcontinues, rfl⟩

/-- An output comes behind a dequantizing layer when it is kept. -/
theorem ends_addOutput {source : OutputRef} (hkind : l.kind = .output binding)
    (hgrown : Grown p.target supply) (hbinding : binding ∉ p.target.bindings .output)
    (hsource : p.target.HasOutput source) :
    Build.Ends s.Fails (Adds s id l [source] p.target)
      ((addOutput s p id l binding [source]).run supply) := by
  have hkept : s.keptAs id l.kind = s.keeps (s.graph.inputInfo? ⟨id, 0⟩) := by
    rw [hkind]
    rfl
  unfold addOutput
  dsimp only
  split
  · next described hdescribed =>
    obtain ⟨hinfo, hfloat⟩ := Option.filter_eq_some_iff.mp hdescribed
    have hkept : s.keptAs id l.kind = s.options.preserveType := by
      rw [hkept, hinfo]
      show (s.options.preserveType && described.elementType.isFloat) = _
      rw [hfloat, Bool.and_true]
    split
    · next hpreserve =>
      -- The output reads the dequantizing layer, which has the descriptor of the source.
      obtain ⟨g₁, hadd, hdescribe⟩ := exists_addDescribed hgrown .dequantize
        (l.name ++ ":Dequantize") [source] rfl rfl (not_mem_bindings_of_binding? rfl)
        (List.forall_mem_singleton.mpr hsource)
      obtain ⟨g₂, hset, hcontinues⟩ := hdescribe described
      have hslot : g₂.HasOutput ⟨p.target.layers.length, 0⟩ :=
        hcontinues.hasOutput_new Nat.zero_lt_one
      have hbinding₂ : binding ∉ g₂.bindings .output := by
        rw [hcontinues.mem_bindings_iff hgrown.sound.coherent]
        simpa [Draft.content, Direction.kind] using hbinding
      obtain ⟨g₃, hadd₃, hcontinues₃⟩ := exists_addConnected hcontinues.grown (.output binding)
        l.name [⟨p.target.layers.length, 0⟩] rfl (not_mem_bindings_of_direction hbinding₂)
        (List.forall_mem_singleton.mpr hslot)
      refine Build.Ends.bind_of_ok hadd ?_
      refine Build.Ends.bind_of_ok hset ?_
      dsimp only
      rw [hadd₃]
      refine .ok ⟨_, .keptOutput hkind (hkept.trans hpreserve) hinfo rfl,
        hcontinues.trans hcontinues₃, ?_⟩
      have hlength : g₂.layers.length = p.target.layers.length + 1 := hcontinues.length
      show g₂.layers.length + 1 = p.target.layers.length + 2
      omega
    · next hpreserve =>
      rw [Bool.not_eq_true] at hpreserve
      exact ends_addPlainOutput hkind (hkept.trans hpreserve) hgrown hbinding hsource
  · next hnone =>
    -- Without a floating-point source there is nothing to keep, whatever the options say.
    refine ends_addPlainOutput hkind ?_ hgrown hbinding hsource
    rw [hkept]
    unfold Setting.keeps
    cases hinfo : s.graph.inputInfo? ⟨id, 0⟩ with
    | none => simp
    | some described =>
      rw [hinfo] at hnone
      simpa using fun _ => Option.filter_eq_none_iff.mp hnone described rfl

/-- An output that was added had a binding that was not taken. -/
theorem not_mem_bindings_of_addOutput {inputs : List OutputRef} {added : LayerId × Graph}
    {supply' : GuidSupply} (hgrown : Grown p.target supply)
    (hsources : ∀ p' ∈ inputs, p.target.HasOutput p')
    (h : (addOutput s p id l binding inputs).run supply = .ok added supply') :
    binding ∉ p.target.bindings .output := by
  unfold addOutput at h
  split at h
  · next source =>
    split at h
    · next described hdescribed =>
      split at h
      · -- The dequantizing layer comes before, and takes no binding.
        obtain ⟨g₁, hadd, hdescribe⟩ := exists_addDescribed hgrown .dequantize
          (l.name ++ ":Dequantize") [source] rfl rfl (not_mem_bindings_of_binding? rfl) hsources
        obtain ⟨g₂, hset, hcontinues⟩ := hdescribe described
        rw [Build.run_bind_of_ok hadd, Build.run_bind_of_ok hset] at h
        intro hmem
        refine not_mem_bindings_of_addConnected h .output binding rfl ?_
        exact (hcontinues.mem_bindings_iff hgrown.sound.coherent).mpr (.inl hmem)
      · exact not_mem_bindings_of_addConnected h .output binding rfl
    · exact not_mem_bindings_of_addConnected h .output binding rfl
  · cases h

/-- The layer behind `g` says what `c` says, with the given slots described and the slots after these
    open. -/
def Filled (s : Setting) (l : Layer) (g : Graph) (c : LayerContent) (slots : List Nat) (g' : Graph)
    (supply : GuidSupply) : Prop :=
  ∃ infos, slots.mapM (interiorInfo s l c.kind) = .ok infos ∧
    Continues g [{ c with
      infos := infos.map some ++ List.replicate (l.outputs.length - infos.length) none }] g' supply

/-- The next slot is described, or its range refused. -/
theorem Filled.ends_setInfo {c : LayerContent} {slots : List Nat}
    (h : Filled s l g c slots g' supply) (hlt : slots.length < l.outputs.length)
    (hinfo : Settles s (fun _ => True) (interiorInfo s l c.kind slots.length)) :
    Build.Ends s.Fails (Filled s l g c (slots ++ [slots.length]))
      ((Build.ofExcept (interiorInfo s l c.kind slots.length) >>= fun info =>
        setInfo g' ⟨g.layers.length, slots.length⟩ info).run supply) := by
  obtain ⟨infos, hslots, hcontinues⟩ := h
  have hlength : slots.length = infos.length := (Except.mapM_eq_ok_iff.mp hslots).length_eq
  refine Build.Ends.bind_ofExcept hinfo ?_
  intro info hinfo _
  have hslot : slots.length < (infos.map some ++
      List.replicate (l.outputs.length - infos.length) none).length := by
    simp only [List.length_append, List.length_map, List.length_replicate]
    omega
  obtain ⟨g₁, hset, hcontinues₁⟩ := exists_setInfo hcontinues hslot info
  rw [hset]
  have hinfos := Except.mapM_concat_eq_ok_iff.mpr ⟨infos, info, hslots, hinfo, rfl⟩
  refine .ok ⟨infos ++ [info], hinfos, ?_⟩
  -- The first open slot is the one that was described.
  have hopen : l.outputs.length - infos.length = l.outputs.length - (infos.length + 1) + 1 := by
    omega
  have hinfos : (infos.map some ++ List.replicate (l.outputs.length - infos.length) none).set
      slots.length (some info) = (infos ++ [info]).map some ++
        List.replicate (l.outputs.length - (infos ++ [info]).length) none := by
    rw [hopen, List.replicate_succ, hlength]
    simp
  rw [← hinfos]
  exact hcontinues₁

/-- The slots of a layer inside the graph are described one after another. -/
theorem ends_describe {g₁ : Graph} {inputs : List (Option OutputRef)}
    (hinfos : ∀ index < l.outputs.length, Settles s (fun _ => True) (interiorInfo s l kind index))
    (h : Continues g [⟨name, kind, inputs, List.replicate l.outputs.length none⟩] g₁ supply) :
    Build.Ends s.Fails
      (fun g' t => ∃ infos,
        (List.range l.outputs.length).mapM (interiorInfo s l kind) = .ok infos ∧
          Continues g [⟨name, kind, inputs, infos.map some⟩] g' t)
      (((List.range l.outputs.length).foldlM (fun g' index => do
        setInfo g' ⟨g.layers.length, index⟩ (← Build.ofExcept (interiorInfo s l kind index)))
          g₁).run supply) := by
  have hopen : Filled s l g ⟨name, kind, inputs, []⟩ [] g₁ supply := ⟨[], rfl, by simpa using h⟩
  refine Build.Ends.mono (Build.Ends.foldlM ?_ hopen) ?_
  · intro slots index after g₂ t hrange hfilled
    obtain ⟨hindex, hlt⟩ : slots.length = index ∧ slots.length < l.outputs.length := by
      have hget : (List.range l.outputs.length)[slots.length]? = some index := by
        rw [hrange]
        simp
      obtain ⟨hlt, heq⟩ := List.getElem?_eq_some_iff.mp hget
      rw [List.getElem_range] at heq
      rw [List.length_range] at hlt
      exact ⟨heq, hlt⟩
    subst hindex
    exact hfilled.ends_setInfo hlt (hinfos _ hlt)
  · rintro g' t ⟨infos, hslots, hcontinues⟩
    have hlength : infos.length = l.outputs.length := by
      simpa using (Except.mapM_eq_ok_iff.mp hslots).length_eq.symm
    rw [hlength, Nat.sub_self, List.replicate_zero, List.append_nil] at hcontinues
    exact ⟨infos, hslots, hcontinues⟩

/-- A layer inside the graph keeps its name and what it reads. -/
theorem ends_addInterior (hcomplete : s.graph.Complete) (hl : s.graph.layers[id]? = some l)
    (hslots : l.outputs.length = l.kind.outputCount)
    (hinputs : sources.length = l.kind.inputCount) (hgrown : Grown p.target supply)
    (hsources : ∀ p' ∈ sources, p.target.HasOutput p') :
    Build.Ends s.Fails (Adds s id l sources p.target)
      ((addInterior s p l sources).run supply) := by
  unfold addInterior
  refine Build.Ends.bind_ofExcept (settles_quantizedKind (List.mem_of_getElem? hl) hinputs) ?_
  intro kind _ hkind
  obtain ⟨g₁, hadd, hcontinues⟩ := exists_addConnected hgrown kind l.name sources
    (by rw [hkind.inputCount, hinputs]) (not_mem_bindings_of_binding? hkind.binding?.2) hsources
  refine Build.Ends.bind_of_ok hadd ?_
  rw [hkind.outputCount, ← hslots] at hcontinues
  dsimp only
  refine (ends_describe (fun index => settles_interiorInfo hcomplete hl kind) hcontinues).bind ?_
  rintro g' t ⟨infos, hinfos, hcontinues⟩
  exact .ok ⟨_, .interior hkind hinfos, hcontinues, rfl⟩

end Quantizer

end LayerGraph
