import LayerGraph.Proofs.Quantize.Simulation

/-! # Quantizing a graph

  Main statements: a quantized graph simulates the graph that it was made from, and has its
  bindings in the same order (`Coherent.quantize_simulates`). A graph that is refused is not
  complete, or has something that cannot be quantized (`Coherent.quantize_error`).

  Both follow from one invariant of the layers visited so far (`Reached`). A visit either keeps it,
  for one layer more, or refuses the layer (`Reached.ends_visit`). It never refuses for want of a
  producer, since producers are visited first and the table leads from their identities to live
  layers. Nor does the quantized graph refuse a change: bindings differ in it as they do in the
  graph, and a counterpart has as many slots as its layer.
-/

namespace LayerGraph

namespace Quantizer

open LayerGraph.Graph

variable {s : Setting} {p p' : Progress} {φ : LayerId → LayerId} {id : LayerId} {l : Layer}
variable {done : List LayerId} {supply supply' : GuidSupply} {sources : List OutputRef}

/-! ### The invariant of the rewriting -/

/-- The layers in `done` have counterparts, and the table leads to them. -/
structure Reached (s : Setting) (done : List LayerId) (p : Progress) (φ : LayerId → LayerId)
    (supply : GuidSupply) : Prop where
  grown : Grown p.target supply
  complete : p.target.Complete
  exist : ∀ id ∈ done, ∃ l, s.graph.layers[id]? = some l
  simulates : Simulates s done p.target φ
  /-- The table has the identities of the layers, with the places of their counterparts. -/
  places : ∀ id ∈ done, ∀ guid, s.graph.guid? id = some guid → p.place? guid = some (φ id)

theorem reached_first (s : Setting) (supply : GuidSupply) :
    Reached s [] ⟨.empty, []⟩ (fun id => id) supply where
  grown := grown_empty supply
  complete := by
    intro id c hc
    exact absurd (lt_of_content? hc) (Nat.not_lt_zero id)
  exist := by simp
  simulates := ⟨by simp, fun k hk => absurd hk (Nat.not_lt_zero k)⟩
  places := by simp

/-- What stands for a tensor is found by the identity of its producer. -/
theorem Reached.quantizedInput_eq_ok (h : Reached s done p φ supply) {source : OutputRef}
    (hdone : source.layer ∈ done) (index : Nat) :
    quantizedInput s p l index (some source) = .ok (counterpartSlot φ source) := by
  obtain ⟨l', hl'⟩ := h.exist source.layer hdone
  have hguid : s.graph.guid? source.layer = some l'.guid := by
    rw [guid?, hl', Option.map_some]
  have hplace := h.places source.layer hdone l'.guid hguid
  have hidentity : identity s.graph source.layer l.guid = l'.guid := by
    rw [identity, hl', Option.map_some, Option.getD_some]
  unfold quantizedInput
  dsimp only
  rw [hidentity, hplace]
  rfl

theorem Reached.mapM_quantizedInput (h : Reached s done p φ supply)
    (hsources : l.inputs = sources.map some) (hproducers : ∀ p ∈ sources, p.layer ∈ done) :
    (l.inputs.zipIdx.mapM fun entry => quantizedInput s p l entry.2 entry.1) =
      .ok (sources.map (counterpartSlot φ)) := by
  have hall (position : Nat) (rest : List OutputRef) (hrest : ∀ p ∈ rest, p.layer ∈ done) :
      List.Forall₂ (fun entry p' => quantizedInput s p l entry.2 entry.1 = .ok p')
        ((rest.map some).zipIdx position) (rest.map (counterpartSlot φ)) := by
    induction rest generalizing position with
    | nil => exact .nil
    | cons source rest ih =>
      obtain ⟨hsource, hrest⟩ := List.forall_mem_cons.mp hrest
      exact .cons (h.quantizedInput_eq_ok hsource position) (ih (position + 1) hrest)
  rw [Except.mapM_eq_ok_iff, hsources]
  exact hall 0 sources hproducers

/-- What stands for the things that a layer reads can be read. -/
theorem Reached.hasOutput (h : Reached s done p φ supply) (hg : s.graph.Linked)
    (hl : s.graph.layers[id]? = some l) (hsources : l.inputs = sources.map some)
    (hproducers : ∀ p ∈ sources, p.layer ∈ done) :
    ∀ p' ∈ sources.map (counterpartSlot φ), p.target.HasOutput p' := by
  intro p' hp'
  obtain ⟨source, hsource, rfl⟩ := List.mem_map.mp hp'
  have hcontent : s.graph.content? id = some l.content := by
    rw [content?, hl, Option.map_some]
  have hread : some source ∈ l.content.inputs := by
    show some source ∈ l.inputs
    rw [hsources]
    exact List.mem_map_of_mem hsource
  have hslot : s.graph.HasOutput source := hg.hasOutput_of_content? hcontent hread
  exact h.simulates.hasOutput hg (hproducers source hsource) hslot

/-- The binding of the next layer is that of no layer before it. -/
theorem Reached.not_mem_bindings (h : Reached s done p φ supply) (hg : s.graph.Coherent)
    (hl : s.graph.layers[id]? = some l) (hnew : id ∉ done) {direction : Direction} {b : BindingId}
    (hkind : l.kind = direction.kind b) : b ∉ p.target.bindings direction := by
  rw [h.simulates.mem_bindings_iff h.grown.sound.coherent h.exist]
  rintro ⟨a, ha, hkind'⟩
  have hkind? : s.graph.kind? id = some (direction.kind b) := by
    rw [Graph.kind?, hl, Option.map_some, hkind]
  have hsame : id = a := hg.kind_injective hkind? hkind'
  exact hnew (hsame ▸ ha)

/-! ### Entering a counterpart -/

variable {guid guid' : LayerGuid} {target : Graph} {gain : List LayerContent}

/-- The entry of an identity leads to the layer that it was made for. -/
theorem place?_entered {layer : LayerId} (htarget : target.Coherent)
    (hlayer : layer < target.layers.length) (guid : LayerGuid)
    (counterparts : List (LayerGuid × LayerGuid)) :
    Progress.place? ⟨target, (guid, identity target layer guid) :: counterparts⟩ guid =
      some layer := by
  have hidentity : target.guid? layer = some (identity target layer guid) := by
    rw [identity, guid?, List.getElem?_eq_getElem hlayer]
    rfl
  show (List.lookup guid ((guid, _) :: counterparts)).bind target.findGuid? = _
  rw [List.lookup_cons, beq_self_eq_true]
  exact (htarget.guids _ layer).mpr hidentity

/-- The other entries lead where they led. -/
theorem place?_of_ne {entry : LayerGuid} (hne : guid ≠ guid') (hp : p.target.Coherent)
    (hcontinues : Continues p.target gain target supply) (h : p.place? guid = some id) :
    Progress.place? ⟨target, (guid', entry) :: p.counterparts⟩ guid = some id := by
  obtain ⟨found, hentry, hfind⟩ := Option.bind_eq_some_iff.mp h
  have hother : (guid == guid') = false := beq_eq_false_iff_ne.mpr hne
  show (List.lookup guid (_ :: p.counterparts)).bind target.findGuid? = _
  rw [List.lookup_cons, hother, hentry]
  exact hcontinues.findGuid? hp hfind

/-- What was added for the next layer is entered for its identity. -/
theorem Reached.append (h : Reached s done p φ supply) (hg : s.graph.Linked)
    (hl : s.graph.layers[id]? = some l) (hnew : id ∉ done)
    (hclosed : ∀ a b, s.graph.Feeds a b → b ∈ done ++ [id] → a ∈ done)
    {layer : LayerId} {target : Graph}
    (hadds : Adds s id l sources p.target (layer, target) supply')
    (hsources : (l.content.renumber φ).inputs = sources.map some) :
    Reached s (done ++ [id])
      ⟨target, (l.guid, identity target layer l.guid) :: p.counterparts⟩
      (Function.update φ id layer) supply' := by
  have hsimulates := h.simulates.append hl hnew h.exist hclosed hadds hsources
  have hlayer : layer < target.layers.length := by
    have hstands := hsimulates.stands id (by simp) l hl
    have hlt := hstands.lt
    rw [Function.update_self] at hlt
    exact hlt
  obtain ⟨drafts, -, hcontinues, -⟩ := hadds
  refine ⟨hcontinues.grown, hcontinues.complete h.complete, ?_, hsimulates, ?_⟩
  · intro a ha
    rcases List.mem_append.mp ha with hmem | hmem
    · exact h.exist a hmem
    · obtain rfl := List.mem_singleton.mp hmem
      exact ⟨l, hl⟩
  · intro a ha guid hguid
    have hlguid : s.graph.guid? id = some l.guid := by
      rw [guid?, hl, Option.map_some]
    rcases List.mem_append.mp ha with hmem | hmem
    · -- An older layer has another identity, so its entry is found behind the new one.
      have hne : a ≠ id := by
        intro heq
        exact hnew (heq ▸ hmem)
      have hother : guid ≠ l.guid := by
        intro heq
        exact hne (hg.guid_injective (heq ▸ hguid) hlguid)
      rw [Function.update_of_ne hne]
      exact place?_of_ne hother h.grown.sound.coherent hcontinues (h.places a hmem guid hguid)
    · obtain rfl := List.mem_singleton.mp hmem
      obtain rfl : guid = l.guid := Option.some.inj (hguid.symm.trans hlguid)
      rw [Function.update_self]
      exact place?_entered hcontinues.grown.sound.coherent hlayer l.guid p.counterparts

/-- The layer comes next: it was not visited yet, and the layers that it reads were. -/
structure Next (s : Setting) (done : List LayerId) (id : LayerId) (l : Layer) : Prop where
  layer : s.graph.layers[id]? = some l
  fresh : id ∉ done
  closed : ∀ a b, s.graph.Feeds a b → b ∈ done ++ [id] → a ∈ done

/-- What the next layer reads was visited before it, and so has a counterpart. -/
theorem Next.exists_sources (h : Next s done id l) (hcomplete : s.graph.Complete) :
    ∃ sources : List OutputRef, l.inputs = sources.map some ∧
      ∀ p ∈ sources, p.layer ∈ done := by
  have hcontent : s.graph.content? id = some l.content := by
    rw [content?, h.layer, Option.map_some]
  obtain ⟨sources, -, hsources, -⟩ := hcomplete.slots hcontent
  have hsources : l.inputs = sources.map some := hsources
  refine ⟨sources, hsources, ?_⟩
  intro p hp
  have hread : some p ∈ l.content.inputs := by
    show some p ∈ l.inputs
    rw [hsources]
    exact List.mem_map_of_mem hp
  exact h.closed p.layer id (feeds_of_content? hcontent hread) (by simp)

/-- The places of the counterparts once a layer has been visited. Its own counterpart is the last
    layer of the quantized graph. -/
def Progress.placing (p : Progress) (φ : LayerId → LayerId) (id : LayerId) : LayerId → LayerId :=
  Function.update φ id (p.target.layers.length - 1)

/-- The next layer is given a counterpart, or refused, when its binding is not taken. -/
theorem Reached.ends_visit (h : Reached s done p φ supply) (hg : s.graph.Linked)
    (hcomplete : s.graph.Complete) (hnext : Next s done id l)
    (hfree : ∀ direction b, l.kind = direction.kind b → b ∉ p.target.bindings direction) :
    Build.Ends s.Fails
      (fun p' t => Reached s (done ++ [id]) p' (p'.placing φ id) t)
      ((visit s p id l).run supply) := by
  have hl := hnext.layer
  obtain ⟨hinputs, hslots⟩ := hg.slots id l hl
  obtain ⟨sources, hsources, hproducers⟩ := hnext.exists_sources hcomplete
  have hcount : (sources.map (counterpartSlot φ)).length = l.kind.inputCount := by
    rw [← hinputs, hsources, List.length_map, List.length_map]
  have hrenumbered : (l.content.renumber φ).inputs = _ := inputs_renumber hsources
  have hreadable := h.hasOutput hg hl hsources hproducers
  have hfound := h.mapM_quantizedInput hsources hproducers
  generalize sources.map (counterpartSlot φ) = counterparts at hrenumbered hcount hreadable hfound
  unfold visit
  refine Build.Ends.bind_of_ok (a := counterparts) (t := supply) ?_ ?_
  · exact Build.ofExcept_eq_ok_iff.mpr ⟨hfound, rfl⟩
  -- Whatever the layer is, its counterpart is entered when it was added.
  have hentered (added : LayerId × Graph) (t : GuidSupply)
      (hadds : Adds s id l counterparts p.target added t) :
      Build.Ends s.Fails
        (fun p' t => Reached s (done ++ [id]) p' (p'.placing φ id) t)
        (EStateM.Result.ok
          ⟨added.2, (l.guid, identity added.2 added.1 l.guid) :: p.counterparts⟩ t) := by
    have hlast : added.2.layers.length - 1 = added.1 := by
      rw [hadds.place.2, Nat.add_sub_cancel]
    refine .ok ?_
    show Reached s _ _ (Function.update φ id (added.2.layers.length - 1)) t
    rw [hlast]
    exact h.append hg hl hnext.fresh hnext.closed hadds hrenumbered
  dsimp only
  split
  · next binding hkind =>
    exact (ends_addInput hcomplete hl hslots hkind h.grown (hfree .input _ hkind)).bind hentered
  · next binding hkind =>
    obtain ⟨source, rfl⟩ : ∃ source, counterparts = [source] := by
      rw [hkind] at hcount
      exact List.length_eq_one_iff.mp hcount
    have hsource := hreadable source List.mem_cons_self
    exact (ends_addOutput hkind h.grown (hfree .output _ hkind) hsource).bind hentered
  · exact (ends_addInterior hcomplete hl hslots hcount h.grown hreadable).bind hentered

/-- A layer that was visited had a binding that was not taken, or it would have been refused. -/
theorem Reached.not_mem_bindings_of_visit (h : Reached s done p φ supply) (hg : s.graph.Linked)
    (hcomplete : s.graph.Complete) (hnext : Next s done id l)
    (hrun : (visit s p id l).run supply = .ok p' supply') (direction : Direction) (b : BindingId)
    (hkind : l.kind = direction.kind b) : b ∉ p.target.bindings direction := by
  obtain ⟨sources, hsources, hproducers⟩ := hnext.exists_sources hcomplete
  have hreadable := h.hasOutput hg hnext.layer hsources hproducers
  have hfound := h.mapM_quantizedInput hsources hproducers
  obtain ⟨inputs, t, hread, hrest⟩ := Build.bind_eq_ok_iff.mp hrun
  obtain ⟨hinputs, rfl⟩ := Build.ofExcept_eq_ok_iff.mp hread
  obtain rfl : inputs = sources.map (counterpartSlot φ) :=
    Except.ok.inj (hinputs.symm.trans hfound)
  simp only [hkind] at hrest
  cases direction with
  | input =>
    obtain ⟨added, t, hadd, -⟩ := Build.bind_eq_ok_iff.mp hrest
    obtain ⟨first, t, hfirst, -⟩ := Build.bind_eq_ok_iff.mp hadd
    exact not_mem_bindings_of_addConnected hfirst .input b rfl
  | output =>
    obtain ⟨added, t, hadd, -⟩ := Build.bind_eq_ok_iff.mp hrest
    exact not_mem_bindings_of_addOutput h.grown hreadable hadd

/-- The layers come in an order in which each of them is next when those before it were visited. -/
theorem next_of_orderedLayers (hg : s.graph.Linked) {done after : List (LayerId × Layer)}
    (h : s.graph.orderedLayers = done ++ (id, l) :: after) : Next s (done.map Prod.fst) id l := by
  obtain ⟨hlayer, hfresh, hclosed⟩ := hg.place_of_orderedLayers h
  exact ⟨hlayer, hfresh, hclosed⟩

/-! ### Whole graphs -/

/-- The quantized graph on the way when the given layers were visited. -/
def visitAll (s : Setting) (entries : List (LayerId × Layer)) : Build QuantizationError Progress :=
  entries.foldlM (fun p entry => visit s p entry.1 entry.2) ⟨.empty, []⟩

/-- All layers are given counterparts, or one of them is refused. -/
theorem ends_rewrite (hg : s.graph.Coherent) (hcomplete : s.graph.Complete) (supply : GuidSupply) :
    Build.Ends s.Fails
      (fun p t => ∃ φ, Reached s s.graph.topologicalOrder p φ t)
      ((visitAll s s.graph.orderedLayers).run supply) := by
  rw [← hg.linked.map_fst_orderedLayers]
  refine Build.Ends.foldlM (P := fun done p t => ∃ φ, Reached s (done.map Prod.fst) p φ t) ?_
    ⟨_, reached_first s supply⟩
  rintro done ⟨id, l⟩ after p t heq ⟨φ, hreached⟩
  have hnext := next_of_orderedLayers hg.linked heq
  rw [List.map_append]
  refine (hreached.ends_visit hg.linked hcomplete hnext fun direction b hkind => ?_).mono ?_
  · exact hreached.not_mem_bindings hg hnext.layer hnext.fresh hkind
  · intro p' t' h
    exact ⟨_, h⟩

/-- The layers that were visited have counterparts. -/
theorem reached_of_visitAll (hg : s.graph.Linked) (hcomplete : s.graph.Complete)
    {done after : List (LayerId × Layer)} (h : s.graph.orderedLayers = done ++ after)
    (hrun : (visitAll s done).run supply = .ok p supply') :
    ∃ φ, Reached s (done.map Prod.fst) p φ supply' := by
  -- Whatever was refused is of no interest here.
  have hends : Build.Ends (fun _ => True)
      (fun p t => ∃ φ, Reached s (done.map Prod.fst) p φ t) ((visitAll s done).run supply) := by
    refine Build.Ends.foldlM (P := fun done p t => ∃ φ, Reached s (done.map Prod.fst) p φ t) ?_
      ⟨_, reached_first s supply⟩
    rintro before ⟨id, l⟩ rest p t heq ⟨φ, hreached⟩
    have hsplit : s.graph.orderedLayers = before ++ (id, l) :: (rest ++ after) := by
      rw [h, heq, List.append_assoc, List.cons_append]
    have hnext := next_of_orderedLayers hg hsplit
    rw [List.map_append]
    cases hvisit : (visit s p id l).run t with
    | error e t' => exact .error trivial
    | ok p' t' =>
      have hfree := hreached.not_mem_bindings_of_visit hg hcomplete hnext hvisit
      have hstep := hreached.ends_visit hg hcomplete hnext hfree
      exact .ok ⟨_, hstep.post_of_ok hvisit⟩
  exact hends.post_of_ok hrun

end Quantizer

namespace Graph

open LayerGraph.Quantizer

variable {g q : Graph} {ranges : RangeTable} {options : QuantizerOptions}
variable {supply supply' : GuidSupply}

/-- A boundary is put in an order of the bindings that it has. -/
theorem Coherent.exists_reordered {direction : Direction} {order : List BindingId}
    (hg : g.Coherent) (hnodup : order.Nodup) (horder : ∀ b, b ∈ order ↔ b ∈ g.bindings direction)
    (supply : GuidSupply) :
    ∃ g', (change (.ofExcept (g.reorder direction order))).run supply = .ok g' supply ∧
      g.Reordered direction order g' := by
  have hperm : order.Perm (g.bindings direction) :=
    (List.perm_ext_iff_of_nodup hnodup (hg.bindings_nodup direction)).mpr horder
  obtain ⟨g', hreorder⟩ := hg.exists_reorder hperm
  exact ⟨g', change_ofExcept_of_ok hreorder supply, hg.reorder hreorder⟩

/-- When all layers are stood for, so are all bindings. -/
theorem mem_bindings_of_reached {s : Setting} {p : Progress} {φ : LayerId → LayerId}
    (h : Reached s s.graph.topologicalOrder p φ supply) (hg : s.graph.Coherent)
    (direction : Direction) (b : BindingId) :
    b ∈ s.graph.bindings direction ↔ b ∈ p.target.bindings direction := by
  rw [h.simulates.mem_bindings_iff h.grown.sound.coherent h.exist, hg.mem_bindings_iff]
  constructor
  · rintro ⟨id, hkind⟩
    obtain ⟨l, hl, -⟩ := Option.map_eq_some_iff.mp hkind
    have hlt : id < s.graph.layers.length := (List.getElem?_eq_some_iff.mp hl).1
    exact ⟨id, hg.linked.mem_topologicalOrder_iff.mpr hlt, hkind⟩
  · rintro ⟨id, -, hkind⟩
    exact ⟨id, hkind⟩

/-- What is known of a graph that was quantized. -/
structure Quantized (s : Setting) (ids : List LayerId) (q : Graph) : Prop where
  coherent : q.Coherent
  complete : q.Complete
  bindings : ∀ direction, q.bindings direction = s.graph.bindings direction
  simulates : ∃ φ, Simulates s ids q φ

/-- The boundaries are put in order when all layers are stood for. -/
theorem quantized_of_reordered {s : Setting} {ids : List LayerId} {p : Progress}
    {φ : LayerId → LayerId} {q₁ q₂ : Graph} (h : Reached s ids p φ supply)
    (hq₁ : p.target.Reordered .input (s.graph.bindings .input) q₁)
    (hq₂ : q₁.Reordered .output (s.graph.bindings .output) q₂) : Quantized s ids q₂ := by
  have hlayers : q₂.layers = p.target.layers := hq₂.layers.trans hq₁.layers
  refine ⟨hq₂.coherent, ?_, ?_, φ, h.simulates.of_layers hlayers⟩
  · intro id c hc
    rw [content?, hlayers] at hc
    exact h.complete id c hc
  · intro direction
    rw [hq₂.bindings]
    split
    · next heq => rw [heq]
    · next hne =>
      have hinput : direction = .input := by
        cases direction with
        | input => rfl
        | output => exact absurd rfl hne
      rw [hq₁.bindings, if_pos hinput, hinput]

/-- Puts the boundaries of a quantized graph in the order of the graph. -/
def putInOrder (s : Setting) (target : Graph) : Build QuantizationError Graph := do
  let target ← change (.ofExcept (target.reorder .input (s.graph.bindings .input)))
  change (.ofExcept (target.reorder .output (s.graph.bindings .output)))

theorem quantize_eq (g : Graph) (ranges : RangeTable) (options : QuantizerOptions) :
    g.quantize ranges options = (do
      change (.ofExcept g.validate)
      let p ← visitAll ⟨g, ranges, options⟩ g.orderedLayers
      putInOrder ⟨g, ranges, options⟩ p.target) := rfl

/-- The boundaries can be put in order: the bindings are there already, in the order in which their
    layers were visited. -/
theorem exists_putInOrder {s : Setting} {p : Progress} {φ : LayerId → LayerId}
    (h : Reached s s.graph.topologicalOrder p φ supply) (hg : s.graph.Coherent) :
    ∃ q, (putInOrder s p.target).run supply = .ok q supply ∧ q.layers = p.target.layers ∧
      Quantized s s.graph.topologicalOrder q := by
  have htarget : p.target.Coherent := h.grown.sound.coherent
  have hbindings := mem_bindings_of_reached h hg
  obtain ⟨q₁, hrun₁, hq₁⟩ :=
    htarget.exists_reordered (hg.bindings_nodup .input) (hbindings .input) supply
  have hbindings₁ (b : BindingId) :
      b ∈ s.graph.bindings .output ↔ b ∈ q₁.bindings .output := by
    rw [hq₁.bindings, if_neg (by decide)]
    exact hbindings .output b
  obtain ⟨q₂, hrun₂, hq₂⟩ :=
    hq₁.coherent.exists_reordered (hg.bindings_nodup .output) hbindings₁ supply
  refine ⟨q₂, ?_, hq₂.layers.trans hq₁.layers, quantized_of_reordered h hq₁ hq₂⟩
  unfold putInOrder
  rw [Build.run_bind_of_ok hrun₁, hrun₂]

/-- A complete graph is quantized, unless it has something that is refused. -/
theorem Coherent.ends_quantize (hg : g.Coherent) (hcomplete : g.Complete) (ranges : RangeTable)
    (options : QuantizerOptions) (supply : GuidSupply) :
    Build.Ends (Setting.Fails ⟨g, ranges, options⟩)
      (fun q _ => Quantized ⟨g, ranges, options⟩ g.topologicalOrder q)
      ((g.quantize ranges options).run supply) := by
  have hvalid : (change (.ofExcept g.validate)).run supply = .ok () supply :=
    change_ofExcept_of_ok (validate_eq_ok_iff.mpr hcomplete) supply
  have hrewrite := ends_rewrite (s := ⟨g, ranges, options⟩) hg hcomplete supply
  rw [quantize_eq]
  refine Build.Ends.bind_of_ok hvalid ?_
  refine hrewrite.bind ?_
  rintro p t ⟨φ, hreached⟩
  obtain ⟨q, hrun, -, hq⟩ := exists_putInOrder hreached hg
  rw [hrun]
  exact .ok hq

/-- Only a complete graph is quantized. -/
theorem complete_of_quantize (hrun : (g.quantize ranges options).run supply = .ok q supply') :
    g.Complete := by
  obtain ⟨_, _, hfirst, -⟩ := Build.bind_eq_ok_iff.mp hrun
  have hfirst := Build.adaptExcept_eq_ok_iff.mp hfirst
  exact validate_eq_ok_iff.mp (Build.ofExcept_eq_ok_iff.mp hfirst).1

/-- The layers of a quantized graph are those that visiting all layers gave, whatever the boundaries
    of the graph list: bindings that were taken or missing would have been refused. -/
theorem Linked.exists_reached (hg : g.Linked)
    (hrun : (g.quantize ranges options).run supply = .ok q supply') :
    ∃ p φ q₁, Reached ⟨g, ranges, options⟩ g.topologicalOrder p φ supply' ∧
      p.target.Reordered .input (g.bindings .input) q₁ ∧
      q₁.Reordered .output (g.bindings .output) q := by
  have hcomplete := complete_of_quantize hrun
  obtain ⟨_, _, hfirst, hrest⟩ := Build.bind_eq_ok_iff.mp hrun
  obtain ⟨p, t, hrewrite, hrest⟩ := Build.bind_eq_ok_iff.mp hrest
  obtain ⟨q₁, t₁, hrun₁, hrun₂⟩ := Build.bind_eq_ok_iff.mp hrest
  obtain ⟨hq₁, rfl⟩ := Build.ofExcept_eq_ok_iff.mp (Build.adaptExcept_eq_ok_iff.mp hrun₁)
  obtain ⟨hq₂, rfl⟩ := Build.ofExcept_eq_ok_iff.mp (Build.adaptExcept_eq_ok_iff.mp hrun₂)
  obtain ⟨φ, hreached⟩ := reached_of_visitAll (s := ⟨g, ranges, options⟩) hg hcomplete
    (List.append_nil _).symm hrewrite
  rw [hg.map_fst_orderedLayers] at hreached
  have hreordered₁ := hreached.grown.sound.coherent.reorder hq₁
  exact ⟨p, φ, q₁, hreached, hreordered₁, hreordered₁.coherent.reorder hq₂⟩

/-- A graph that was quantized is stood for. -/
theorem Linked.quantized (hg : g.Linked)
    (hrun : (g.quantize ranges options).run supply = .ok q supply') :
    Quantized ⟨g, ranges, options⟩ (List.range g.layers.length) q := by
  obtain ⟨p, φ, q₁, hreached, hreordered₁, hreordered₂⟩ := hg.exists_reached hrun
  obtain ⟨hcoherent, hcomplete', hbindings, φ, hsimulates⟩ :=
    quantized_of_reordered hreached hreordered₁ hreordered₂
  refine ⟨hcoherent, hcomplete', hbindings, φ, hsimulates.of_mem_iff fun id => ?_⟩
  rw [List.mem_range, hg.mem_topologicalOrder_iff]

/-- Counterparts read from counterparts that were made before them. -/
theorem Linked.forward_quantize (hg : g.Linked)
    (hrun : (g.quantize ranges options).run supply = .ok q supply') : q.Forward := by
  obtain ⟨p, φ, q₁, hreached, hreordered₁, hreordered₂⟩ := hg.exists_reached hrun
  exact hreached.grown.forward.of_layers (hreordered₂.layers.trans hreordered₁.layers)

/-- The quantized graph stands for the graph, layer by layer. -/
theorem Coherent.quantize_simulates (hg : g.Coherent)
    (hrun : (g.quantize ranges options).run supply = .ok q supply') :
    q.Coherent ∧ q.validate = .ok () ∧
      (∀ direction, q.bindings direction = g.bindings direction) ∧
      ∃ φ : LayerId → LayerId,
        (∀ a b, a < g.layers.length → b < g.layers.length → φ a = φ b → a = b) ∧
        Simulates ⟨g, ranges, options⟩ (List.range g.layers.length) q φ ∧
        ∀ slot p, g.producer? slot = some p → ReadsCounterpart ⟨g, ranges, options⟩ q φ slot p := by
  have hvalid : g.Complete := by
    obtain ⟨_, _, hfirst, -⟩ := Build.bind_eq_ok_iff.mp hrun
    have hfirst := Build.adaptExcept_eq_ok_iff.mp hfirst
    exact validate_eq_ok_iff.mp (Build.ofExcept_eq_ok_iff.mp hfirst).1
  obtain ⟨hcoherent, hcomplete, hbindings, φ, hsimulates⟩ :=
    (hg.ends_quantize hvalid ranges options supply).post_of_ok hrun
  have hsimulates : Simulates ⟨g, ranges, options⟩ (List.range g.layers.length) q φ := by
    apply hsimulates.of_mem_iff
    intro id
    rw [List.mem_range, hg.linked.mem_topologicalOrder_iff]
  have hexists : ∀ a ∈ List.range g.layers.length, ∃ l, g.layers[a]? = some l := fun a ha =>
    ⟨_, List.getElem?_eq_getElem (List.mem_range.mp ha)⟩
  refine ⟨hcoherent, validate_eq_ok_iff.mpr hcomplete, hbindings, φ, ?_, hsimulates, ?_⟩
  · intro a b ha hb heq
    exact hsimulates.injective hexists (List.mem_range.mpr ha) (List.mem_range.mpr hb) heq
  · intro slot p hread
    have hslot : slot.layer < g.layers.length := (HasInput.of_producer? hread).lt
    exact hsimulates.reads hg (List.mem_range.mpr hslot) hread

/-- A floating point input is weighed, and the result leaves the graph. -/
def weighed : Graph :=
  ((Session.start .initial).run [.addLayer (.input 3) "x",
    .setInfo ⟨0, 0⟩ (.new (.ofDims [1, 2]) .float32),
    .addLayer (.fullyConnected { hasBias := true }
      ⟨⟨.ofDims [1, 2], .float32, .absent, true⟩, [0, 0, 128, 63, 0, 0, 0, 64], rfl, rfl⟩
      (some ⟨⟨.ofDims [1], .float32, .absent, true⟩, [0, 0, 128, 63], rfl, rfl⟩)) "w",
    .connect ⟨0, 0⟩ ⟨1, 0⟩, .setInfo ⟨1, 0⟩ (.new (.ofDims [1, 1]) .float32),
    .addLayer (.output 7) "y", .connect ⟨1, 0⟩ ⟨2, 0⟩]).graph

theorem quantize_simulates_weighed :
    ∃ q supply', (weighed.quantize ⟨[], some (.usual .standard)⟩ ⟨.standard, true⟩).run .initial =
        .ok q supply' ∧
      q.layers.map (·.name) = ["x", "x:Quantize", "w", "y:Dequantize", "y"] ∧
      ∃ φ, Simulates ⟨weighed, ⟨[], some (.usual .standard)⟩, ⟨.standard, true⟩⟩ [0, 1, 2] q φ := by
  have hnames :
      ((weighed.quantize ⟨[], some (.usual .standard)⟩ ⟨.standard, true⟩).run' .initial).map
      (fun q => q.layers.map (·.name)) =
        some ["x", "x:Quantize", "w", "y:Dequantize", "y"] := by
    decide +kernel
  have hcoherent : weighed.Coherent := ((Session.sound_start .initial).run _).coherent
  obtain ⟨q, hq, hnames⟩ := Option.map_eq_some_iff.mp hnames
  unfold EStateM.run' at hq
  cases hrun : (weighed.quantize ⟨[], some (.usual .standard)⟩ ⟨.standard, true⟩).run .initial with
  | error e supply' =>
    rw [hrun] at hq
    cases hq
  | ok q' supply' =>
    rw [hrun] at hq
    cases hq
    obtain ⟨-, -, -, φ, -, hsimulates, -⟩ := hcoherent.quantize_simulates hrun
    exact ⟨q, supply', rfl, hnames, φ, hsimulates⟩

/-- Why a graph is not quantized. An error that is returned says that the graph is not complete, or
    that something in it is refused. The program stops, and returns nothing, only where it stores a
    constant with a value whose sum with the offset does not fit. -/
theorem Coherent.quantize_error {e : QuantizationError} (hg : g.Coherent)
    (hrun : (g.quantize ranges options).run supply = .error e supply') :
    (¬ e.Stops →
      (∃ cause, g.validate = .error cause ∧ e = .graph cause) ∨
        (g.validate = .ok () ∧ e.Refusal)) ∧
    (e.Stops →
      g.validate = .ok () ∧ ∃ l ∈ g.layers, ∃ t ∈ l.kind.constants,
        options.scheme.quantizeConstant t = .error e) := by
  cases hvalid : g.validate with
  | error cause =>
    have hfirst : (change (.ofExcept g.validate)).run supply = .error (.graph cause) supply := by
      rw [hvalid]
      rfl
    have hrefused : (g.quantize ranges options).run supply = .error (.graph cause) supply :=
      Build.run_bind_error hfirst
    rw [hrun] at hrefused
    cases hrefused
    refine ⟨fun _ => .inl ⟨cause, rfl, rfl⟩, ?_⟩
    rintro ⟨operation, heq⟩
    cases heq
  | ok =>
    have hends := hg.ends_quantize (validate_eq_ok_iff.mp hvalid) ranges options supply
    cases hends.fails_of_error hrun with
    | refused hrefused =>
      refine ⟨fun _ => .inr ⟨rfl, hrefused⟩, ?_⟩
      rintro ⟨operation, rfl⟩
      cases hrefused
    | stopped hstops hl ht hstored =>
      exact ⟨fun hreturned => absurd hstops hreturned, fun _ => ⟨rfl, _, hl, _, ht, hstored⟩⟩

/-- The type of an input is changed, which has no quantized form. -/
def converted : Graph :=
  ((Session.start .initial).run [.addLayer (.input 3) "x",
    .setInfo ⟨0, 0⟩ (.new (.ofDims [1]) .float32), .addLayer .cast "c", .connect ⟨0, 0⟩ ⟨1, 0⟩,
    .setInfo ⟨1, 0⟩ (.new (.ofDims [1]) .boolean)]).graph

theorem quantize_error_converted :
    ∃ e supply', (converted.quantize ⟨[], some (.usual .standard)⟩ {}).run .initial =
        .error e supply' ∧ ¬ e.Stops ∧ converted.validate = .ok () ∧ e.Refusal := by
  have hfails : ((converted.quantize ⟨[], some (.usual .standard)⟩ {}).run' .initial).isSome =
      false := by
    decide +kernel
  have hvalid : converted.validate = .ok () := by
    decide +kernel
  have hconstants : ∀ l ∈ converted.layers, l.kind.constants = [] := by
    decide +kernel
  have hcoherent : converted.Coherent := ((Session.sound_start .initial).run _).coherent
  unfold EStateM.run' at hfails
  cases hrun : (converted.quantize ⟨[], some (.usual .standard)⟩ {}).run .initial with
  | ok q supply' =>
    rw [hrun] at hfails
    cases hfails
  | error e supply' =>
    obtain ⟨hreturned, hstopped⟩ := hcoherent.quantize_error hrun
    -- There is no constant that could stop the program.
    have hreturns : ¬ e.Stops := by
      intro hstops
      obtain ⟨-, l, hl, t, ht, -⟩ := hstopped hstops
      rw [hconstants l hl] at ht
      cases ht
    refine ⟨e, supply', rfl, hreturns, hvalid, ?_⟩
    rcases hreturned hreturns with ⟨cause, hinvalid, -⟩ | ⟨-, hrefusal⟩
    · rw [hvalid] at hinvalid
      cases hinvalid
    · exact hrefusal

end Graph

end LayerGraph
