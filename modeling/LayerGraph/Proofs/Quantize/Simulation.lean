import LayerGraph.Proofs.Quantize.Counterparts

/-! # Simulations

  A quantized graph stands for a graph when every layer has a counterpart in it, which reads the
  counterparts of what the layer reads, and when there is nothing else in it (`Simulates`). The
  place of the counterpart is given by `φ`. Where a boundary is kept, one more layer comes right
  before the counterpart.

  The simulation is built layer by layer. What was added for a layer whose producers are stood for
  makes a simulation of one layer more (`Simulates.append`), since the layers there were stay where
  they are and say what they said. A simulation has the bindings of the layers
  (`Simulates.mem_bindings_iff`) and their connections (`Simulates.reads`).
-/

namespace LayerGraph

namespace Quantizer

open LayerGraph.Graph

/-! ### Simulations -/

/-- The layers of `q` that end at `φ id` stand for a layer, and read what stands for what it
    reads. -/
def Stands (s : Setting) (q : Graph) (φ : LayerId → LayerId) (id : LayerId) (l : Layer) : Prop :=
  ∃ (sources : List OutputRef) (drafts : List Draft) (start : Nat),
    (l.content.renumber φ).inputs = sources.map some ∧
    Counterpart s id l sources (q.firstScale sources) start drafts ∧
    start + drafts.length = φ id + 1 ∧
    ∀ k d, drafts[k]? = some d → q.content? (start + k) = some d.content

/-- The graph `q` stands for some layers of a graph. -/
structure Simulates (s : Setting) (ids : List LayerId) (q : Graph) (φ : LayerId → LayerId) :
    Prop where
  /-- Each of the layers has a counterpart. -/
  stands : ∀ id ∈ ids, ∀ l, s.graph.layers[id]? = some l → Stands s q φ id l
  /-- Every layer of `q` is the counterpart of one of them, or the layer that comes before it where
      a boundary is kept. -/
  unique : ∀ k < q.layers.length, ∃! id, id ∈ ids ∧
    (k = φ id ∨ k + 1 = φ id ∧ s.kept id = true)

variable {s : Setting} {q q' : Graph} {φ φ' : LayerId → LayerId} {id : LayerId} {l : Layer}
variable {ids done : List LayerId} {supply : GuidSupply} {gain : List LayerContent}
variable {sources : List OutputRef}

theorem kept_eq_keptAs (hl : s.graph.layers[id]? = some l) : s.kept id = s.keptAs id l.kind := by
  rw [Setting.kept, Graph.kind?, hl, Option.map_some, Option.any_some]

theorem firstScale_of_lt (h : Extends q gain q' supply)
    (hsources : ∀ p ∈ sources, p.layer < q.layers.length) :
    q'.firstScale sources = q.firstScale sources := by
  unfold firstScale
  cases sources with
  | nil => rfl
  | cons first rest =>
    show (((q'.info? first).map (·.scale)).getD .zero) = ((q.info? first).map (·.scale)).getD .zero
    rw [h.info?_of_lt (hsources first List.mem_cons_self)]

/-- The output slot that stands for an output slot. -/
def counterpartSlot (φ : LayerId → LayerId) (p : OutputRef) : OutputRef := ⟨φ p.layer, p.index⟩

theorem inputs_renumber (h : l.inputs = sources.map some) :
    (l.content.renumber φ).inputs = (sources.map (counterpartSlot φ)).map some := by
  show l.inputs.map _ = _
  rw [h, List.map_map, List.map_map]
  rfl

/-- What a counterpart reads stands for something that the layer reads. -/
theorem exists_of_mem_sources (h : (l.content.renumber φ).inputs = sources.map some) {p : OutputRef}
    (hp : p ∈ sources) : ∃ p', some p' ∈ l.inputs ∧ p = counterpartSlot φ p' := by
  have hmem : some p ∈ (l.content.renumber φ).inputs := by
    rw [h]
    exact List.mem_map_of_mem hp
  obtain ⟨source, hsource, heq⟩ := List.mem_map.mp hmem
  cases source with
  | none => cases heq
  | some p' =>
    cases heq
    exact ⟨p', hsource, rfl⟩

/-- What stands for what an input slot reads comes at the same place. -/
theorem getElem?_sources (h : (l.content.renumber φ).inputs = sources.map some) {index : Nat}
    {p : OutputRef} (hread : l.inputs[index]? = some (some p)) :
    sources[index]? = some (counterpartSlot φ p) := by
  have hget : (l.content.renumber φ).inputs[index]? = some (some (counterpartSlot φ p)) := by
    show (l.inputs.map _)[index]? = _
    rw [List.getElem?_map, hread]
    rfl
  rw [h, List.getElem?_map] at hget
  obtain ⟨source, hsource, heq⟩ := Option.map_eq_some_iff.mp hget
  rw [hsource, Option.some.inj heq]

theorem Stands.lt (h : Stands s q φ id l) : φ id < q.layers.length := by
  obtain ⟨sources, drafts, start, -, hcounterpart, hend, hcontents⟩ := h
  have hlength := hcounterpart.length
  have hlast : drafts.length - 1 < drafts.length := by
    omega
  have hcontent := hcontents (drafts.length - 1) _ (List.getElem?_eq_getElem hlast)
  have hlt : start + (drafts.length - 1) < q.layers.length := lt_of_content? hcontent
  show q.layers.length > φ id
  omega

/-- A layer is still stood for when the quantized graph grows. -/
theorem Stands.extends (h : Stands s q φ id l) (hextends : Extends q gain q' supply)
    (hid : φ' id = φ id)
    (hproducers : ∀ p, some p ∈ l.inputs → φ' p.layer = φ p.layer ∧ φ p.layer < q.layers.length) :
    Stands s q' φ' id l := by
  obtain ⟨sources, drafts, start, hsources, hcounterpart, hend, hcontents⟩ := h
  have hlt : ∀ p ∈ sources, p.layer < q.layers.length := by
    intro p hp
    obtain ⟨p', hp', rfl⟩ := exists_of_mem_sources hsources hp
    exact (hproducers p' hp').2
  refine ⟨sources, drafts, start, ?_, ?_, ?_, ?_⟩
  · rw [LayerContent.renumber_congr fun p hp => (hproducers p hp).1]
    exact hsources
  · rw [firstScale_of_lt hextends hlt]
    exact hcounterpart
  · rw [hid]
    exact hend
  · intro k d hd
    have hcontent := hcontents k d hd
    rw [hextends.content?_of_lt (lt_of_content? hcontent)]
    exact hcontent

/-- What was added for a layer stands for it. -/
theorem Adds.stands {layer : LayerId} (h : Adds s id l sources q (layer, q') supply)
    (hsources : (l.content.renumber φ').inputs = sources.map some) (hid : φ' id = layer)
    (hlt : ∀ p ∈ sources, p.layer < q.layers.length) : Stands s q' φ' id l := by
  obtain ⟨drafts, hcounterpart, hcontinues, hend⟩ := h
  refine ⟨sources, drafts, q.layers.length, hsources, ?_, ?_, ?_⟩
  · rw [firstScale_of_lt hcontinues.toExtends hlt]
    exact hcounterpart
  · rw [hid, ← hend]
  · intro k d hd
    rw [hcontinues.content?_new, List.getElem?_map, hd, Option.map_some]

/-- The layers that were added end at the given position, behind which there is nothing. -/
theorem Adds.place {layer : LayerId} (h : Adds s id l sources q (layer, q') supply) :
    q.layers.length + (s.keptAs id l.kind).toNat = layer ∧ q'.layers.length = layer + 1 := by
  obtain ⟨drafts, hcounterpart, hcontinues, hend⟩ := h
  have hend : q.layers.length + drafts.length = layer + 1 := hend.symm
  have hdrafts := hcounterpart.length
  have hlength : q'.layers.length = q.layers.length + drafts.length := by
    simpa using hcontinues.length
  constructor
  · omega
  · omega

/-- Each of the layers that were added stands for the new layer and for no other. -/
theorem Simulates.unique_append (h : Simulates s ids q φ) (hl : s.graph.layers[id]? = some l)
    {layer : LayerId} (hadds : Adds s id l sources q (layer, q') supply) (hself : φ' id = layer)
    (hold : ∀ a ∈ ids, φ' a = φ a) (hlt : ∀ a ∈ ids, q.layers.length > φ a) :
    ∀ k < q'.layers.length, ∃! a, a ∈ ids ++ [id] ∧
      (k = φ' a ∨ k + 1 = φ' a ∧ s.kept a = true) := by
  intro k hk
  have hkept := kept_eq_keptAs hl
  obtain ⟨hplace, hlength⟩ := hadds.place
  by_cases hbefore : k < q.layers.length
  · -- The layers there were stand for what they stood for.
    obtain ⟨a, ⟨ha, hstands⟩, honly⟩ := h.unique k hbefore
    refine ⟨a, ⟨List.mem_append_left _ ha, by rw [hold a ha]; exact hstands⟩, ?_⟩
    rintro b ⟨hb, hstands'⟩
    rcases List.mem_append.mp hb with hmem | hmem
    · rw [hold b hmem] at hstands'
      exact honly b ⟨hmem, hstands'⟩
    · obtain rfl := List.mem_singleton.mp hmem
      exfalso
      rw [hself, hkept] at hstands'
      rcases hstands' with heq | ⟨heq, hkeep⟩
      · omega
      · rw [hkeep] at hplace
        have hnext : q.layers.length + 1 = layer := hplace
        omega
  · -- The new ones stand for the new layer, and no other ends so late.
    refine ⟨id, ⟨by simp, ?_⟩, ?_⟩
    · rw [hself, hkept]
      by_cases hlast : k = layer
      · exact .inl hlast
      · cases hkeep : s.keptAs id l.kind with
        | false =>
          rw [hkeep] at hplace
          have hsame : q.layers.length = layer := hplace
          omega
        | true =>
          rw [hkeep] at hplace
          have hnext : q.layers.length + 1 = layer := hplace
          refine .inr ⟨?_, rfl⟩
          omega
    · rintro b ⟨hb, hstands⟩
      rcases List.mem_append.mp hb with hmem | hmem
      · exfalso
        have hlate := hlt b hmem
        rw [hold b hmem] at hstands
        rcases hstands with heq | ⟨heq, -⟩
        · omega
        · omega
      · exact List.mem_singleton.mp hmem

/-- A simulation goes on with a new layer whose producers are stood for. -/
theorem Simulates.append (h : Simulates s ids q φ) (hl : s.graph.layers[id]? = some l)
    (hnew : id ∉ ids) (hexists : ∀ a ∈ ids, ∃ l, s.graph.layers[a]? = some l)
    (hclosed : ∀ a b, s.graph.Feeds a b → b ∈ ids ++ [id] → a ∈ ids)
    {layer : LayerId} (hadds : Adds s id l sources q (layer, q') supply)
    (hsources : (l.content.renumber φ).inputs = sources.map some) :
    Simulates s (ids ++ [id]) q' (Function.update φ id layer) := by
  have hself : Function.update φ id layer id = layer := Function.update_self id layer φ
  have hold : ∀ a ∈ ids, Function.update φ id layer a = φ a := by
    intro a ha
    apply Function.update_of_ne
    intro heq
    exact hnew (heq ▸ ha)
  have hlt : ∀ a ∈ ids, q.layers.length > φ a := by
    intro a ha
    obtain ⟨l', hl'⟩ := hexists a ha
    exact (h.stands a ha l' hl').lt
  -- What is read, by an old layer or by the new one, comes from the layers before.
  have hproducers (b : LayerId) (hb : b ∈ ids ++ [id]) (l' : Layer)
      (hl' : s.graph.layers[b]? = some l') (p : OutputRef) (hp : some p ∈ l'.inputs) :
      Function.update φ id layer p.layer = φ p.layer ∧ φ p.layer < q.layers.length := by
    have hcontent : s.graph.content? b = some l'.content := by
      rw [content?, hl', Option.map_some]
    have hmem := hclosed p.layer b (feeds_of_content? hcontent hp) hb
    exact ⟨hold _ hmem, hlt _ hmem⟩
  refine ⟨?_, h.unique_append hl hadds hself hold hlt⟩
  intro a ha l' hl'
  rcases List.mem_append.mp ha with hmem | hmem
  · have hstands := h.stands a hmem l' hl'
    obtain ⟨drafts, -, hcontinues, -⟩ := hadds
    exact hstands.extends hcontinues.toExtends (hold a hmem) (hproducers a ha l' hl')
  · obtain rfl := List.mem_singleton.mp hmem
    obtain rfl : l = l' := Option.some.inj (hl.symm.trans hl')
    refine hadds.stands ?_ hself ?_
    · rw [LayerContent.renumber_congr fun p hp => (hproducers a ha l hl p hp).1]
      exact hsources
    · intro p hp
      obtain ⟨p', hp', rfl⟩ := exists_of_mem_sources hsources hp
      exact (hproducers a ha l hl p' hp').2

/-! ### What a simulation says -/

/-- No two layers have the same counterpart. -/
theorem Simulates.injective (h : Simulates s ids q φ)
    (hexists : ∀ a ∈ ids, ∃ l, s.graph.layers[a]? = some l) {a b : LayerId} (ha : a ∈ ids)
    (hb : b ∈ ids) (heq : φ a = φ b) : a = b := by
  obtain ⟨l, hl⟩ := hexists a ha
  obtain ⟨c, -, honly⟩ := h.unique (φ a) (h.stands a ha l hl).lt
  have hac : a = c := honly a ⟨ha, .inl rfl⟩
  have hbc : b = c := honly b ⟨hb, .inl heq⟩
  rw [hac, hbc]

/-- The counterpart of a layer reads the counterpart of what the layer reads. That of an output that
    is kept does so through a dequantizing layer. -/
def ReadsCounterpart (s : Setting) (q : Graph) (φ : LayerId → LayerId) (slot : InputRef)
    (p : OutputRef) : Prop :=
  if s.kept slot.layer then
    ∃ k, q.kind? k = some .dequantize ∧ q.producer? ⟨φ slot.layer, slot.index⟩ = some ⟨k, 0⟩ ∧
      q.producer? ⟨k, 0⟩ = some ⟨φ p.layer, p.index⟩
  else q.producer? ⟨φ slot.layer, slot.index⟩ = some ⟨φ p.layer, p.index⟩

theorem Simulates.reads (h : Simulates s ids q φ) (hg : s.graph.Coherent) {slot : InputRef}
    {p : OutputRef} (hslot : slot.layer ∈ ids) (hread : s.graph.producer? slot = some p) :
    ReadsCounterpart s q φ slot p := by
  unfold ReadsCounterpart
  obtain ⟨l, hl, hindex⟩ := producer?_eq_some_iff.mp hread
  have hinputs := (hg.slots slot.layer l hl).1
  have hlt : slot.index < l.inputs.length := (List.getElem?_eq_some_iff.mp hindex).1
  obtain ⟨sources, drafts, start, hsources, hcounterpart, hend, hcontents⟩ :=
    h.stands slot.layer hslot l hl
  have hsource := getElem?_sources hsources hindex
  rw [kept_eq_keptAs hl]
  cases hcounterpart with
  | input hkind | keptInput hkind =>
    -- Inputs read nothing.
    rw [hinputs, hkind] at hlt
    exact absurd hlt (Nat.not_lt_zero _)
  | output hkind hkept hsingle =>
    have hplace : start = φ slot.layer := Nat.succ.inj hend
    subst hsingle
    rw [hkept, if_neg Bool.false_ne_true]
    exact (producer?_of_draft (hplace ▸ hcontents 0 _ rfl)).trans hsource
  | keptOutput hkind hkept hdescribed hsingle =>
    have hplace : start + 1 = φ slot.layer := Nat.succ.inj hend
    have hzero : slot.index = 0 := by
      rw [hinputs, hkind] at hlt
      exact Nat.lt_one_iff.mp hlt
    subst hsingle
    rw [hkept, if_pos rfl, hzero]
    rw [hzero] at hsource
    have houtput := hcontents 1 _ rfl
    rw [hplace] at houtput
    refine ⟨start, kind?_of_draft (hcontents 0 _ rfl), ?_, ?_⟩
    · have hlayer : q.content? (⟨φ slot.layer, 0⟩ : InputRef).layer = _ := houtput
      rw [producer?_of_draft hlayer]
      rfl
    · exact (producer?_of_draft (hcontents 0 _ rfl)).trans hsource
  | interior hkind =>
    have hplace : start = φ slot.layer := Nat.succ.inj hend
    rw [Setting.keptAs_of_binding? hkind.binding?.1, if_neg Bool.false_ne_true]
    exact (producer?_of_draft (hplace ▸ hcontents 0 _ rfl)).trans hsource

/-- Every layer of the quantized graph is one of those that stand for some layer. -/
theorem Simulates.exists_draft (h : Simulates s ids q φ)
    (hexists : ∀ a ∈ ids, ∃ l, s.graph.layers[a]? = some l) {k : LayerId} {c : LayerContent}
    (hc : q.content? k = some c) :
    ∃ id ∈ ids, ∃ (l : Layer) (sources : List OutputRef) (start : LayerId) (drafts : List Draft)
      (d : Draft), s.graph.layers[id]? = some l ∧
        Counterpart s id l sources (q.firstScale sources) start drafts ∧ d ∈ drafts ∧
        c = d.content := by
  obtain ⟨id, ⟨hid, hplace⟩, -⟩ := h.unique k (lt_of_content? hc)
  obtain ⟨l, hl⟩ := hexists id hid
  obtain ⟨sources, drafts, start, -, hcounterpart, hend, hcontents⟩ := h.stands id hid l hl
  have hlength := hcounterpart.length
  rw [kept_eq_keptAs hl] at hplace
  -- The layer is one of those that end at the counterpart.
  obtain ⟨j, rfl, hj⟩ : ∃ j, start + j = k ∧ j < drafts.length := by
    rcases hplace with heq | ⟨heq, hkeep⟩
    · exact ⟨drafts.length - 1, by omega, by omega⟩
    · rw [hkeep] at hlength
      have htwo : drafts.length = 2 := hlength
      exact ⟨0, by omega, by omega⟩
  have hdraft := hcontents j _ (List.getElem?_eq_getElem hj)
  rw [hc] at hdraft
  exact ⟨id, hid, l, sources, start, drafts, _, hl, hcounterpart, List.getElem_mem hj,
    Option.some.inj hdraft⟩

/-- The quantized graph has the bindings of the layers that it stands for. -/
theorem Simulates.mem_bindings_iff (h : Simulates s ids q φ) (hq : q.Coherent)
    (hexists : ∀ a ∈ ids, ∃ l, s.graph.layers[a]? = some l) {direction : Direction}
    {b : BindingId} :
    b ∈ q.bindings direction ↔ ∃ id ∈ ids, s.graph.kind? id = some (direction.kind b) := by
  rw [hq.mem_bindings_iff]
  constructor
  · rintro ⟨k, hkind⟩
    rw [kind?_eq_content?] at hkind
    obtain ⟨c, hc, hkind⟩ := Option.map_eq_some_iff.mp hkind
    obtain ⟨id, hid, l, _, _, _, d, hl, hcounterpart, hd, rfl⟩ := h.exists_draft hexists hc
    refine ⟨id, hid, ?_⟩
    rw [Graph.kind?, hl, Option.map_some, hcounterpart.binding_iff.mp ⟨d, hd, hkind⟩]
  · rintro ⟨id, hid, hkind⟩
    obtain ⟨l, hl⟩ := hexists id hid
    obtain ⟨sources, drafts, start, -, hcounterpart, -, hcontents⟩ := h.stands id hid l hl
    rw [Graph.kind?, hl, Option.map_some, Option.some.injEq] at hkind
    obtain ⟨d, hd, hdkind⟩ := hcounterpart.binding_iff.mpr hkind
    obtain ⟨j, hj⟩ := List.mem_iff_getElem?.mp hd
    exact ⟨start + j, by rw [kind?_of_draft (hcontents j d hj), hdkind]⟩

/-- Which slots a counterpart has. -/
theorem Simulates.hasOutput (h : Simulates s ids q φ) (hg : s.graph.Linked) {p : OutputRef}
    (hp : p.layer ∈ ids) (hslot : s.graph.HasOutput p) : q.HasOutput ⟨φ p.layer, p.index⟩ := by
  obtain ⟨l, hl, hindex⟩ := hslot
  obtain ⟨sources, drafts, start, -, hcounterpart, hend, hcontents⟩ := h.stands p.layer hp l hl
  have hlength := hcounterpart.length
  obtain ⟨d, hd, hinfos⟩ := hcounterpart.length_infos (hg.slots p.layer l hl).2
  have hcontent := hcontents _ d hd
  have hplace : start + (s.keptAs p.layer l.kind).toNat = φ p.layer := by
    omega
  rw [hplace] at hcontent
  exact hasOutput_iff.mpr ⟨d.content, hcontent, by simpa [Draft.content, hinfos] using hindex⟩

/-- The order of the layers does not matter. -/
theorem Simulates.of_mem_iff (h : Simulates s ids q φ) (hids : ∀ id, id ∈ done ↔ id ∈ ids) :
    Simulates s done q φ := by
  constructor
  · intro id hid
    exact h.stands id ((hids id).mp hid)
  · simp only [hids]
    exact h.unique

/-- Only the layers of the quantized graph matter. -/
theorem Simulates.of_layers (h : Simulates s ids q φ) (hlayers : q'.layers = q.layers) :
    Simulates s ids q' φ := by
  have hcontent : q'.content? = q.content? := content?_of_layers hlayers
  have hscale (sources : List OutputRef) : q'.firstScale sources = q.firstScale sources := by
    unfold firstScale info?
    rw [hlayers]
  constructor
  · intro id hid l hl
    obtain ⟨sources, drafts, start, hsources, hcounterpart, hend, hcontents⟩ := h.stands id hid l hl
    refine ⟨sources, drafts, start, hsources, ?_, hend, ?_⟩
    · rw [hscale]
      exact hcounterpart
    · rw [hcontent]
      exact hcontents
  · rw [hlayers]
    exact h.unique

end Quantizer

end LayerGraph
