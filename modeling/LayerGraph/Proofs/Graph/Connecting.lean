import LayerGraph.Proofs.Graph.Search
import LayerGraph.Proofs.Graph.Session

/-! # Which connections are made, and what they change

  A connection is made between two slots of the graph exactly when the input slot is free and no
  path leads back from its layer (`Admits`). The graph then has this connection more, at the end of
  the readers of the output slot, and nothing else is another (`Joined`). A refused connection
  changes nothing.

  Main statement: `Coherent.connect_spec`, together with what the search behind it finds.
-/

namespace LayerGraph

/-- A layer without its connections. -/
def Layer.bare (l : Layer) : Layer :=
  { l with
    inputs := l.inputs.map fun _ => none
    outputs := l.outputs.map fun slot => { slot with consumers := [] } }

namespace Graph

/-- The slots are there, the input slot is free, and a connection between them closes no cycle. -/
structure Admits (g : Graph) (source : OutputRef) (target : InputRef) : Prop where
  hasOutput : g.HasOutput source
  hasInput : g.HasInput target
  free : g.producer? target = none
  /-- No path leads from the reader to the layer that it would read; a path may have no edges. -/
  acyclic : ¬ Relation.ReflTransGen g.Feeds target.layer source.layer

/-- `g'` is `g` with one connection more. -/
structure Joined (g : Graph) (source : OutputRef) (target : InputRef) (g' : Graph) : Prop where
  /-- The input slot reads the output slot. -/
  producer : ∀ slot, g'.producer? slot = if slot = target then some source else g.producer? slot
  /-- The output slot has the input slot as its last reader. -/
  consumers : ∀ slot,
    g'.consumers slot = if slot = source then g.consumers slot ++ [target] else g.consumers slot
  /-- Apart from connections the layers are the same. -/
  layers : g'.layers.map Layer.bare = g.layers.map Layer.bare
  guids : g'.guids = g.guids
  boundary : ∀ direction, g'.boundary direction = g.boundary direction

variable {g g' g'' : Graph} {source : OutputRef} {target : InputRef}

/-! ### Connections make up a graph -/

/-- A layer is what it is apart from its connections, and its connections. -/
theorem layer_eq_of_bare {l l' : Layer} (hbare : l'.bare = l.bare)
    (hinputs : ∀ i : Nat, l'.inputs[i]?.join = l.inputs[i]?.join)
    (houtputs : ∀ i : Nat,
      l'.outputs[i]?.map OutputSlot.consumers = l.outputs[i]?.map OutputSlot.consumers) :
    l' = l := by
  obtain ⟨guid, name, kind, inputs, outputs⟩ := l
  obtain ⟨guid', name', kind', inputs', outputs'⟩ := l'
  simp only [Layer.bare, Layer.mk.injEq] at hbare hinputs houtputs
  obtain ⟨rfl, rfl, rfl, hin, hout⟩ := hbare
  -- The slots are as many, and each of them reads the same.
  have hin' : inputs' = inputs := by
    apply List.ext_getElem?
    intro i
    have hslot := congrArg (·[i]?) hin
    have hread := hinputs i
    simp only [List.getElem?_map] at hslot
    cases h : inputs[i]? <;> cases h' : inputs'[i]? <;> simp_all
  have hout' : outputs' = outputs := by
    apply List.ext_getElem?
    intro i
    have hslot := congrArg (·[i]?) hout
    have hread := houtputs i
    simp only [List.getElem?_map] at hslot
    cases h : outputs[i]? with
    | none => simpa [h] using hread
    | some slot =>
      cases h' : outputs'[i]? with
      | none => simp [h, h'] at hread
      | some slot' =>
        obtain ⟨info, consumers⟩ := slot
        obtain ⟨info', consumers'⟩ := slot'
        simp_all
  rw [hin', hout']

theorem join_inputs_eq_producer? {l : Layer} {id : LayerId} (h : g.layers[id]? = some l) (i : Nat) :
    l.inputs[i]?.join = g.producer? ⟨id, i⟩ := by
  simp only [producer?, h, Option.bind_eq_bind, Option.bind_some]
  cases l.inputs[i]? <;> rfl

/-- Two graphs with the same slots and the same connections are the same. -/
theorem eq_of_connections (hlayers : g'.layers.map Layer.bare = g.layers.map Layer.bare)
    (hguids : g'.guids = g.guids)
    (hboundary : ∀ direction, g'.boundary direction = g.boundary direction)
    (hproducer : ∀ slot, g'.producer? slot = g.producer? slot)
    (hconsumers : ∀ slot, g'.consumers slot = g.consumers slot) : g' = g := by
  have hsame : g'.layers = g.layers := by
    apply List.ext_getElem?
    intro id
    have hbare := congrArg (·[id]?) hlayers
    simp only [List.getElem?_map] at hbare
    cases hl : g.layers[id]? with
    | none => simpa [hl] using hbare
    | some l =>
      cases hl' : g'.layers[id]? with
      | none => simp [hl, hl'] at hbare
      | some l' =>
        have heq : l'.bare = l.bare := by simpa [hl, hl'] using hbare
        congr 1
        refine layer_eq_of_bare heq ?_ ?_
        · intro i
          rw [join_inputs_eq_producer? hl, join_inputs_eq_producer? hl', hproducer]
        · intro i
          -- The consumers of a slot are looked up by its place, so the slots have to be as many.
          have hout : l'.outputs.length = l.outputs.length := by
            simpa [Layer.bare] using congrArg (·.outputs.length) heq
          have hread := hconsumers ⟨id, i⟩
          simp only [consumers, hl, hl', Option.bind_some] at hread
          by_cases hi : i < l.outputs.length
          · simpa [List.getElem?_eq_getElem hi, List.getElem?_eq_getElem (hout ▸ hi)] using hread
          · rw [List.getElem?_eq_none (by omega), List.getElem?_eq_none (by omega)]
  obtain ⟨layers, guids, inputs, outputs⟩ := g
  obtain ⟨layers', guids', inputs', outputs'⟩ := g'
  have hinputs := hboundary .input
  have houtputs := hboundary .output
  simp_all [Graph.boundary]

/-- There is only one graph with this connection more. -/
theorem Joined.unique (h : Joined g source target g') (h' : Joined g source target g'') :
    g' = g'' := by
  refine eq_of_connections (h.layers.trans h'.layers.symm) (h.guids.trans h'.guids.symm) ?_ ?_ ?_
  · intro direction
    rw [h.boundary, h'.boundary]
  · intro slot
    rw [h.producer, h'.producer]
  · intro slot
    rw [h.consumers, h'.consumers]

/-- Recording a connection at both of its ends changes nothing else. -/
theorem joined_link (hs : g.HasOutput source) (ht : g.HasInput target) :
    Joined g source target (g.link source target) where
  producer := producer?_link ht
  consumers := consumers_link hs
  layers := by
    apply List.ext_getElem?
    intro id
    rw [List.getElem?_map, List.getElem?_map, getElem?_link]
    cases g.layers[id]? with
    | none => rfl
    | some l =>
      simp only [Option.map_some, Layer.bare, Option.some.injEq, Layer.mk.injEq, true_and]
      constructor
      · -- A bare layer has no connections, so setting one makes no difference.
        split
        · apply List.ext_getElem?
          intro i
          simp only [List.getElem?_map, List.getElem?_set]
          grind
        · rfl
      · split
        · apply List.ext_getElem?
          intro i
          simp only [List.getElem?_map, List.getElem?_modify]
          cases l.outputs[i]? with
          | none => rfl
          | some slot => by_cases hi : source.index = i <;> simp [hi]
        · rfl
  guids := guids_link
  boundary := boundary_link

/-! ### The decision -/

/-- The search finds exactly the layers that a path leads to. -/
theorem Coherent.reaches_iff_feeds (hg : g.Coherent) {a b : LayerId} (ha : a < g.layers.length) :
    g.reaches a b = true ↔ Relation.ReflTransGen g.Feeds a b := by
  have hsame : g.Precedes = g.Feeds := by
    funext x y
    exact propext hg.linked.precedes_iff
  rw [reaches_iff hg.linked.readersExist ha, hsame]

/-- The search rules out exactly the connections that a path leads back along. -/
theorem Coherent.connect_eq_ok_iff_admits (hg : g.Coherent) :
    g.connect source target = .ok g' ↔ g.Admits source target ∧ g' = g.link source target := by
  have hpaths (ht : g.HasInput target) : g.reaches target.layer source.layer = false ↔
      ¬ Relation.ReflTransGen g.Feeds target.layer source.layer := by
    rw [Bool.eq_false_iff, ne_eq, hg.reaches_iff_feeds ht.lt]
  rw [connect_eq_ok_iff]
  constructor
  · rintro ⟨hs, ht, hfree, hreach, rfl⟩
    exact ⟨⟨hs, ht, hfree, (hpaths ht).mp hreach⟩, rfl⟩
  · rintro ⟨⟨hs, ht, hfree, hacyclic⟩, rfl⟩
    exact ⟨hs, ht, hfree, (hpaths ht).mpr hacyclic, rfl⟩

/-- A connection is made exactly when it is admitted. It is the only change then, and a refused
    connection changes neither the graph nor the supply of numbers. The search that decides it
    finds exactly the layers that a path leads to. With a stack it finds the same, in at most two
    turns more than the graph has connections. -/
theorem Coherent.connect_spec (hg : g.Coherent) (source : OutputRef) (target : InputRef)
    (supply : GuidSupply) :
    ((∃ g', g.connect source target = .ok g') ↔ g.Admits source target) ∧
      (g.Admits source target →
        ∀ g', g.connect source target = .ok g' ↔ Joined g source target g') ∧
      (∀ e, ((⟨g, supply⟩ : Session).ask (.connect source target)).2 = .error e →
        ((⟨g, supply⟩ : Session).ask (.connect source target)).1 = ⟨g, supply⟩) ∧
      ∀ a b, a < g.layers.length →
        (g.reaches a b = true ↔ Relation.ReflTransGen g.Feeds a b) ∧
          (Search.start a).run g b (g.connectionCount + 2) = some (g.reaches a b) := by
  refine ⟨?_, ?_, fun e h => Session.ask_of_error h, fun a b ha => ?_⟩
  · simp only [hg.connect_eq_ok_iff_admits, exists_and_left, exists_eq, and_true]
  · intro hadmits g'
    have hlink := joined_link hadmits.hasOutput hadmits.hasInput
    rw [hg.connect_eq_ok_iff_admits]
    constructor
    · rintro ⟨-, rfl⟩
      exact hlink
    · intro hjoined
      exact ⟨hadmits, hjoined.unique hlink⟩
  · exact ⟨hg.reaches_iff_feeds ha, Search.run_start hg.linked.readersExist ha⟩

/-- A sum of an input with itself, and a second sum that reads the first in one of its slots. -/
def selfSum : Graph :=
  ((Session.start .initial).run [.addLayer (.input 0) "x", .addLayer .addition "sum",
    .addLayer .addition "next", .connect ⟨0, 0⟩ ⟨1, 0⟩, .connect ⟨0, 0⟩ ⟨1, 1⟩,
    .connect ⟨1, 0⟩ ⟨2, 0⟩]).graph

/-- The second sum may read the first in both slots. The search finds it behind the input, and
    nothing behind it. -/
theorem connect_spec_selfSum :
    selfSum.Coherent ∧ Joined selfSum ⟨1, 0⟩ ⟨2, 1⟩ (selfSum.link ⟨1, 0⟩ ⟨2, 1⟩) ∧
      ¬ selfSum.Admits ⟨2, 0⟩ ⟨2, 1⟩ ∧
      (Search.start 0).run selfSum 2 (selfSum.connectionCount + 2) = some true ∧
      ¬ Relation.ReflTransGen selfSum.Feeds 2 1 := by
  have hcoherent : selfSum.Coherent := ((Session.sound_start .initial).run _).coherent
  obtain ⟨hmade, hjoined, -, hsearch⟩ := hcoherent.connect_spec ⟨1, 0⟩ ⟨2, 1⟩ .initial
  have hok : selfSum.connect ⟨1, 0⟩ ⟨2, 1⟩ = .ok (selfSum.link ⟨1, 0⟩ ⟨2, 1⟩) := by
    decide +kernel
  obtain ⟨hrefused, -, -, -⟩ := hcoherent.connect_spec ⟨2, 0⟩ ⟨2, 1⟩ .initial
  refine ⟨hcoherent, (hjoined (hmade.mp ⟨_, hok⟩) _).mp hok, ?_, ?_, ?_⟩
  · intro hadmits
    obtain ⟨g', hg'⟩ := hrefused.mpr hadmits
    have hcycle : selfSum.connect ⟨2, 0⟩ ⟨2, 1⟩ = .error (.cycle ⟨3⟩ ⟨3⟩) := by decide +kernel
    rw [hcycle] at hg'
    cases hg'
  · rw [(hsearch 0 2 (by decide +kernel)).2]
    decide +kernel
  · rw [← (hsearch 2 1 (by decide +kernel)).1]
    decide +kernel

end Graph

end LayerGraph
