import LayerGraph.Proofs.Container.Rewriting
import LayerGraph.Proofs.Lowering.Failures
import LayerGraph.Proofs.Lowering.Persistence
import LayerGraph.Proofs.Quantize.Rewriting

/-! # Layers are added producers first

  Graphs are made in three ways: from a model, from a container and from another graph. Main
  statement: whichever way a graph is made, its connections lead from layers added earlier to
  layers added later, so the topological order is the order in which the layers were added
  (`builders_add_producers_first`).

  Each way carries this from one layer to the next, as part of its own invariant: lowering since
  the drafts of an operator read only what is there or comes before them (`Lowering.Valid`),
  reading since a record names only records before it (`Container.Gathered`), and quantizing since
  layers are visited producers first, so that counterparts read only counterparts made before
  (`Quantizer.Reached`). Outputs that are added in the end read what is there, and putting the
  boundaries in order does not touch the layers.
-/

namespace LayerGraph

open LayerGraph.Graph Lowering Container

/-- Connections lead forward, and the topological order is the order in which layers were added. -/
structure Graph.ProducersFirst (g : Graph) : Prop where
  forward : g.Forward
  order : g.topologicalOrder = List.range g.layers.length

theorem Graph.Coherent.producersFirst {g : Graph} (hg : g.Coherent) (hforward : g.Forward) :
    g.ProducersFirst where
  forward := hforward
  order := hg.linked.topologicalOrder_of_forward hforward

variable {model : Model} {standIn : Bool} {supply supply' : GuidSupply} {g q : Graph}

theorem Lowering.Valid.producersFirst {t : Lowering} (h : Valid model standIn t supply) :
    t.graph.ProducersFirst :=
  h.grown.sound.coherent.producersFirst h.grown.forward

theorem Graph.producersFirst_of_deserialize {bytes : List UInt8}
    (h : (deserialize bytes).run supply = .ok g supply') : g.ProducersFirst := by
  obtain ⟨_, _, _, -, haccepted⟩ := deserialize_eq_ok h
  exact haccepted.sound.coherent.producersFirst haccepted.forward

/-- The graph that is quantized need not be in this order, and its boundaries may be wrong. -/
theorem Graph.Linked.producersFirst_of_quantize {ranges : RangeTable} {options : QuantizerOptions}
    (hg : g.Linked) (h : (g.quantize ranges options).run supply = .ok q supply') :
    q.ProducersFirst :=
  (hg.quantized h).coherent.producersFirst (hg.forward_quantize h)

/-- Whatever was called on a lowering, and whichever calls failed, its graph has producers first,
    and so has the finished graph. So have graphs that are read from bytes or quantized. -/
theorem builders_add_producers_first :
    (∀ model standIn supply indices history,
      History.over? model standIn supply indices = some history →
        history.site.lowering.graph.ProducersFirst ∧
          ∀ g supply', history.site.lowering.finish.run history.site.supply = .ok g supply' →
            g.ProducersFirst) ∧
    (∀ (model : Model) standIn supply g supply',
      (model.toGraph standIn).run supply = .ok g supply' → g.ProducersFirst) ∧
    (∀ bytes supply g supply',
      (deserialize bytes).run supply = .ok g supply' → g.ProducersFirst) ∧
    ∀ (g : Graph) ranges options supply q supply', g.Linked →
      (g.quantize ranges options).run supply = .ok q supply' → q.ProducersFirst := by
  refine ⟨?_, ?_, fun _ _ _ _ => producersFirst_of_deserialize,
    fun _ _ _ _ _ _ => Linked.producersFirst_of_quantize⟩
  · intro model standIn supply indices history hhistory
    obtain ⟨t, s, hstart, rfl⟩ := History.exists_of_over? hhistory
    have hvalid := History.valid_calls (History.valid_first hstart) indices
    refine ⟨hvalid.producersFirst, ?_⟩
    intro g supply' hfinish
    obtain ⟨t', rfl, hvalid'⟩ := hvalid.finish_eq_ok hfinish
    exact hvalid'.producersFirst
  · intro model standIn supply g supply' h
    obtain ⟨t, rfl, hprogress⟩ := Model.toGraph_progress h
    exact hprogress.valid.producersFirst

theorem builders_add_producers_first_examples :
    (∃ history, History.over? raisedConstant false .initial [0, 0, 7] = some history ∧
      history.site.lowering.graph.topologicalOrder = [0, 1, 2, 3, 4]) ∧
    (∃ g supply, (raisedConstant.toGraph false).run .initial = .ok g supply ∧
      g.topologicalOrder = [0, 1, 2, 3, 4, 5]) ∧
    (∃ g supply, (deserialize oldDepthwise).run .initial = .ok g supply ∧
      g.topologicalOrder = [0, 1, 2]) ∧
    ∃ q supply, (weighed.quantize ⟨[], some (.usual .standard)⟩ ⟨.standard, true⟩).run .initial =
      .ok q supply ∧ q.topologicalOrder = [0, 1, 2, 3, 4] := by
  obtain ⟨hhistories, hmodels, hcontainers, hquantized⟩ := builders_add_producers_first
  have hhistory : (History.over? raisedConstant false .initial [0, 0, 7]).map
      (fun history => history.site.lowering.graph.layers.length) = some 5 := by
    decide +kernel
  have hmodel : ((raisedConstant.toGraph false).run' .initial).map (·.layers.length) = some 6 := by
    decide +kernel
  have hcontainer : ((deserialize oldDepthwise).run' .initial).map (·.layers.length) = some 3 := by
    decide +kernel
  have hquantize :
      ((weighed.quantize ⟨[], some (.usual .standard)⟩ ⟨.standard, true⟩).run' .initial).map
      (·.layers.length) = some 5 := by
    decide +kernel
  refine ⟨?_, ?_, ?_, ?_⟩
  · obtain ⟨history, hrun, hlength⟩ := Option.map_eq_some_iff.mp hhistory
    have horder := (hhistories _ _ _ _ _ hrun).1.order
    rw [hlength] at horder
    exact ⟨history, hrun, horder⟩
  · obtain ⟨g, hsome, hlength⟩ := Option.map_eq_some_iff.mp hmodel
    obtain ⟨supply, hrun⟩ := Build.exists_run_of_eq_some hsome
    have horder := (hmodels _ _ _ _ _ hrun).order
    rw [hlength] at horder
    exact ⟨g, supply, hrun, horder⟩
  · obtain ⟨g, hsome, hlength⟩ := Option.map_eq_some_iff.mp hcontainer
    obtain ⟨supply, hrun⟩ := Build.exists_run_of_eq_some hsome
    have horder := (hcontainers _ _ _ _ hrun).order
    rw [hlength] at horder
    exact ⟨g, supply, hrun, horder⟩
  · obtain ⟨q, hsome, hlength⟩ := Option.map_eq_some_iff.mp hquantize
    obtain ⟨supply, hrun⟩ := Build.exists_run_of_eq_some hsome
    have hlinked : weighed.Linked := (((Session.sound_start .initial).run _).coherent).linked
    have horder := (hquantized _ _ _ _ _ _ hlinked hrun).order
    rw [hlength] at horder
    exact ⟨q, supply, hrun, horder⟩

end LayerGraph
