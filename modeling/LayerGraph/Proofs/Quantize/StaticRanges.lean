import LayerGraph.Proofs.Graph.TopologicalOrder
import LayerGraph.Proofs.Quantize.Constants
import LayerGraph.Proofs.Quantize.Recording
import LayerGraph.Quantize.StaticRanges

/-! # Static ranges

  Main statement: the estimated ranges follow from each other as the layers say
  (`RangeTable.estimate_follows`). The ranges that a layer reads are those that the finished table
  holds, though they were read while it was filled.

  Layers are visited producers first, and an entry stays what it is. So whatever a visited layer
  reads has its entry already, and reads the same in every later table (`Estimated.gain`). A layer
  is visited once and no two layers have the same identity, so no slot is given two ranges
  (`Estimated.recorded?_eq_none`); all that can fail is a range whose ends are not in order.
-/

namespace LayerGraph

/-- The layer hands on the elements of its first input, moved or picked. -/
def LayerKind.movesElements : LayerKind → Bool
  | .batchToSpace _ | .depthToSpace _ | .gather _ | .pad _ | .permute _ | .pooling _
  | .reshape _ | .resize _ | .slice _ | .spaceToBatch _ | .spaceToDepth _ | .splitter _
  | .stridedSlice _ | .transpose _ => true
  | _ => false

/-- The entries of the output slots of a layer, all of which have one range. -/
def Layer.entries (l : Layer) (range : ValueRange) : List ((LayerGuid × Nat) × ValueRange) :=
  (List.range l.outputs.length).map fun slot => ((l.guid, slot), range)

theorem Layer.mem_entries {l : Layer} {guid : LayerGuid} {slot : Nat} {range range' : ValueRange} :
    ((guid, slot), range') ∈ l.entries range ↔
      guid = l.guid ∧ slot < l.outputs.length ∧ range' = range := by
  simp only [entries, List.mem_map, List.mem_range, Prod.mk.injEq]
  constructor
  · rintro ⟨slot, hslot, ⟨rfl, rfl⟩, rfl⟩
    exact ⟨rfl, hslot, rfl⟩
  · rintro ⟨rfl, hslot, rfl⟩
    exact ⟨slot, hslot, ⟨rfl, rfl⟩, rfl⟩

theorem Layer.nodup_entries (l : Layer) (range : ValueRange) :
    ((l.entries range).map Prod.fst).Nodup := by
  rw [entries, List.map_map]
  exact List.nodup_range.map fun slot slot' h => congrArg Prod.snd h

namespace RangeTable

open Recording

variable {extent : RangeExtent} {g : Graph} {t t' : RangeTable} {id index : Nat} {l : Layer}
  {kind : LayerKind}
variable {entries : List ((LayerGuid × Nat) × ValueRange)} {done : List (LayerId × Layer)}

/-! ### What a layer computes -/

/-- Only a range can be wrong; that of a layer is always found. -/
theorem exists_layerRange (extent : RangeExtent) (t : RangeTable) (g : Graph) (id : LayerId)
    (kind : LayerKind) : ∃ range, t.layerRange extent g id kind = .ok range := by
  cases kind with
  | constant tensor =>
    unfold layerRange
    dsimp only
    split
    · next hfloat =>
      rw [Constant.minMax_eq hfloat]
      exact ⟨_, rfl⟩
    · exact ⟨_, rfl⟩
  | _ => exact ⟨_, rfl⟩

/-- The range depends on what the inputs of the layer read. -/
theorem layerRange_congr
    (h : ∀ index, t'.inputRange extent g id index = t.inputRange extent g id index) :
    t'.layerRange extent g id kind = t.layerRange extent g id kind := by
  have hinputs : t'.inputRange extent g id = t.inputRange extent g id := funext h
  unfold layerRange
  rw [hinputs]

theorem layerRange_of_movesElements (h : kind.movesElements = true) :
    t.layerRange extent g id kind = .ok (t.inputRange extent g id 0) := by
  cases kind <;> first | rfl | cases h

/-- What an input slot reads has a range already. -/
def Knows (t : RangeTable) (g : Graph) (slot : InputRef) : Prop :=
  ∀ p, g.producer? slot = some p → ∃ l range, g.layers[p.layer]? = some l ∧
    t.recorded? l.guid p.index = some range

/-- A range that is known is read in the same way from a table that gained more. -/
theorem Gains.inputRange_eq (h : t.Gains entries t') (hknows : t.Knows g ⟨id, index⟩) :
    t'.inputRange extent g id index = t.inputRange extent g id index := by
  unfold inputRange
  cases hp : g.producer? ⟨id, index⟩ with
  | none => rfl
  | some p =>
    obtain ⟨l, range, hl, hrange⟩ := hknows p hp
    have hrange' := (h.recorded _ _ _).mpr (.inr hrange)
    simp only [hl, range?, hrange, hrange', Option.bind_eq_bind, Option.bind_some, Option.some_or]

/-! ### Visiting layers -/

/-- The visited layers have the ranges that they compute from the table. Nothing else has one. -/
structure Estimated (extent : RangeExtent) (g : Graph) (done : List (LayerId × Layer))
    (t : RangeTable) : Prop where
  computed : ∀ id l, (id, l) ∈ done → ∃ range, t.layerRange extent g id l.kind = .ok range ∧
    ∀ slot < l.outputs.length, t.recorded? l.guid slot = some range
  visited : ∀ guid slot range, t.recorded? guid slot = some range →
    ∃ id l, (id, l) ∈ done ∧ l.guid = guid ∧ slot < l.outputs.length
  isRange : ∀ guid slot range, t.recorded? guid slot = some range →
    Scheme.isRange range.min range.max = true

theorem estimated_nil (extent : RangeExtent) (g : Graph) (defaultRange : Option ValueRange) :
    Estimated extent g [] { defaultRange := defaultRange } where
  computed := by simp
  visited := by simp [recorded?]
  isRange := by simp [recorded?]

/-- The range of a layer is recorded for its slots one after the other. -/
theorem outcome_recordStatic {range : ValueRange}
    (h : t.layerRange extent g id l.kind = .ok range) :
    outcome (recordStatic extent g id l) t = (l.entries range).foldlM
      (fun t entry => outcome (record entry.1.1 entry.1.2 entry.2) t) t := by
  have hrun : (recordStatic extent g id l).run t =
      ((List.range l.outputs.length).forM fun slot => record l.guid slot range).run t := by
    unfold recordStatic
    simp only [EStateM.run_bind, EStateM.run_get, h]
  rw [outcome, hrun, ← outcome, outcome_forM, Layer.entries, List.foldlM_map]

/-- What a layer reads is known when its producers were visited. -/
theorem Estimated.knows (h : Estimated extent g done t) (hg : g.Linked)
    (hlayers : ∀ id l, (id, l) ∈ done → g.layers[id]? = some l)
    (hproducers : ∀ a, g.Feeds a id → a ∈ done.map Prod.fst) (index : Nat) :
    t.Knows g ⟨id, index⟩ := by
  intro p hp
  obtain ⟨⟨a, l⟩, hmem, rfl : a = p.layer⟩ :=
    List.mem_map.mp (hproducers p.layer ⟨p.index, index, hp⟩)
  have hl := hlayers _ _ hmem
  -- The slot that is read is one of the slots of its layer, and all of these have ranges.
  obtain ⟨l', hl', hindex⟩ := (hg.ends_exist hp).1
  obtain rfl : l = l' := Option.some.inj (hl.symm.trans hl')
  obtain ⟨range, -, hrange⟩ := h.computed _ _ hmem
  exact ⟨l, range, hl, hrange _ hindex⟩

/-- A layer that was not visited has no ranges, since no other layer has its identity. -/
theorem Estimated.recorded?_eq_none (h : Estimated extent g done t) (hg : g.Linked)
    (hlayers : ∀ id l, (id, l) ∈ done → g.layers[id]? = some l) (hl : g.layers[id]? = some l)
    (hfresh : id ∉ done.map Prod.fst) (slot : Nat) : t.recorded? l.guid slot = none := by
  by_contra hsome
  obtain ⟨range, hrange⟩ := Option.ne_none_iff_exists'.mp hsome
  obtain ⟨a, m, hm, hguid, -⟩ := h.visited _ _ _ hrange
  have ha : g.guid? a = some l.guid := by
    rw [Graph.guid?, hlayers a m hm]
    exact congrArg some hguid
  have hid : g.guid? id = some l.guid := by
    rw [Graph.guid?, hl]
    rfl
  obtain rfl := hg.guid_injective ha hid
  exact hfresh (List.mem_map_of_mem hm)

/-- When a layer gains the range that it computes, it and the layers before it still compute their
    ranges, provided that what they read was known before. -/
theorem Estimated.gain {range : ValueRange} (h : Estimated extent g done t)
    (hknows : ∀ b ∈ done.map Prod.fst ++ [id], ∀ index, t.Knows g ⟨b, index⟩)
    (hrange : t.layerRange extent g id l.kind = .ok range) (hgains : t.Gains (l.entries range) t') :
    Estimated extent g (done ++ [(id, l)]) t' := by
  have hsame (b : LayerId) (kind : LayerKind) (hb : b ∈ done.map Prod.fst ++ [id]) :
      t'.layerRange extent g b kind = t.layerRange extent g b kind :=
    layerRange_congr fun index => hgains.inputRange_eq (hknows b hb index)
  constructor
  · intro b m hm
    obtain hm | hm := List.mem_append.mp hm
    · obtain ⟨old, hold, hslots⟩ := h.computed b m hm
      rw [hsame b m.kind (List.mem_append_left _ (List.mem_map_of_mem hm))]
      exact ⟨old, hold, fun slot hslot => (hgains.recorded _ _ _).mpr (.inr (hslots slot hslot))⟩
    · obtain ⟨rfl, rfl⟩ := Prod.mk.inj (List.mem_singleton.mp hm)
      rw [hsame b m.kind (by simp)]
      exact ⟨range, hrange, fun slot hslot =>
        (hgains.recorded _ _ _).mpr (.inl (Layer.mem_entries.mpr ⟨rfl, hslot, rfl⟩))⟩
  · intro guid slot r hr
    obtain hnew | hold := (hgains.recorded _ _ _).mp hr
    · obtain ⟨rfl, hslot, -⟩ := Layer.mem_entries.mp hnew
      exact ⟨id, l, by simp, rfl, hslot⟩
    · obtain ⟨a, m, hm, hguid, hslot⟩ := h.visited _ _ _ hold
      exact ⟨a, m, List.mem_append_left _ hm, hguid, hslot⟩
  · intro guid slot r hr
    obtain hnew | hold := (hgains.recorded _ _ _).mp hr
    · exact hgains.isRange _ hnew
    · exact h.isRange _ _ _ hold

/-- Visiting the next layer gives its slots the range that it computes, unless the range is
    refused. -/
theorem Estimated.visit (h : Estimated extent g done t) (hg : g.Linked)
    {after : List (LayerId × Layer)} (horder : g.orderedLayers = done ++ (id, l) :: after) :
    Except.Ends QuantizationError.RefusesRange (Estimated extent g (done ++ [(id, l)]))
      (outcome (recordStatic extent g id l) t) := by
  obtain ⟨hl, hfresh, hclosed⟩ := hg.place_of_orderedLayers horder
  have hlayers (a : LayerId) (m : Layer) (hm : (a, m) ∈ done) : g.layers[a]? = some m :=
    Graph.getElem?_of_mem_orderedLayers (by rw [horder]; exact List.mem_append_left _ hm)
  obtain ⟨range, hrange⟩ := exists_layerRange extent t g id l.kind
  have hfree : ∀ entry ∈ l.entries range, t.recorded? entry.1.1 entry.1.2 = none := by
    intro entry hentry
    obtain ⟨hguid, -, -⟩ := Layer.mem_entries.mp hentry
    rw [hguid]
    exact h.recorded?_eq_none hg hlayers hl hfresh _
  have hknows (b : LayerId) (hb : b ∈ done.map Prod.fst ++ [id]) (index : Nat) :
      t.Knows g ⟨b, index⟩ :=
    h.knows hg hlayers (fun a hfeeds => hclosed a b hfeeds hb) index
  rw [outcome_recordStatic hrange]
  exact (ends_recordAll (l.nodup_entries range) hfree).mono fun t' hgains =>
    h.gain hknows hrange hgains

/-- All layers are visited, unless a range is refused. -/
theorem ends_estimate (extent : RangeExtent) (hg : g.Linked) :
    Except.Ends QuantizationError.RefusesRange (Estimated extent g g.orderedLayers)
      (estimate extent g) := by
  have hfold : estimate extent g = g.orderedLayers.foldlM
      (fun t entry => outcome (recordStatic extent g entry.1 entry.2) t)
      { defaultRange := some (.usual extent) } := by
    rw [← outcome_forM]
    rfl
  rw [hfold]
  refine Except.Ends.foldlM (P := Estimated extent g) ?_ (estimated_nil extent g _)
  rintro done ⟨id, l⟩ after t horder h
  exact h.visit hg horder

/-! ### The finished table -/

/-- The range that a table holds for what an input slot reads. A slot that reads nothing has the
    usual range. -/
def fedRange? (extent : RangeExtent) (t : RangeTable) (g : Graph) (slot : InputRef) :
    Option ValueRange :=
  match g.producer? slot with
  | some p => (g.guid? p.layer).bind (t.recorded? · p.index)
  | none => some (.usual extent)

/-- The ranges of a table follow from each other as the layers of a graph say. -/
structure Follows (extent : RangeExtent) (g : Graph) (t : RangeTable) : Prop where
  /-- The output slots of the layers have ranges, and nothing else has. -/
  isSome_recorded : ∀ guid slot, (t.recorded? guid slot).isSome = true ↔
    ∃ (id : LayerId) (l : Layer), g.layers[id]? = some l ∧ l.guid = guid ∧
      slot < l.outputs.length
  /-- The ends of a range are in order. -/
  isRange : ∀ guid slot range, t.recorded? guid slot = some range →
    Scheme.isRange range.min range.max = true
  /-- All slots of a layer have the range that the layer computes from the table. -/
  computed : ∀ (id : LayerId) (l : Layer), g.layers[id]? = some l → ∃ range,
    t.layerRange extent g id l.kind = .ok range ∧
      ∀ slot < l.outputs.length, t.recorded? l.guid slot = some range
  /-- A layer that moves elements has the range of what its first input reads. -/
  moved : ∀ (id : LayerId) (l : Layer), g.layers[id]? = some l → l.kind.movesElements = true →
    ∀ slot < l.outputs.length, t.recorded? l.guid slot = t.fedRange? extent g ⟨id, 0⟩
  /-- Joined tensors have the range around those of what all inputs read. -/
  joined : ∀ (id : LayerId) (l : Layer) (p : ConcatParams), g.layers[id]? = some l →
    l.kind = .concat p → ∃ ranges : List ValueRange,
      (List.range l.inputs.length).map (fun index => t.fedRange? extent g ⟨id, index⟩) =
          ranges.map some ∧
        ∀ slot < l.outputs.length, t.recorded? l.guid slot = some (hull ranges)

/-- What is known is read as the table holds it. -/
theorem Knows.fedRange?_eq (h : t.Knows g ⟨id, index⟩) :
    t.fedRange? extent g ⟨id, index⟩ = some (t.inputRange extent g id index) := by
  unfold fedRange? inputRange
  cases hp : g.producer? ⟨id, index⟩ with
  | none => rfl
  | some p =>
    obtain ⟨l, range, hl, hrange⟩ := h p hp
    simp [Graph.guid?, hl, hrange, range?]

theorem Estimated.follows (h : Estimated extent g g.orderedLayers t) (hg : g.Linked) :
    Follows extent g t := by
  have hmem (id : LayerId) (l : Layer) : (id, l) ∈ g.orderedLayers ↔ g.layers[id]? = some l := by
    refine ⟨Graph.getElem?_of_mem_orderedLayers, fun hl => ?_⟩
    have hlt := (List.getElem?_eq_some_iff.mp hl).1
    exact List.mem_filterMap.mpr ⟨id, hg.mem_topologicalOrder_iff.mpr hlt, by rw [hl]; rfl⟩
  have hfed (id : LayerId) (index : Nat) :
      t.fedRange? extent g ⟨id, index⟩ = some (t.inputRange extent g id index) := by
    refine (h.knows hg (fun a m => (hmem a m).mp) ?_ index).fedRange?_eq
    intro a hfeeds
    rw [hg.map_fst_orderedLayers]
    exact hg.mem_topologicalOrder_iff.mpr (hg.lt_of_feeds hfeeds)
  have hcomputed (id : LayerId) (l : Layer) (hl : g.layers[id]? = some l) :=
    h.computed id l ((hmem id l).mpr hl)
  constructor
  · intro guid slot
    constructor
    · intro hsome
      obtain ⟨range, hrange⟩ := Option.isSome_iff_exists.mp hsome
      obtain ⟨id, l, hl, hguid, hslot⟩ := h.visited _ _ _ hrange
      exact ⟨id, l, (hmem id l).mp hl, hguid, hslot⟩
    · rintro ⟨id, l, hl, rfl, hslot⟩
      obtain ⟨range, -, hslots⟩ := hcomputed id l hl
      rw [hslots slot hslot]
      rfl
  · exact h.isRange
  · exact hcomputed
  · intro id l hl hmoves slot hslot
    obtain ⟨range, hrange, hslots⟩ := hcomputed id l hl
    rw [layerRange_of_movesElements hmoves] at hrange
    rw [hslots slot hslot, hfed, Except.ok.inj hrange]
  · intro id l p hl hkind
    obtain ⟨range, hrange, hslots⟩ := hcomputed id l hl
    have hcount : l.inputs.length = p.origins.length := by
      rw [(hg.slots id l hl).1, hkind]
      rfl
    rw [hkind] at hrange
    refine ⟨(List.range l.inputs.length).map (t.inputRange extent g id), ?_, ?_⟩
    · rw [List.map_map]
      exact List.map_congr_left fun index _ => hfed id index
    · intro slot hslot
      rw [hslots slot hslot, hcount, ← Except.ok.inj hrange]

/-- The estimated ranges of a graph follow from each other as its layers say, whatever the extent of
    the usual range. When there are none, the ends of a range are not in order; no slot is given a
    second range. -/
theorem estimate_follows (hg : g.Linked) :
    (∀ t, estimate extent g = .ok t → Follows extent g t) ∧
      ∀ e, estimate extent g = .error e → ∃ min max, e = .invalidRange min max ∧
        Scheme.isRange min max = false := by
  have hends := ends_estimate extent hg
  constructor
  · intro t ht
    exact (hends.post_of_ok ht).follows hg
  · intro e he
    exact hends.fails_of_error he

/-- Two functions of one input are joined and taken apart again, and a reshape reads nothing. The
    layers that read come before those that they read. -/
def branched : Graph :=
  ((Session.start .initial).run [.addLayer (.splitter ⟨[[0], [1]], [[1], [1]]⟩) "parts",
    .addLayer (.concat ⟨0, [[0], [1]]⟩) "joined", .addLayer (.input 0) "x",
    .addLayer (.activation ⟨.tanH, .zero, .zero⟩) "tanh",
    .addLayer (.activation ⟨.boundedReLu, 6, .zero⟩) "relu6", .addLayer (.reshape [2]) "loose",
    .connect ⟨2, 0⟩ ⟨3, 0⟩, .connect ⟨2, 0⟩ ⟨4, 0⟩, .connect ⟨3, 0⟩ ⟨1, 0⟩,
    .connect ⟨4, 0⟩ ⟨1, 1⟩, .connect ⟨1, 0⟩ ⟨0, 0⟩]).graph

/-- Nothing is joined. -/
def unjoined : Graph :=
  ((Session.start .initial).run [.addLayer (.concat ⟨0, []⟩) "nothing"]).graph

/-- The second part has the range around both functions, and the layer that reads nothing has the
    usual range, here of the extent that a setting says; what is joined of nothing has no range. -/
theorem estimate_follows_branched :
    (∃ t, estimate (.ofSetting (some "6.5")) branched = .ok t ∧
      Follows (.ofSetting (some "6.5")) branched t ∧
      t.recorded? ⟨1⟩ 1 = some ⟨.ofInt (-1), 6⟩ ∧
      t.recorded? ⟨6⟩ 0 = some ⟨-(.ofInt 13 / .ofInt 2), .ofInt 13 / .ofInt 2⟩) ∧
    ∃ min max, estimate .standard unjoined = .error (.invalidRange min max) ∧
      Scheme.isRange min max = false := by
  constructor
  · have hlinked : branched.Linked := ((Session.sound_start .initial).run _).coherent.linked
    have hranges : (estimate (.ofSetting (some "6.5")) branched).toOption.any (fun t =>
        t.recorded? ⟨1⟩ 1 == some ⟨.ofInt (-1), 6⟩ &&
        t.recorded? ⟨6⟩ 0 == some ⟨-(.ofInt 13 / .ofInt 2), .ofInt 13 / .ofInt 2⟩) = true := by
      decide +kernel
    obtain ⟨t, ht, hranges⟩ := (Option.any_eq_true _ _).mp hranges
    rw [Bool.and_eq_true, beq_iff_eq, beq_iff_eq] at hranges
    have hestimate := Except.toOption_eq_some_iff.mp ht
    exact ⟨t, hestimate, (estimate_follows hlinked).1 t hestimate, hranges.1, hranges.2⟩
  · have hlinked : unjoined.Linked := ((Session.sound_start .initial).run _).coherent.linked
    cases he : estimate .standard unjoined with
    | ok t =>
      have hnone : (estimate .standard unjoined).toOption.isNone = true := by decide +kernel
      rw [he] at hnone
      cases hnone
    | error e =>
      obtain ⟨min, max, rfl, hrange⟩ := (estimate_follows hlinked).2 e he
      exact ⟨min, max, rfl, hrange⟩

end RangeTable

end LayerGraph
