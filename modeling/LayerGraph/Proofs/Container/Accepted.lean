import LayerGraph.Proofs.Container.Writing

/-! # What accepted containers hold

  The graph of an accepted container is coherent and complete, its connections lead from earlier
  layers to later ones, and everything in it can be written again (`deserialize_eq_ok`).

  This is an invariant of reading one record after another (`Gathered`). A record reads only from
  layers that are there already (`loadLayer_eq_ok`), and `yields_record` says what the parts of a
  record are like, whatever bytes they came from.
-/

namespace LayerGraph

namespace Container

open Codec

/-! ### Layers that can be written again -/

/-- A layer whose record has a name, slots and a body that can be written. -/
structure Rewritable (oldLayout : Bool) (c : LayerContent) : Prop where
  name : ∃ n, Codec.text.Fits c.name n
  slots : ∃ (sources : List OutputRef) (infos : List TensorInfo),
    c.inputs = sources.map some ∧ c.infos = infos.map some ∧
      sources.length < 2 ^ 32 ∧ infos.length < 2 ^ 32 ∧
      ∀ info ∈ infos, info.Consistent ∧ ∃ n, Codec.info.Fits info n
  kind : ∃ n < 2 ^ 32, c.kind.LoadedIn oldLayout n

variable {oldLayout : Bool} {c : LayerContent}

/-- A record that was read says what can be written again. -/
theorem RecordLoaded.rewritable {numbering : Numbering} {r : LayerRecord}
    (h : RecordLoaded oldLayout numbering r) : Rewritable oldLayout r.content where
  name := h.name
  slots := ⟨r.inputs, r.outputs, rfl, rfl, h.inputs_lt, h.outputs_lt, h.outputs⟩
  kind := h.kind

theorem Rewritable.complete (h : Rewritable oldLayout c) : none ∉ c.inputs ∧ none ∉ c.infos := by
  obtain ⟨sources, infos, hsources, hinfos, -⟩ := h.slots
  rw [hsources, hinfos]
  exact ⟨by simp, by simp⟩

theorem Rewritable.infos_consistent (h : Rewritable oldLayout c) {info : TensorInfo}
    (hinfo : some info ∈ c.infos) : info.Consistent := by
  obtain ⟨-, infos, -, hinfos, -, -, hall⟩ := h.slots
  rw [hinfos] at hinfo
  have hmem : info ∈ infos := by simpa using hinfo
  exact (hall info hmem).1

/-- Old depthwise weights aside, such a layer can be read back as well. -/
theorem Rewritable.storable (h : Rewritable oldLayout c)
    (hkind : c.kind.DepthwiseConsistent ∨ oldLayout = false) : c.Storable where
  infos _ hinfo := h.infos_consistent hinfo
  kind := by
    obtain ⟨_, _, hloaded⟩ := h.kind
    exact ⟨hloaded.consistent hkind, hloaded.evenParts⟩

theorem Rewritable.scaled (h : Rewritable oldLayout c) : c.Scaled where
  infos _ hinfo := (h.infos_consistent hinfo).scaled
  constants := by
    obtain ⟨_, _, hloaded⟩ := h.kind
    exact hloaded.scaled
  evenParts := by
    obtain ⟨_, _, hloaded⟩ := h.kind
    exact hloaded.evenParts

/-- Whatever is read from can be written. -/
theorem exists_inputEntries (sources : List (UInt32 × UInt32)) :
    ∃ parts, sources.zipIdx.mapM (fun (s, i) => inputEntry.write (.ofNat i, s)) = .ok parts := by
  apply Except.exists_mapM_eq_ok
  rintro ⟨source, index⟩ -
  obtain ⟨part, hpart, -⟩ := inputEntry_fits (.ofNat index, source)
  exact ⟨part, hpart⟩

/-- Descriptors that can be written can be written with their numbers. -/
theorem exists_outputEntries {infos : List TensorInfo}
    (h : ∀ info ∈ infos, ∃ n, Codec.info.Fits info n) :
    ∃ parts, infos.zipIdx.mapM (fun (info, i) => outputEntry.write (.ofNat i, info)) =
      .ok parts := by
  apply Except.exists_mapM_eq_ok
  rintro ⟨info, index⟩ hinfo
  obtain ⟨bytes, hbytes, -⟩ := uint32_fits (.ofNat index)
  obtain ⟨-, part, hpart, -⟩ := h info (List.fst_mem_of_mem_zipIdx hinfo)
  exact ⟨_, seq_write_eq_ok_iff.mpr ⟨bytes, part, hbytes, hpart, rfl⟩⟩

/-- The record of such a layer is written, whatever the layers are called. -/
theorem Rewritable.exists_record {g : Graph} {order : List LayerId} {id : LayerId}
    (h : Rewritable oldLayout c) (hc : g.content? id = some c) :
    ∃ part, RecordOf g order id part := by
  obtain ⟨sources, infos, hsources, hinfos, hsourcesLt, hinfosLt, hall⟩ := h.slots
  obtain ⟨-, name, hname, -⟩ := h.name
  obtain ⟨n, hn, hloaded⟩ := h.kind
  obtain ⟨bodyBytes, hbody, hlength⟩ := hloaded.body
  obtain ⟨inputs, hinputs⟩ := exists_inputEntries (sources.map (rawSource order))
  obtain ⟨outputs, houtputs⟩ := exists_outputEntries fun info hinfo => (hall info hinfo).2
  have hblob := blob_write_eq_ok_iff.mpr ⟨hlength ▸ hn, rfl⟩
  have hcount : (sources.map (rawSource order)).length < 2 ^ 32 := by
    rw [List.length_map]
    exact hsourcesLt
  exact ⟨_, c, sources, infos, hc, hsources, hinfos, writeRecord_eq_ok_iff.mpr
    ⟨name, inputs, outputs, bodyBytes, _, hname, hcount, hinputs, hinfosLt, houtputs, hbody, hblob,
      rfl⟩⟩

/-! ### Reading records -/

/-- What holds after each record that is read. -/
structure Gathered (oldLayout : Bool) (g : Graph) (supply : GuidSupply) : Prop where
  sound : Session.Sound ⟨g, supply⟩
  forward : g.Forward
  rewritable : ∀ id c, g.content? id = some c → Rewritable oldLayout c

variable {g g' : Graph} {supply supply' : GuidSupply}

theorem gathered_empty (oldLayout : Bool) (supply : GuidSupply) :
    Gathered oldLayout .empty supply where
  sound := Session.sound_start supply
  forward a b hab := by
    have hlt := hab.lt_right
    simp [Graph.empty] at hlt
  rewritable id c hc := by simp [Graph.content?, Graph.empty] at hc

/-- A new layer reads from layers before it. -/
theorem Gathered.recorded {r : LayerRecord} (h : Gathered oldLayout g supply)
    (hr : Rewritable oldLayout r.content) (hrecorded : Recorded g r g')
    (hsound : Session.Sound ⟨g', supply'⟩) : Gathered oldLayout g' supply' where
  sound := hsound
  forward := by
    intro a b hab
    rw [Graph.feeds_iff_mem_sources, Graph.sources_eq_content?, hrecorded.content?] at hab
    obtain ⟨p, hp, rfl⟩ := hab
    by_cases hb : b = g.layers.length
    · subst hb
      have hmem : p ∈ r.inputs := by simpa [LayerRecord.content] using hp
      exact (hrecorded.inputs_exist p hmem).lt
    · rw [if_neg hb, ← Graph.sources_eq_content?] at hp
      exact h.forward p.layer b (Graph.feeds_iff_mem_sources.mpr ⟨p, hp, rfl⟩)
  rewritable := by
    intro id c hc
    rw [hrecorded.content?] at hc
    split at hc
    · cases hc
      exact hr
    · exact h.rewritable id c hc

/-- A record was read, and its layer was added. -/
structure RecordAdded (features : Features) (s : Loading) (r : LayerRecord) (s' : Loading) :
    Prop where
  read : (readRecord features s.numbering s.graph).run s.cursor = .ok (r, s'.cursor)
  numbering : s'.numbering = (r.number, s.graph.layers.length) :: s.numbering
  recorded : Recorded s.graph r s'.graph

/-- What reading a record does. -/
theorem loadLayer_eq_ok {features : Features} {s s' : Loading}
    (hs : Session.Sound ⟨s.graph, supply⟩)
    (hload : (loadLayer features s).run supply = .ok s' supply') :
    ∃ r, RecordLoaded (decide (features.weightsLayout = 0)) s.numbering r ∧
      RecordAdded features s r s' ∧ Session.Sound ⟨s'.graph, supply'⟩ := by
  obtain ⟨⟨r, cursor⟩, t, hreads, hload⟩ := Build.bind_eq_ok_iff.mp hload
  obtain ⟨hread, rfl⟩ := Build.ofExcept_eq_ok_iff.mp hreads
  obtain ⟨⟨layer, graph⟩, t', hadds, hload⟩ := Build.bind_eq_ok_iff.mp hload
  have hadd := Build.adaptExcept_eq_ok_iff.mp hadds
  obtain ⟨rfl, rfl⟩ := Build.pure_eq_ok_iff.mp hload
  obtain ⟨_, _, _, hloaded⟩ := yields_record s.cursor r cursor hread
  obtain ⟨rfl, hrecorded, hsound⟩ := addRecord_eq_ok hs hloaded.slots hadd
  exact ⟨r, hloaded, ⟨hread, rfl, hrecorded⟩, hsound⟩

/-- Reading a record keeps the invariant and adds one layer. -/
theorem Gathered.loadLayer {features : Features} {s s' : Loading}
    (h : Gathered (decide (features.weightsLayout = 0)) s.graph supply)
    (hload : (loadLayer features s).run supply = .ok s' supply') :
    Gathered (decide (features.weightsLayout = 0)) s'.graph supply' ∧
      s'.graph.layers.length = s.graph.layers.length + 1 := by
  obtain ⟨r, hloaded, hadded, hsound⟩ := loadLayer_eq_ok h.sound hload
  exact ⟨h.recorded hloaded.rewritable hadded.recorded hsound, hadded.recorded.length⟩

theorem Gathered.loadLayers {features : Features} {count : Nat} {s s' : Loading}
    (h : Gathered (decide (features.weightsLayout = 0)) s.graph supply)
    (hload : (loadLayers features count s).run supply = .ok s' supply') :
    Gathered (decide (features.weightsLayout = 0)) s'.graph supply' ∧
      s'.graph.layers.length = s.graph.layers.length + count := by
  induction count generalizing s supply with
  | zero =>
    obtain ⟨rfl, rfl⟩ := Build.pure_eq_ok_iff.mp hload
    exact ⟨h, rfl⟩
  | succ count ih =>
    obtain ⟨s₁, t, hstep, hload⟩ := Build.bind_eq_ok_iff.mp hload
    obtain ⟨h₁, hlength₁⟩ := h.loadLayer hstep
    obtain ⟨h', hlength'⟩ := ih h₁ hload
    refine ⟨h', ?_⟩
    rw [hlength', hlength₁]
    omega

/-! ### Boundaries and the end -/

/-- A boundary has as many layers as the list that was read. -/
theorem reordered_of_loadBoundary {features : Features} {direction : Direction} {s s' : Loading}
    (hs : s.graph.Coherent) (hload : loadBoundary features direction s = .ok s') :
    ∃ order : List BindingId, order.length < 2 ^ 32 ∧
      s.graph.Reordered direction order s'.graph := by
  obtain ⟨⟨ids, cursor⟩, hread, hload⟩ := Except.bind_eq_ok_iff.mp hload
  obtain ⟨order, horder, hload⟩ := Except.bind_eq_ok_iff.mp hload
  have hlength : order.length < 2 ^ 32 := by
    obtain ⟨_, _, _, -, hfits⟩ := int32s_plain.yields s.cursor ids cursor hread
    have hids : ids.length < 2 ^ 32 := ((list_fits_iff int32_fits).mp hfits).1
    rw [← (Except.mapM_eq_ok_iff.mp horder).length_eq]
    exact hids
  refine ⟨order, hlength, ?_⟩
  cases hreorder : s.graph.reorder direction order with
  | error cause =>
    simp only [hreorder] at hload
    cases hload
  | ok g =>
    simp only [hreorder] at hload
    obtain rfl := Except.pure_eq_ok_iff.mp hload
    exact hs.reorder hreorder

theorem checkEnd_eq_ok {s : Loading} (h : checkEnd s = .ok g) :
    s.graph = g ∧ s.cursor.rest = [] ∧ g.Complete := by
  unfold checkEnd at h
  split at h
  · next hrest =>
    split at h
    · next hvalid =>
      cases h
      exact ⟨rfl, List.isEmpty_iff.mp hrest, Graph.validate_eq_ok_iff.mp hvalid⟩
    · cases h
  · cases h

/-- Putting a boundary in order leaves the layers as they are. -/
theorem Gathered.reordered {direction : Direction} {order : List BindingId}
    (h : Gathered oldLayout g supply) (hreordered : g.Reordered direction order g') :
    Gathered oldLayout g' supply := by
  have hcontent : g'.content? = g.content? := Graph.content?_of_layers hreordered.layers
  refine ⟨⟨hreordered.coherent, ?_⟩, ?_, ?_⟩
  · intro id guid hguid
    apply h.sound.spent id guid
    show g.layers[id]?.map _ = _
    rw [← hreordered.layers]
    exact hguid
  · exact h.forward.of_layers hreordered.layers
  · intro id c hc
    rw [hcontent] at hc
    exact h.rewritable id c hc

/-- The graph of a container that is accepted. -/
structure Accepted (oldLayout : Bool) (g : Graph) (supply : GuidSupply) : Prop
    extends Gathered oldLayout g supply where
  complete : g.Complete
  layers_lt : g.layers.length < 2 ^ 32
  bindings_lt : ∀ direction, (g.bindings direction).length < 2 ^ 32

/-- The parts of a container that is accepted: what comes before the records, the records, the two
    lists of boundaries, and the end. -/
theorem deserialize_parts {bytes : List UInt8}
    (h : (Graph.deserialize bytes).run supply = .ok g supply') :
    ∃ features count cursor s s₁ s₂,
      readPreamble.run (.start bytes) = .ok ((features, count), cursor) ∧
      (loadLayers features count ⟨cursor, [], .empty⟩).run supply = .ok s supply' ∧
      loadBoundary features .input s = .ok s₁ ∧ loadBoundary features .output s₁ = .ok s₂ ∧
      checkEnd s₂ = .ok g := by
  obtain ⟨⟨⟨features, count⟩, cursor⟩, t, hpreambles, h⟩ := Build.bind_eq_ok_iff.mp h
  obtain ⟨hpreamble, rfl⟩ := Build.ofExcept_eq_ok_iff.mp hpreambles
  obtain ⟨s, t', hlayers, h⟩ := Build.bind_eq_ok_iff.mp h
  obtain ⟨s₁, t₁, hloads₁, h⟩ := Build.bind_eq_ok_iff.mp h
  obtain ⟨hload₁, rfl⟩ := Build.ofExcept_eq_ok_iff.mp hloads₁
  obtain ⟨s₂, t₂, hloads₂, h⟩ := Build.bind_eq_ok_iff.mp h
  obtain ⟨hload₂, rfl⟩ := Build.ofExcept_eq_ok_iff.mp hloads₂
  obtain ⟨hend, rfl⟩ := Build.ofExcept_eq_ok_iff.mp h
  exact ⟨features, count, cursor, s, s₁, s₂, hpreamble, hlayers, hload₁, hload₂, hend⟩

theorem deserialize_eq_ok {bytes : List UInt8}
    (h : (Graph.deserialize bytes).run supply = .ok g supply') :
    ∃ features count cursor, readPreamble.run (.start bytes) = .ok ((features, count), cursor) ∧
      Accepted (decide (features.weightsLayout = 0)) g supply' := by
  obtain ⟨features, count, cursor, s, s₁, s₂, hpreamble, hlayers, hload₁, hload₂, hend⟩ :=
    deserialize_parts h
  obtain ⟨hs, hlength⟩ := (gathered_empty _ supply).loadLayers hlayers
  obtain ⟨inputs, hinputs, hreordered₁⟩ := reordered_of_loadBoundary hs.sound.coherent hload₁
  have hs₁ := hs.reordered hreordered₁
  obtain ⟨outputs, houtputs, hreordered₂⟩ := reordered_of_loadBoundary hs₁.sound.coherent hload₂
  have hs₂ := hs₁.reordered hreordered₂
  obtain ⟨rfl, -, hcomplete⟩ := checkEnd_eq_ok hend
  refine ⟨features, count, cursor, hpreamble, hs₂, hcomplete, ?_, ?_⟩
  · -- The number of layers was read from four bytes.
    have hcount : count < 2 ^ 32 := by
      obtain ⟨_, _, -, hrun⟩ := Read.bind_eq_ok_iff.mp hpreamble
      obtain ⟨_, _, -, hrun⟩ := Read.bind_eq_ok_iff.mp hrun
      obtain ⟨_, _, hcount, hrun⟩ := Read.bind_eq_ok_iff.mp hrun
      cases hrun
      obtain ⟨_, _, _, hlt, -⟩ := length_yields 18 _ _ _ hcount
      exact hlt
    rw [hreordered₂.layers, hreordered₁.layers, hlength]
    simpa [Graph.empty] using hcount
  · intro direction
    rw [hreordered₂.bindings, hreordered₁.bindings]
    cases direction with
    | input => exact hinputs
    | output => exact houtputs

/-- An accepted graph can be written. -/
theorem Accepted.exists_serialize (h : Accepted oldLayout g supply) :
    ∃ bytes, g.serialize = .ok bytes := by
  have hg : g.Coherent := h.sound.coherent
  obtain ⟨front, hfront⟩ := exists_writePreamble h.layers_lt
  have hparts : ∃ parts, List.Forall₂ (RecordOf g g.topologicalOrder) g.topologicalOrder parts := by
    apply exists_forall₂
    intro id hid
    obtain ⟨c, hc⟩ := Graph.exists_content? (hg.linked.mem_topologicalOrder_iff.mp hid)
    exact (h.rewritable id c hc).exists_record hc
  obtain ⟨parts, hparts⟩ := hparts
  obtain ⟨inputs, hinputs, -⟩ := (list_fits_iff int32_fits).mpr ⟨h.bindings_lt .input, rfl⟩
  obtain ⟨outputs, houtputs, -⟩ := (list_fits_iff int32_fits).mpr ⟨h.bindings_lt .output, rfl⟩
  exact ⟨_, hg.serialize_eq_ok_iff.mpr
    ⟨h.complete, front, parts, inputs, outputs, hfront, hparts, hinputs, houtputs, rfl⟩⟩

end Container

end LayerGraph
