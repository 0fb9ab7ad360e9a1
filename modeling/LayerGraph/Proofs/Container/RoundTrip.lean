import LayerGraph.Proofs.Container.Writing

/-! # Reading what was written

  The container of a graph is read as the graph with its layers in topological order
  (`deserialize_serialize`).

  The records are read one by one. What is invariant is that the layers read so far are those at
  the front of the order, with each layer that they read called by its place (`Loaded`). A record
  never reads from a layer that is still to come, because producers stand in front.
-/

namespace LayerGraph

namespace Container

open Codec

/-! ### In front of the records -/

theorem takes_header :
    readHeader.Takes (magic ++ LittleEndian.encode 4 formatVersion.toNat) () := by
  refine (Read.Takes.bytes rfl).bind ?_
  refine Read.Takes.check (not_not.mpr rfl) ?_
  refine Read.Takes.offset fun start => (uint32_plain.takes trivial rfl).then ?_
  rw [if_neg (not_not.mpr rfl)]
  exact Read.Takes.pure

theorem takes_entry {seen : List UInt16} {f : Features} {feature : UInt16} {version : UInt32}
    {bytes : List UInt8} (hwrite : Features.entry.write (feature, version) = .ok bytes)
    (hnew : feature ∉ seen) (hle : ¬ Features.newest feature < version) :
    (Features.readEntry seen f).Takes bytes
      (feature :: seen, (f.set? feature version).getD f) := by
  refine Read.Takes.offset fun start => (entry_plain.takes trivial hwrite).then ?_
  refine Read.Takes.check (by simp [hnew]) ?_
  exact Read.Takes.check hle Read.Takes.pure

/-- The table that is written says what is written. -/
theorem takes_features {bytes : List UInt8} (hwrite : Features.current.write = .ok bytes) :
    Features.read.Takes bytes .current := by
  obtain ⟨parts, hparts, hlt, rfl⟩ := list_write_eq_ok_iff.mp hwrite
  have hroom := length_flatten_le hparts fun _ _ => entry_plain.least
  refine length_takes (length_write_of_lt hlt) hroom ?_
  rcases hparts with _ | ⟨h₀, _ | ⟨h₁, _ | ⟨h₂, _ | _⟩⟩⟩
  refine (takes_entry h₀ (by decide) (by decide)).bind ?_
  refine (takes_entry h₁ (by decide) (by decide)).bind ?_
  exact (takes_entry h₂ (by decide) (by decide)).bind Read.Takes.pure

/-- What is written in front of the records is read back when the records may follow. -/
theorem run_preamble {count : Nat} {front rest : List UInt8}
    (hwrite : writePreamble count = .ok front) (hroom : count * 18 ≤ rest.length) (offset : Nat) :
    readPreamble.run ⟨offset, front ++ rest⟩ =
      .ok ((.current, count), ⟨offset + front.length, rest⟩) := by
  obtain ⟨features, hfeatures, hlt, rfl⟩ := writePreamble_eq_ok_iff.mp hwrite
  have hcount : (length 18).write count = .ok (LittleEndian.encode 4 count) :=
    length_write_of_lt hlt
  simp only [List.append_assoc (magic ++ _), List.append_assoc features, List.length_append,
    ← Nat.add_assoc]
  refine Read.bind_eq_ok_iff.mpr ⟨(), _, takes_header offset _, ?_⟩
  refine Read.bind_eq_ok_iff.mpr ⟨.current, _, takes_features hfeatures _ _, ?_⟩
  refine Read.bind_eq_ok_iff.mpr ⟨count, _, run_length hcount hroom, ?_⟩
  rw [List.length_append, ← Nat.add_assoc]
  rfl

/-! ### The records -/

/-- The place of a layer in the order that layers are written in. -/
def place (g : Graph) : LayerId → LayerId := g.topologicalOrder.idxOf

/-- The layers read so far are those of `before`, in that order. -/
structure Loaded (g : Graph) (before : List LayerId) (numbering : Numbering) (graph : Graph)
    (supply : GuidSupply) : Prop where
  sound : Session.Sound ⟨graph, supply⟩
  length : graph.layers.length = before.length
  content? : ∀ k : LayerId,
    graph.content? k = (before[k]?.bind g.content?).map (·.renumber (place g))
  numbering : ∀ number, numbering.lookup number =
    if number.toNat < before.length then some number.toNat else none

variable {g graph : Graph} {before after : List LayerId} {id : LayerId} {numbering : Numbering}
variable {supply : GuidSupply}

theorem loaded_nil (g : Graph) (supply : GuidSupply) : Loaded g [] [] .empty supply where
  sound := Session.sound_start supply
  length := rfl
  content? k := by simp [Graph.content?, Graph.empty]
  numbering number := by simp

theorem Loaded.kind? (h : Loaded g before numbering graph supply) (k : LayerId) :
    graph.kind? k = before[k]?.bind g.kind? := by
  have hkind : g.kind? = fun id => (g.content? id).map (·.kind) :=
    funext Graph.kind?_eq_content?
  rw [Graph.kind?_eq_content?, h.content?, hkind]
  cases before[k]? with
  | none => rfl
  | some id => cases hc : g.content? id <;> simp [hc, LayerContent.renumber]

/-- The place of a layer in front is its position there. -/
theorem place_eq_idxOf (horder : g.topologicalOrder = before ++ after) (hid : id ∈ before) :
    place g id = before.idxOf id := by
  rw [place, horder, List.idxOf_append_of_mem hid]

theorem place_eq_length (hg : g.Coherent) (horder : g.topologicalOrder = before ++ id :: after) :
    place g id = before.length := by
  have hnodup := hg.linked.listed_topologicalOrder.nodup
  rw [horder] at hnodup
  have hnot : id ∉ before := fun h => List.disjoint_of_nodup_append hnodup h List.mem_cons_self
  rw [place, horder, List.idxOf_append_of_notMem hnot, List.idxOf_cons_self, Nat.add_zero]

/-- What a layer reads in the graph that is loaded. -/
def moved (g : Graph) (p : OutputRef) : OutputRef := { p with layer := place g p.layer }

/-- The slots of the layers in front are there. -/
theorem Loaded.hasOutput_moved (h : Loaded g before numbering graph supply)
    (horder : g.topologicalOrder = before ++ after) {p : OutputRef} (hp : p.layer ∈ before)
    (hslot : g.HasOutput p) : graph.HasOutput (moved g p) := by
  obtain ⟨c, hc, hlt⟩ := Graph.hasOutput_iff.mp hslot
  have hplace : before[place g p.layer]? = some p.layer := by
    rw [place_eq_idxOf horder hp]
    exact List.getElem?_idxOf hp
  refine Graph.hasOutput_iff.mpr ⟨c.renumber (place g), ?_, hlt⟩
  simp only [moved, h.content?, hplace, Option.bind_some, hc, Option.map_some]

/-- The sources of a record lead to the layers in front. -/
theorem Loaded.resolves (h : Loaded g before numbering graph supply)
    (horder : g.topologicalOrder = before ++ after) (hlt : before.length < 2 ^ 32)
    {p : OutputRef} (hp : p.layer ∈ before) (hindex : p.index < 2 ^ 32) :
    Resolves numbering (rawSource g.topologicalOrder p) (moved g p) := by
  have hplace : place g p.layer < before.length := by
    rw [place_eq_idxOf horder hp]
    exact List.idxOf_lt_length_of_mem hp
  have hserial : (serial g.topologicalOrder p.layer).toNat = place g p.layer :=
    UInt32.toNat_ofNat_of_lt' (Nat.lt_trans hplace hlt)
  refine ⟨?_, UInt32.toNat_ofNat_of_lt' hindex⟩
  simp only [rawSource, moved, h.numbering, hserial, if_pos hplace]

/-- The next layer of the order is loaded behind the others. -/
theorem Loaded.recorded {graph' : Graph} {supply' : GuidSupply} {r : LayerRecord}
    {c : LayerContent} (h : Loaded g before numbering graph supply)
    (hc : g.content? id = some c) (hcontent : r.content = c.renumber (place g))
    (hnumber : r.number.toNat = before.length) (hrecorded : Recorded graph r graph')
    (hsound : Session.Sound ⟨graph', supply'⟩) :
    Loaded g (before ++ [id]) ((r.number, before.length) :: numbering) graph' supply' where
  sound := hsound
  length := by rw [hrecorded.length, h.length, List.length_append, List.length_singleton]
  content? := by
    intro k
    rw [hrecorded.content?, h.length, List.getElem?_append]
    by_cases hk : k = before.length
    · simp [hk, hc, hcontent]
    · rw [if_neg hk, h.content?]
      split
      · rfl
      · next hge =>
        rw [List.getElem?_eq_none (Nat.le_of_not_lt hge), List.getElem?_eq_none (by simp; lia)]
  numbering := by
    intro number
    rw [List.lookup_cons, List.length_append, List.length_singleton]
    -- Numbers are places, and the new one is the place behind the others.
    by_cases hn : number = r.number
    · simp [hn, hnumber]
    · have hne : number.toNat ≠ before.length := by
        rw [← hnumber]
        exact fun heq => hn (UInt32.toNat_inj.mp heq)
      have hbeq : (number == r.number) = false := beq_false_of_ne hn
      rw [hbeq]
      simp only [h.numbering]
      by_cases hlt : number.toNat < before.length
      · rw [if_pos hlt, if_pos (Nat.lt_succ_of_lt hlt)]
      · rw [if_neg hlt, if_neg (by omega)]

/-- Positions of layers and of slots have a place in a record. -/
structure Narrow (g : Graph) : Prop where
  layers : g.layers.length < 2 ^ 32
  slots : ∀ id c, g.content? id = some c → c.infos.length < 2 ^ 32

theorem Loaded.binding_free (h : Loaded g before numbering graph supply) (hg : g.Coherent)
    (horder : g.topologicalOrder = before ++ id :: after) {direction : Direction} {b : BindingId}
    (hkind : g.kind? id = some (direction.kind b)) : b ∉ graph.bindings direction := by
  rw [h.sound.coherent.mem_bindings_iff]
  rintro ⟨k, hk⟩
  rw [h.kind?, Option.bind_eq_some_iff] at hk
  obtain ⟨id', hid', hkind'⟩ := hk
  obtain rfl := hg.kind_injective hkind hkind'
  have hnodup := hg.linked.listed_topologicalOrder.nodup
  rw [horder] at hnodup
  exact List.disjoint_of_nodup_append hnodup (List.mem_of_getElem? hid') List.mem_cons_self

/-- The next layer has a new number, and what it reads stands in front of it. -/
theorem Loaded.next {c : LayerContent} {sources : List OutputRef} (hg : g.Coherent)
    (hnarrow : Narrow g) (h : Loaded g before numbering graph supply)
    (horder : g.topologicalOrder = before ++ id :: after) (hc : g.content? id = some c)
    (hsources : c.inputs = sources.map some) :
    (serial g.topologicalOrder id).toNat = before.length ∧
      numbering.lookup (serial g.topologicalOrder id) = none ∧
      List.Forall₂ (Resolves numbering) (sources.map (rawSource g.topologicalOrder))
        (sources.map (moved g)) ∧
      ∀ p ∈ sources, graph.HasOutput (moved g p) := by
  have hlt : before.length < 2 ^ 32 := by
    have hlen := hg.linked.length_topologicalOrder
    rw [horder, List.length_append, List.length_cons] at hlen
    have hlayers := hnarrow.layers
    omega
  have hserial : (serial g.topologicalOrder id).toNat = before.length := by
    have hplace := place_eq_length hg horder
    rw [place] at hplace
    rw [serial, hplace, UInt32.toNat_ofNat_of_lt' hlt]
  -- The order is topological, so what the layer reads was loaded before it.
  have hfront (p : OutputRef) (hp : p ∈ sources) : p.layer ∈ before ∧ g.HasOutput p := by
    have hmem : some p ∈ c.inputs := by
      rw [hsources]
      exact List.mem_map_of_mem hp
    have hplaced := hg.linked.listed_topologicalOrder.placed _ _ _ horder
    refine ⟨hplaced.producers _ (Graph.feeds_of_content? hc hmem), ?_⟩
    exact hg.linked.hasOutput_of_content? hc hmem
  refine ⟨hserial, ?_, ?_, fun p hp => ?_⟩
  · rw [h.numbering, hserial, if_neg (Nat.lt_irrefl _)]
  · rw [List.forall₂_map_left_iff, List.forall₂_map_right_iff, List.forall₂_same]
    intro p hp
    obtain ⟨hbefore, hslot⟩ := hfront p hp
    obtain ⟨c', hc', hindex⟩ := Graph.hasOutput_iff.mp hslot
    exact h.resolves horder hlt hbefore (Nat.lt_trans hindex (hnarrow.slots _ c' hc'))
  · exact h.hasOutput_moved horder (hfront p hp).1 (hfront p hp).2

/-- The record of the next layer is read, and its layer can be added. -/
theorem Loaded.read_record {part : List UInt8} {c : LayerContent} (hg : g.Coherent)
    (hnarrow : Narrow g) (h : Loaded g before numbering graph supply)
    (horder : g.topologicalOrder = before ++ id :: after) (hc : g.content? id = some c)
    (hstore : c.Storable) (hpart : RecordOf g g.topologicalOrder id part) (offset : Nat)
    (rest : List UInt8) :
    ∃ r : LayerRecord, (readRecord .current numbering graph).run ⟨offset, part ++ rest⟩ =
        .ok (r, ⟨offset + part.length, rest⟩) ∧
      r.content = c.renumber (place g) ∧ r.number.toNat = before.length ∧ r.HasSlots ∧
      ∀ p ∈ r.inputs, graph.HasOutput p := by
  obtain ⟨c', sources, infos, hc', hsources, hinfos, hwrite⟩ := hpart
  obtain rfl : c = c' := Option.some.inj (hc.symm.trans hc')
  obtain ⟨hserial, hnew, hresolve, hslots'⟩ := h.next hg hnarrow horder hc hsources
  have hslots : c.kind.inputCount = (sources.map (moved g)).length ∧
      c.kind.outputCount = infos.length := by
    have hcount := hg.content_slots hc
    rw [hsources, hinfos, List.length_map, List.length_map] at hcount
    exact ⟨by rw [List.length_map, hcount.1], hcount.2.symm⟩
  have hconsistent : ∀ info ∈ infos, info.Consistent := by
    intro info hinfo
    refine hstore.infos info ?_
    rw [hinfos]
    exact List.mem_map_of_mem hinfo
  refine ⟨_, takes_record hwrite (by decide) hnew hresolve hconsistent hstore.kind hslots offset
    rest, ?_, hserial, hslots, ?_⟩
  · simp only [LayerRecord.content, LayerContent.renumber, hsources, hinfos, List.map_map]
    rfl
  · intro p hp
    obtain ⟨q, hq, rfl⟩ := List.mem_map.mp hp
    exact hslots' q hq

/-- The record of the next layer is refused when a descriptor is not consistent. -/
theorem Loaded.refuse_record {part : List UInt8} {c : LayerContent} (hg : g.Coherent)
    (hnarrow : Narrow g) (h : Loaded g before numbering graph supply)
    (horder : g.topologicalOrder = before ++ id :: after) (hc : g.content? id = some c)
    (hscaled : c.Scaled) (hbad : ¬ c.Storable) (hpart : RecordOf g g.topologicalOrder id part) :
    (readRecord .current numbering graph).Refuses part := by
  obtain ⟨c', sources, infos, hc', hsources, hinfos, hwrite⟩ := hpart
  obtain rfl : c = c' := Option.some.inj (hc.symm.trans hc')
  obtain ⟨-, hnew, hresolve, -⟩ := h.next hg hnarrow horder hc hsources
  have hmem (info : TensorInfo) : some info ∈ c.infos ↔ info ∈ infos := by
    simp [hinfos]
  refine refuses_record hwrite (by decide) hnew hresolve ?_ hscaled.constants ?_
  · exact fun info hinfo => hscaled.infos info ((hmem info).mpr hinfo)
  · rintro ⟨hconsistent, hconstants⟩
    exact hbad ⟨fun info hinfo => hconsistent info ((hmem info).mp hinfo), hconstants,
      hscaled.evenParts⟩

/-- Reading the next record loads its layer. -/
theorem Loaded.step {s : Loading} {part rest : List UInt8} {c : LayerContent} (hg : g.Coherent)
    (hnarrow : Narrow g) (h : Loaded g before s.numbering s.graph supply)
    (horder : g.topologicalOrder = before ++ id :: after) (hc : g.content? id = some c)
    (hstore : c.Storable) (hpart : RecordOf g g.topologicalOrder id part)
    (hcursor : s.cursor.rest = part ++ rest) :
    ∃ s' supply', (loadLayer .current s).run supply = .ok s' supply' ∧
      Loaded g (before ++ [id]) s'.numbering s'.graph supply' ∧ s'.cursor.rest = rest := by
  obtain ⟨⟨offset, bytes⟩, numbering, graph⟩ := s
  subst hcursor
  obtain ⟨r, hread, hcontent, hnumber, hslots, hinputs⟩ :=
    h.read_record hg hnarrow horder hc hstore hpart offset rest
  have hkind : r.kind = c.kind := congrArg LayerContent.kind hcontent
  obtain ⟨graph', supply', hadd⟩ := exists_addRecord h.sound hslots hinputs fun direction b hb => by
    refine h.binding_free hg horder ?_
    rw [Graph.kind?_eq_content?, hc, Option.map_some, ← hkind, hb]
  obtain ⟨-, hrecorded, hsound⟩ := addRecord_eq_ok h.sound hslots hadd
  refine ⟨⟨⟨offset + part.length, rest⟩, (r.number, graph.layers.length) :: numbering, graph'⟩,
    supply', ?_, ?_, rfl⟩
  · refine Build.bind_eq_ok_iff.mpr ⟨_, supply, Build.ofExcept_eq_ok_iff.mpr ⟨hread, rfl⟩, ?_⟩
    refine Build.bind_eq_ok_iff.mpr ⟨_, supply', Build.adaptExcept_eq_ok_iff.mpr hadd, ?_⟩
    rfl
  · have hlength : graph.layers.length = before.length := h.length
    rw [hlength]
    exact h.recorded hc hcontent hnumber hrecorded hsound

/-- Reading all records that are left loads all layers that are left, unless one of them has a
    descriptor that is not consistent. -/
theorem Loaded.run {s : Loading} {ids : List LayerId} {parts : List (List UInt8)}
    {rest : List UInt8} (hg : g.Coherent) (hnarrow : Narrow g)
    (h : Loaded g before s.numbering s.graph supply) (horder : g.topologicalOrder = before ++ ids)
    (hparts : List.Forall₂ (RecordOf g g.topologicalOrder) ids parts)
    (hcursor : s.cursor.rest = parts.flatten ++ rest) :
    ((∀ id ∈ ids, ∀ c, g.content? id = some c → c.Storable) →
      ∃ s' supply', (loadLayers .current ids.length s).run supply = .ok s' supply' ∧
        Loaded g g.topologicalOrder s'.numbering s'.graph supply' ∧ s'.cursor.rest = rest) ∧
    ((∃ id ∈ ids, ∃ c, g.content? id = some c ∧ ¬ c.Storable) →
      (∀ id c, g.content? id = some c → c.Scaled) →
      ∃ e supply', (loadLayers .current ids.length s).run supply = .error e supply') := by
  induction hparts generalizing s before supply with
  | nil =>
    rw [List.append_nil] at horder
    exact ⟨fun _ => ⟨s, supply, rfl, horder ▸ h, hcursor⟩, by simp⟩
  | @cons id part ids parts hpart _ ih =>
    rw [List.flatten_cons, List.append_assoc] at hcursor
    obtain ⟨c, hc⟩ : ∃ c, g.content? id = some c := by
      obtain ⟨c, -, -, hc, -⟩ := hpart
      exact ⟨c, hc⟩
    -- Up to the first layer that cannot be stored every record is read; its own is refused.
    by_cases hstore : c.Storable
    · obtain ⟨s₁, supply₁, hstep, h₁, hcursor₁⟩ :=
        h.step hg hnarrow horder hc hstore hpart hcursor
      have hrest : (loadLayers .current (id :: ids).length s).run supply =
          (loadLayers .current ids.length s₁).run supply₁ := Build.run_bind_of_ok hstep
      rw [hrest]
      obtain ⟨hall, hsome⟩ := ih h₁ (by simpa using horder) hcursor₁
      refine ⟨fun hids => hall fun id hid => hids id (List.mem_cons_of_mem _ hid), ?_⟩
      rintro ⟨id', hid', c', hc', hbad⟩ hscaled
      rcases List.mem_cons.mp hid' with rfl | hid'
      · obtain rfl : c = c' := Option.some.inj (hc.symm.trans hc')
        exact absurd hstore hbad
      · exact hsome ⟨id', hid', c', hc', hbad⟩ hscaled
    · refine ⟨fun hids => absurd (hids id List.mem_cons_self c hc) hstore, fun _ hscaled => ?_⟩
      obtain ⟨e, he⟩ := h.refuse_record hg hnarrow horder hc (hscaled id c hc) hstore hpart
        s.cursor.offset (parts.flatten ++ rest)
      have hcursor' : s.cursor = ⟨s.cursor.offset, part ++ (parts.flatten ++ rest)⟩ := by
        rw [← hcursor]
      rw [← hcursor'] at he
      refine ⟨e, supply, Build.run_bind_error (Build.run_bind_error ?_)⟩
      rw [he]
      rfl

/-! ### Boundaries and the end -/

/-- The bindings of a side are those of the graph that was written, in some order. -/
theorem Loaded.bindings_perm (hg : g.Coherent)
    (h : Loaded g g.topologicalOrder numbering graph supply) (direction : Direction) :
    (g.bindings direction).Perm (graph.bindings direction) := by
  have hgraph : graph.Coherent := h.sound.coherent
  refine (List.perm_ext_iff_of_nodup (hg.bindings_nodup direction)
    (hgraph.bindings_nodup direction)).mpr fun b => ?_
  rw [hg.mem_bindings_iff, hgraph.mem_bindings_iff]
  constructor
  · rintro ⟨id, hkind⟩
    have hid : id ∈ g.topologicalOrder := by
      obtain ⟨c, hc, -⟩ := Option.map_eq_some_iff.mp ((Graph.kind?_eq_content? id).symm.trans hkind)
      exact hg.linked.mem_topologicalOrder_iff.mpr (Graph.lt_of_content? hc)
    obtain ⟨k, hk⟩ := List.mem_iff_getElem?.mp hid
    exact ⟨k, by rw [h.kind?, hk, Option.bind_some, hkind]⟩
  · rintro ⟨k, hkind⟩
    rw [h.kind?, Option.bind_eq_some_iff] at hkind
    obtain ⟨id, -, hkind⟩ := hkind
    exact ⟨id, hkind⟩

/-- A list of bindings is read, and the boundary is put in its order. -/
theorem exists_loadBoundary {s : Loading} {direction : Direction} {order : List BindingId}
    {part rest : List UInt8} (hs : s.graph.Coherent)
    (horder : order.Perm (s.graph.bindings direction))
    (hwrite : Codec.int32s.write order = .ok part) (hcursor : s.cursor.rest = part ++ rest) :
    ∃ s', loadBoundary .current direction s = .ok s' ∧
      s.graph.Reordered direction order s'.graph ∧ s'.cursor.rest = rest := by
  obtain ⟨⟨offset, bytes⟩, numbering, graph⟩ := s
  subst hcursor
  obtain ⟨graph', hreorder⟩ := hs.exists_reorder horder
  have hbindings : order.mapM (boundaryBinding .current ⟨⟨offset, part ++ rest⟩, numbering, graph⟩
      offset) = .ok order := by
    rw [Except.mapM_eq_ok_iff, List.forall₂_same]
    exact fun binding _ => rfl
  refine ⟨⟨⟨offset + part.length, rest⟩, numbering, graph'⟩, ?_, hs.reorder hreorder, rfl⟩
  refine Except.bind_eq_ok_iff.mpr ⟨_, int32s_plain.takes trivial hwrite offset rest, ?_⟩
  refine Except.bind_eq_ok_iff.mpr ⟨order, hbindings, ?_⟩
  have hreorder : graph.reorder direction order = .ok graph' := hreorder
  simp only [hreorder]
  rfl

/-- What is loaded from a complete graph is complete. -/
theorem Loaded.complete (hg : g.Complete)
    (h : Loaded g before numbering graph supply) : graph.Complete := by
  intro k c hc
  rw [h.content?, Option.map_eq_some_iff] at hc
  obtain ⟨c, hc, rfl⟩ := hc
  obtain ⟨id, -, hc⟩ := Option.bind_eq_some_iff.mp hc
  obtain ⟨hinputs, hinfos⟩ := hg id c hc
  exact ⟨by simpa [LayerContent.renumber] using hinputs, hinfos⟩

end Container

namespace Graph

open Container

variable {g : Graph} {bytes : List UInt8}

/-- `g'` is `g` with the layers renumbered by topological order. -/
structure Renumbered (g g' : Graph) : Prop where
  coherent : g'.Coherent
  length : g'.layers.length = g.layers.length
  /-- Layer `k` is the one at place `k` of the order. What it reads has moved in the same way. -/
  content? : ∀ k id, g.topologicalOrder[k]? = some id →
    g'.content? k = (g.content? id).map (·.renumber g.topologicalOrder.idxOf)
  bindings : ∀ direction, g'.bindings direction = g.bindings direction

/-- What is in front of the records is read when the records are those of the graph. -/
theorem Coherent.run_preamble (hg : g.Coherent) {front : List UInt8} {parts : List (List UInt8)}
    (hfront : writePreamble g.layers.length = .ok front)
    (hparts : List.Forall₂ (RecordOf g g.topologicalOrder) g.topologicalOrder parts)
    (rest : List UInt8) :
    readPreamble.run (.start (front ++ (parts.flatten ++ rest))) =
      .ok ((.current, g.topologicalOrder.length), ⟨front.length, parts.flatten ++ rest⟩) := by
  have hlength := hg.linked.length_topologicalOrder
  have hroom : g.layers.length * 18 ≤ (parts.flatten ++ rest).length := by
    have hle := Codec.length_flatten_le hparts fun _ _ => RecordOf.least
    rw [hlength] at hle
    rw [List.length_append]
    exact Nat.le_trans hle (Nat.le_add_right _ _)
  have h := Container.run_preamble hfront hroom 0
  rw [Nat.zero_add, ← hlength] at h
  exact h

/-- A graph with a container is narrow enough for it. -/
theorem Coherent.narrow (hg : g.Coherent) (h : g.serialize = .ok bytes) : Narrow g := by
  obtain ⟨-, front, parts, -, -, hfront, hparts, -⟩ := hg.serialize_eq_ok_iff.mp h
  obtain ⟨-, -, hlt, -⟩ := writePreamble_eq_ok_iff.mp hfront
  refine ⟨hlt, fun id c hc => ?_⟩
  have hid := hg.linked.mem_topologicalOrder_iff.mpr (lt_of_content? hc)
  obtain ⟨k, hk, rfl⟩ := List.mem_iff_getElem.mp hid
  obtain ⟨c', sources, infos, hc', -, hinfos, hwrite⟩ := hparts.get hk (hparts.length_eq ▸ hk)
  obtain rfl : c = c' := Option.some.inj (hc.symm.trans hc')
  obtain ⟨-, -, -, -, -, -, -, -, hlt, -⟩ := writeRecord_eq_ok_iff.mp hwrite
  rw [hinfos, List.length_map]
  exact hlt

/-- A container is accepted when all of its parts are, one after the other. -/
theorem deserialize_of_parts {features : Features} {count : Nat} {start : Cursor}
    {s s₁ s₂ : Loading} {supply supply' : GuidSupply}
    (hpreamble : readPreamble.run (.start bytes) = .ok ((features, count), start))
    (hlayers : (loadLayers features count ⟨start, [], .empty⟩).run supply = .ok s supply')
    (hinputs : loadBoundary features .input s = .ok s₁)
    (houtputs : loadBoundary features .output s₁ = .ok s₂) (hend : checkEnd s₂ = .ok g) :
    (deserialize bytes).run supply = .ok g supply' := by
  refine (Build.run_bind_of_ok (Build.ofExcept_eq_ok_iff.mpr ⟨hpreamble, rfl⟩)).trans ?_
  refine (Build.run_bind_of_ok hlayers).trans ?_
  refine (Build.run_bind_of_ok (Build.ofExcept_eq_ok_iff.mpr ⟨hinputs, rfl⟩)).trans ?_
  refine (Build.run_bind_of_ok (Build.ofExcept_eq_ok_iff.mpr ⟨houtputs, rfl⟩)).trans ?_
  exact Build.ofExcept_eq_ok_iff.mpr ⟨hend, rfl⟩

/-- The container of a graph is read as the graph with its layers in topological order. -/
theorem Coherent.exists_deserialize (hg : g.Coherent) (hstore : g.Storable)
    (h : g.serialize = .ok bytes) (supply : GuidSupply) :
    ∃ g' supply', (deserialize bytes).run supply = .ok g' supply' ∧ g.Renumbered g' := by
  have hnarrow := hg.narrow h
  obtain ⟨hcomplete, front, parts, inputs, outputs, hfront, hparts, hinputs, houtputs, rfl⟩ :=
    hg.serialize_eq_ok_iff.mp h
  have hlength := hg.linked.length_topologicalOrder
  have hpreamble := hg.run_preamble hfront hparts (inputs ++ outputs)
  -- Behind the preamble: the records, then the two boundary lists, and nothing else.
  let start : Loading := ⟨⟨front.length, parts.flatten ++ (inputs ++ outputs)⟩, [], .empty⟩
  have hstart : Loaded g [] start.numbering start.graph supply := loaded_nil g supply
  obtain ⟨s, supply', hrun, hloaded, hcursor⟩ :=
    (hstart.run hg hnarrow rfl hparts rfl).1 fun id _ => hstore id
  obtain ⟨s₁, hload₁, hinputs, hcursor₁⟩ := exists_loadBoundary hloaded.sound.coherent
    (hloaded.bindings_perm hg .input) hinputs hcursor
  have hperm : (g.bindings .output).Perm (s₁.graph.bindings .output) := by
    rw [hinputs.bindings]
    exact hloaded.bindings_perm hg .output
  have hcursor₁ : s₁.cursor.rest = outputs ++ [] := by rw [hcursor₁, List.append_nil]
  obtain ⟨s₂, hload₂, houtputs, hcursor₂⟩ :=
    exists_loadBoundary hinputs.coherent hperm houtputs hcursor₁
  have hcontent (k : LayerId) : s₂.graph.content? k = s.graph.content? k := by
    rw [content?, houtputs.layers, hinputs.layers]
    rfl
  have hend : checkEnd s₂ = .ok s₂.graph := by
    have hvalid : s₂.graph.validate = .ok () := by
      refine validate_eq_ok_iff.mpr fun k c hc => hloaded.complete hcomplete k c ?_
      rw [← hcontent, hc]
    simp [checkEnd, hcursor₂, hvalid]
  refine ⟨s₂.graph, supply', ?_, houtputs.coherent, ?_, ?_, ?_⟩
  · exact deserialize_of_parts hpreamble hrun hload₁ hload₂ hend
  · rw [houtputs.layers, hinputs.layers, ← hlength]
    exact hloaded.length
  · intro k id hk
    rw [hcontent, hloaded.content?, hk]
    rfl
  · intro direction
    rw [houtputs.bindings, hinputs.bindings]
    cases direction <;> rfl

/-- The container of a graph is refused when a descriptor is not consistent. -/
theorem Coherent.deserialize_eq_error (hg : g.Coherent) (hscaled : g.Scaled) (hbad : ¬ g.Storable)
    (h : g.serialize = .ok bytes) (supply : GuidSupply) :
    ∃ e supply', (deserialize bytes).run supply = .error e supply' := by
  have hnarrow := hg.narrow h
  obtain ⟨-, front, parts, inputs, outputs, hfront, hparts, -, -, rfl⟩ :=
    hg.serialize_eq_ok_iff.mp h
  have hpreamble := hg.run_preamble hfront hparts (inputs ++ outputs)
  have hexists : ∃ id ∈ g.topologicalOrder, ∃ c, g.content? id = some c ∧ ¬ c.Storable := by
    simp only [Storable, not_forall] at hbad
    obtain ⟨id, c, hc, hbad⟩ := hbad
    exact ⟨id, hg.linked.mem_topologicalOrder_iff.mpr (lt_of_content? hc), c, hc, hbad⟩
  let start : Loading := ⟨⟨front.length, parts.flatten ++ (inputs ++ outputs)⟩, [], .empty⟩
  have hstart : Loaded g [] start.numbering start.graph supply := loaded_nil g supply
  obtain ⟨e, supply', hrun⟩ := (hstart.run hg hnarrow rfl hparts rfl).2 hexists hscaled
  refine ⟨e, supply', ?_⟩
  refine (Build.run_bind_of_ok (Build.ofExcept_eq_ok_iff.mpr ⟨hpreamble, rfl⟩)).trans ?_
  exact Build.run_bind_error hrun

/-! ### Slot by slot -/

/-- The container of a graph is read as a graph with the same layers in topological order. Each
    input slot is fed by the slot that fed it, of the layer at the place of its producer. -/
theorem Coherent.container_round_trip (hg : g.Coherent) (hstore : g.Storable)
    (h : g.serialize = .ok bytes) (supply : GuidSupply) :
    ∃ g' supply', (deserialize bytes).run supply = .ok g' supply' ∧ g'.Coherent ∧
      g'.layers.length = g.layers.length ∧
      (∀ (k : Nat) (id : LayerId) (l : Layer), g.topologicalOrder[k]? = some id →
        g.layers[id]? = some l →
        ∃ l', g'.layers[k]? = some l' ∧ l'.name = l.name ∧ l'.kind = l.kind ∧
          l'.outputs.map (·.info) = l.outputs.map (·.info) ∧
          ∀ (slot : Nat) (p : OutputRef), l.inputs[slot]? = some (some p) →
            ∃ producer, g.topologicalOrder[producer]? = some p.layer ∧
              l'.inputs[slot]? = some (some ⟨producer, p.index⟩)) ∧
      ∀ direction, g'.bindings direction = g.bindings direction := by
  obtain ⟨g', supply', hrun, hrenumbered⟩ := hg.exists_deserialize hstore h supply
  refine ⟨g', supply', hrun, hrenumbered.coherent, hrenumbered.length, ?_, hrenumbered.bindings⟩
  intro k id l hk hl
  have hc : g.content? id = some l.content := by rw [content?, hl, Option.map_some]
  have hc' := hrenumbered.content? k id hk
  rw [hc, Option.map_some, content?, Option.map_eq_some_iff] at hc'
  obtain ⟨l', hl', hcontent⟩ := hc'
  refine ⟨l', hl', congrArg LayerContent.name hcontent, congrArg LayerContent.kind hcontent,
    congrArg LayerContent.infos hcontent, fun slot p hp => ?_⟩
  have hinputs : l'.inputs = _ := congrArg LayerContent.inputs hcontent
  have hproducer : p.layer ∈ g.topologicalOrder := by
    have hfeeds := feeds_of_content? hc (List.mem_of_getElem? hp)
    exact hg.linked.mem_topologicalOrder_iff.mpr (hg.linked.lt_of_feeds hfeeds)
  refine ⟨g.topologicalOrder.idxOf p.layer, List.getElem?_idxOf hproducer, ?_⟩
  have hp : l.content.inputs[slot]? = some (some p) := hp
  simp only [hinputs, LayerContent.renumber, List.getElem?_map, hp, Option.map_some]

/-- An output that was added before the input it reads. The scales belong to an axis, and the
    second of them is not a number. -/
def producerLast : Graph :=
  ((Session.start .initial).run [.addLayer (.output 7) "y", .addLayer (.input 3) "x",
    .connect ⟨1, 0⟩ ⟨0, 0⟩,
    .setInfo ⟨1, 0⟩ ⟨⟨[none, some 2]⟩, .qAsymmU8, .perAxis [.zero, .invalid] 5 1, false⟩]).graph

theorem container_round_trip_producerLast :
    ∃ bytes, producerLast.serialize = .ok bytes ∧
      ∃ g' supply', (deserialize bytes).run .initial = .ok g' supply' ∧ g'.Coherent ∧
        g'.layers.length = producerLast.layers.length ∧
        (∀ (k : Nat) (id : LayerId) (l : Layer), producerLast.topologicalOrder[k]? = some id →
          producerLast.layers[id]? = some l →
          ∃ l', g'.layers[k]? = some l' ∧ l'.name = l.name ∧ l'.kind = l.kind ∧
            l'.outputs.map (·.info) = l.outputs.map (·.info) ∧
            ∀ (slot : Nat) (p : OutputRef), l.inputs[slot]? = some (some p) →
              ∃ producer, producerLast.topologicalOrder[producer]? = some p.layer ∧
                l'.inputs[slot]? = some (some ⟨producer, p.index⟩)) ∧
        ∀ direction, g'.bindings direction = producerLast.bindings direction := by
  have hcoherent : producerLast.Coherent := ((Session.sound_start .initial).run _).coherent
  exact ⟨_, rfl, hcoherent.container_round_trip (by decide +kernel) rfl .initial⟩

end Graph

end LayerGraph
