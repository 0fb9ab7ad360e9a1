import LayerGraph.Proofs.Graph.Reachability

/-! # Coherent graphs

  A graph stores some things twice: a connection at both of its ends, a boundary layer in the
  layers and in the list of its side, an identity in the layer and in the table. `Coherent`
  says that the two always agree, that slots come from the kind of the layer, and that
  connections form no cycle.

  The empty graph is coherent, and each change keeps a graph coherent:

  - a new layer has no connections, so only the lists and the table grow;
  - a connection is recorded at both ends, and the search before it rules out a cycle;
  - a descriptor or a new order of a boundary touches nothing that the invariant reads.

  What does not concern the boundary lists is kept by these changes also in graphs whose lists
  are wrong (`Linked`).
-/

namespace LayerGraph

namespace Graph

/-! ### The invariant -/

/-- What holds of layers, connections and identities, whatever the boundary lists are. -/
structure Linked (g : Graph) : Prop where
  /-- A layer has the slots of its kind. -/
  slots : ∀ (id : LayerId) (l : Layer), g.layers[id]? = some l →
    l.inputs.length = l.kind.inputCount ∧ l.outputs.length = l.kind.outputCount
  /-- A connection is recorded at both of its ends. -/
  mirrored : ∀ source target, g.producer? target = some source ↔ target ∈ g.consumers source
  /-- An input slot is listed once by the output slot that it reads. -/
  once : ∀ source, (g.consumers source).Nodup
  /-- No tensor flows back to the layer it comes from. -/
  acyclic : ∀ id, ¬ Relation.TransGen g.Feeds id id
  /-- The table has the identities of the layers, each with the position of its layer. -/
  guids : ∀ guid id, g.guids.find? guid = some id ↔ g.guid? id = some guid

/-- What holds of every graph that is made by the operations on graphs. -/
structure Coherent (g : Graph) : Prop where
  /-- A layer has the slots of its kind. -/
  slots : ∀ (id : LayerId) (l : Layer), g.layers[id]? = some l →
    l.inputs.length = l.kind.inputCount ∧ l.outputs.length = l.kind.outputCount
  /-- A connection is recorded at both of its ends. -/
  mirrored : ∀ source target, g.producer? target = some source ↔ target ∈ g.consumers source
  /-- An input slot is listed once by the output slot that it reads. -/
  once : ∀ source, (g.consumers source).Nodup
  /-- No tensor flows back to the layer it comes from. -/
  acyclic : ∀ id, ¬ Relation.TransGen g.Feeds id id
  /-- No layer is listed twice at a boundary. -/
  boundary_nodup : ∀ direction, (g.boundary direction).Nodup
  /-- A boundary lists the layers of its kind. -/
  mem_boundary : ∀ direction id,
    id ∈ g.boundary direction ↔ ∃ binding, g.kind? id = some (direction.kind binding)
  /-- The bindings of one side differ from each other. -/
  bindings_nodup : ∀ direction, (g.bindings direction).Nodup
  /-- The table has the identities of the layers, each with the position of its layer. -/
  guids : ∀ guid id, g.guids.find? guid = some id ↔ g.guid? id = some guid

variable {g g' : Graph} {id : LayerId} {guid : LayerGuid} {kind : LayerKind} {name : String}
variable {source : OutputRef} {target : InputRef} {info : TensorInfo}

/-- The two ends of a connection are slots of the graph. -/
theorem Linked.ends_exist (hg : g.Linked) (h : g.producer? target = some source) :
    g.HasOutput source ∧ g.HasInput target :=
  ⟨.of_mem_consumers ((hg.mirrored source target).mp h), .of_producer? h⟩

theorem Linked.precedes_iff (hg : g.Linked) {a b : LayerId} : g.Precedes a b ↔ g.Feeds a b := by
  simp only [Precedes, mem_successors_iff, Feeds, hg.mirrored]

theorem Linked.readersExist (hg : g.Linked) : g.ReadersExist :=
  fun _ _ h => (hg.precedes_iff.mp h).lt_right

theorem Linked.lt_of_feeds (hg : g.Linked) {a b : LayerId} (h : g.Feeds a b) :
    a < g.layers.length := by
  obtain ⟨o, i, h⟩ := h
  exact (hg.ends_exist h).1.lt

/-- No two layers have the same identity. -/
theorem Linked.guid_injective (hg : g.Linked) {a b : LayerId} (ha : g.guid? a = some guid)
    (hb : g.guid? b = some guid) : a = b :=
  Option.some.inj (((hg.guids guid a).mpr ha).symm.trans ((hg.guids guid b).mpr hb))

theorem Coherent.linked (hg : g.Coherent) : g.Linked where
  __ := hg

/-- The layers at a boundary have bindings. -/
theorem Coherent.exists_binding (hg : g.Coherent) {direction : Direction}
    (h : id ∈ g.boundary direction) : ∃ binding, g.binding? id = some binding := by
  obtain ⟨b, hb⟩ := (hg.mem_boundary direction id).mp h
  exact ⟨b, by simp [binding?_eq_bind_kind?, hb]⟩

theorem Coherent.boundary_lt (hg : g.Coherent) {direction : Direction}
    (h : id ∈ g.boundary direction) : id < g.layers.length := by
  obtain ⟨b, hb⟩ := (hg.mem_boundary direction id).mp h
  by_contra hle
  simp [kind?, List.getElem?_eq_none (Nat.le_of_not_lt hle)] at hb

/-- The graph without layers is coherent. -/
theorem coherent_empty : empty.Coherent where
  slots := by simp [empty]
  mirrored := by simp [empty, producer?, consumers]
  once := by simp [empty, consumers]
  acyclic := by
    intro id h
    obtain ⟨_, ⟨o, i, h⟩, -⟩ := Relation.TransGen.head'_iff.mp h
    simp [empty, producer?] at h
  boundary_nodup := by rintro (_ | _) <;> exact List.nodup_nil
  mem_boundary := by rintro (_ | _) id <;> simp [empty, boundary, kind?]
  bindings_nodup := by rintro (_ | _) <;> exact List.nodup_nil
  guids := by simp [empty, guid?]

/-! ### Adding a layer -/

theorem Added.feeds_iff (h : Added g guid kind name g') {a b : LayerId} :
    g'.Feeds a b ↔ g.Feeds a b := by
  simp only [Feeds, h.producer?]

/-- The layers there were keep their bindings. -/
theorem Added.binding? (h : Added g guid kind name g') (id : LayerId) :
    g'.binding? id = if id = g.layers.length then kind.binding? else g.binding? id := by
  simp only [binding?_eq_bind_kind?, h.kind?]
  split <;> rfl

theorem filterMap_binding?_boundaryGain (h : Added g guid kind name g') (direction : Direction) :
    (boundaryGain direction kind g.layers.length).filterMap g'.binding? =
      match direction, kind with
      | .input, .input b | .output, .output b => [b]
      | _, _ => [] := by
  have hnew := h.binding? g.layers.length
  rw [if_pos rfl] at hnew
  cases direction <;> cases kind <;> simp [boundaryGain, hnew, LayerKind.binding?]

theorem Coherent.bindings_added (hg : g.Coherent) (h : Added g guid kind name g')
    (direction : Direction) :
    g'.bindings direction =
      g.bindings direction ++ match direction, kind with
        | .input, .input b | .output, .output b => [b]
        | _, _ => [] := by
  rw [bindings, h.boundary, List.filterMap_append, filterMap_binding?_boundaryGain h, bindings]
  congr 1
  refine List.filterMap_congr fun id hid => ?_
  rw [h.binding?, if_neg (Nat.ne_of_lt (hg.boundary_lt hid))]

/-- A new layer has slots that are free, and its identity is new. -/
theorem Linked.added (hg : g.Linked) (h : Added g guid kind name g')
    (hguid : ∀ id, g.guid? id ≠ some guid) : g'.Linked where
  slots := by
    intro id l hl
    rw [h.getElem?] at hl
    split at hl
    · cases hl
      simp [Layer.new]
    · exact hg.slots id l hl
  mirrored := by
    intro source target
    rw [h.producer?, h.consumers]
    exact hg.mirrored source target
  once := by
    intro source
    rw [h.consumers]
    exact hg.once source
  acyclic := by
    intro id hcycle
    exact hg.acyclic id (Relation.TransGen.mono (fun _ _ => h.feeds_iff.mp) _ _ hcycle)
  guids := by
    intro other id
    rw [h.guids, GuidTable.find?_insert, h.guid?]
    -- The new identity leads to the new layer, and every other one to where it led.
    by_cases hother : other = guid
    · subst hother
      by_cases heq : id = g.layers.length
      · simp [heq]
      · simp [heq, Ne.symm heq, hguid id]
    · by_cases heq : id = g.layers.length
      · subst heq
        have hnone : g.guid? g.layers.length = none := by simp [guid?]
        simp [hother, Ne.symm hother, hg.guids, hnone]
      · simp [hother, heq, hg.guids]

/-- A new layer with a new identity keeps a graph coherent. -/
theorem Coherent.added (hg : g.Coherent) (h : Added g guid kind name g')
    (hguid : ∀ id, g.guid? id ≠ some guid) : g'.Coherent where
  __ := hg.linked.added h hguid
  boundary_nodup := by
    intro d
    rw [h.boundary]
    refine (hg.boundary_nodup d).append ?_ ?_
    · cases d <;> cases kind <;> simp [boundaryGain]
    · intro id hid hgain
      obtain ⟨rfl, -⟩ := mem_boundaryGain_iff.mp hgain
      exact absurd (hg.boundary_lt hid) (Nat.lt_irrefl _)
  mem_boundary := by
    intro d id
    rw [h.boundary, List.mem_append, mem_boundaryGain_iff, h.kind?]
    by_cases heq : id = g.layers.length
    · subst heq
      have hnot : g.layers.length ∉ g.boundary d :=
        fun hid => absurd (hg.boundary_lt hid) (Nat.lt_irrefl _)
      simp [hnot]
    · simp [heq, hg.mem_boundary]
  bindings_nodup := by
    intro d
    rw [hg.bindings_added h]
    -- The binding of a new boundary layer differs from those of its side.
    have hnew (b : BindingId) (hk : kind = d.kind b) : b ∉ g.bindings d := by
      intro hb
      obtain ⟨id, hid, hbinding⟩ := List.mem_filterMap.mp hb
      exact h.fresh d b hk id hid hbinding
    have hold := hg.bindings_nodup d
    cases d <;> cases kind <;>
      simp_all [List.nodup_append, Direction.kind] <;> exact fun b hb heq => hnew (heq ▸ hb)

/-! ### Adding a connection -/

/-- A path that may use one more edge uses it or not. -/
theorem transGen_of_edge_added {α : Type} {r : α → α → Prop} {a b x y : α}
    (h : Relation.TransGen (fun u v => r u v ∨ (u = a ∧ v = b)) x y) :
    Relation.TransGen r x y ∨ (Relation.ReflTransGen r x a ∧ Relation.ReflTransGen r b y) := by
  induction h with
  | single h =>
    rcases h with h | ⟨rfl, rfl⟩
    · exact .inl (.single h)
    · exact .inr ⟨.refl, .refl⟩
  | tail _ h ih =>
    rcases h with h | ⟨rfl, rfl⟩
    · rcases ih with hpath | ⟨hxa, hby⟩
      · exact .inl (hpath.tail h)
      · exact .inr ⟨hxa, hby.tail h⟩
    · rcases ih with hpath | ⟨hxa, -⟩
      · exact .inr ⟨hpath.to_reflTransGen, .refl⟩
      · exact .inr ⟨hxa, .refl⟩

theorem feeds_link (ht : g.HasInput target) {a b : LayerId} (h : (g.link source target).Feeds a b) :
    g.Feeds a b ∨ (a = source.layer ∧ b = target.layer) := by
  obtain ⟨o, i, h⟩ := h
  rw [producer?_link ht] at h
  split at h
  · next heq =>
    cases h
    exact .inr ⟨rfl, congrArg InputRef.layer heq⟩
  · exact .inl ⟨o, i, h⟩

@[simp] theorem bindings_link (direction : Direction) :
    (g.link source target).bindings direction = g.bindings direction := by
  simp only [bindings, boundary_link]
  exact List.filterMap_congr fun id _ => by simp [binding?_eq_bind_kind?]

/-- A connection that the search allows closes no cycle. -/
theorem Linked.link (hg : g.Linked) (hs : g.HasOutput source) (ht : g.HasInput target)
    (hfree : g.producer? target = none) (hreach : g.reaches target.layer source.layer = false) :
    (g.link source target).Linked where
  slots := by
    intro id l' hl'
    rw [getElem?_link] at hl'
    obtain ⟨l, hl, rfl⟩ := Option.map_eq_some_iff.mp hl'
    obtain ⟨hin, hout⟩ := hg.slots id l hl
    constructor
    · simp only [apply_ite List.length, List.length_set, ite_self, hin]
    · simp only [apply_ite List.length, List.length_modify, ite_self, hout]
  mirrored := by
    intro p c
    rw [producer?_link ht, consumers_link hs]
    by_cases hc : c = target
    · subst hc
      -- The free slot was in no list of readers.
      have hnot : c ∉ g.consumers p := by
        rw [← hg.mirrored, hfree]
        simp
      by_cases hp : p = source
      · simp [hp]
      · simp [hp, Ne.symm hp, hnot]
    · by_cases hp : p = source
      · simp [hp, hc, hg.mirrored]
      · simp [hp, hc, hg.mirrored]
  once := by
    intro p
    rw [consumers_link hs]
    split
    · have hnot : target ∉ g.consumers p := by
        rw [← hg.mirrored, hfree]
        simp
      exact (hg.once p).append (List.nodup_singleton target) (by simpa using hnot)
    · exact hg.once p
  acyclic := by
    intro id hcycle
    have hsplit := transGen_of_edge_added
      (Relation.TransGen.mono (fun _ _ => feeds_link ht) _ _ hcycle)
    rcases hsplit with hold | ⟨hto, hfrom⟩
    · exact hg.acyclic id hold
    · -- The new edge closes the cycle, so the target reached the source before.
      have hpath : Relation.ReflTransGen g.Precedes target.layer source.layer :=
        Relation.ReflTransGen.mono (fun _ _ => hg.precedes_iff.mpr) _ _ (hfrom.trans hto)
      rw [(reaches_iff hg.readersExist ht.lt).mpr hpath] at hreach
      cases hreach
  guids := by simpa using hg.guids

theorem Coherent.link (hg : g.Coherent) (hs : g.HasOutput source) (ht : g.HasInput target)
    (hfree : g.producer? target = none) (hreach : g.reaches target.layer source.layer = false) :
    (g.link source target).Coherent where
  __ := hg.linked.link hs ht hfree hreach
  boundary_nodup := by simpa using hg.boundary_nodup
  mem_boundary := by simpa using hg.mem_boundary
  bindings_nodup := by simpa using hg.bindings_nodup

/-! ### Setting a descriptor -/

theorem feeds_describe {slot : OutputRef} {a b : LayerId} :
    (g.describe slot info).Feeds a b ↔ g.Feeds a b := by
  simp [Feeds]

@[simp] theorem bindings_describe {slot : OutputRef} (direction : Direction) :
    (g.describe slot info).bindings direction = g.bindings direction := by
  simp only [bindings, boundary_describe]
  exact List.filterMap_congr fun id _ => by simp [binding?_eq_bind_kind?]

theorem Linked.describe (hg : g.Linked) (slot : OutputRef) (info : TensorInfo) :
    (g.describe slot info).Linked where
  slots := by
    intro id l' hl'
    rw [getElem?_describe] at hl'
    obtain ⟨l, hl, rfl⟩ := Option.map_eq_some_iff.mp hl'
    obtain ⟨hin, hout⟩ := hg.slots id l hl
    refine ⟨hin, ?_⟩
    simp only [apply_ite List.length, List.length_modify, ite_self, hout]
  mirrored := by simpa using hg.mirrored
  once := by simpa using hg.once
  acyclic := by
    intro id hcycle
    exact hg.acyclic id (Relation.TransGen.mono (fun _ _ => feeds_describe.mp) _ _ hcycle)
  guids := by simpa using hg.guids

theorem Coherent.describe (hg : g.Coherent) (slot : OutputRef) (info : TensorInfo) :
    (g.describe slot info).Coherent where
  __ := hg.linked.describe slot info
  boundary_nodup := by simpa using hg.boundary_nodup
  mem_boundary := by simpa using hg.mem_boundary
  bindings_nodup := by simpa using hg.bindings_nodup

/-! ### Changing the order of a boundary -/

@[simp] theorem kind?_setBoundary (direction : Direction) (ids : List LayerId) (id : LayerId) :
    (g.setBoundary direction ids).kind? id = g.kind? id := by
  simp only [kind?, layers_setBoundary]

@[simp] theorem guid?_setBoundary (direction : Direction) (ids : List LayerId) (id : LayerId) :
    (g.setBoundary direction ids).guid? id = g.guid? id := by
  simp only [guid?, layers_setBoundary]

@[simp] theorem binding?_setBoundary (direction : Direction) (ids : List LayerId) :
    (g.setBoundary direction ids).binding? = g.binding? := by
  funext id
  simp only [binding?, layers_setBoundary]

@[simp] theorem producer?_setBoundary (direction : Direction) (ids : List LayerId) :
    (g.setBoundary direction ids).producer? = g.producer? := by
  funext slot
  simp only [producer?, layers_setBoundary]

@[simp] theorem feeds_setBoundary (direction : Direction) (ids : List LayerId) :
    (g.setBoundary direction ids).Feeds = g.Feeds := by
  funext a b
  simp only [Feeds, producer?_setBoundary]

@[simp] theorem consumers_setBoundary (direction : Direction) (ids : List LayerId) :
    (g.setBoundary direction ids).consumers = g.consumers := by
  funext slot
  simp only [consumers, layers_setBoundary]

theorem bindings_setBoundary (direction other : Direction) (ids : List LayerId) :
    (g.setBoundary direction ids).bindings other =
      if other = direction then ids.filterMap g.binding? else g.bindings other := by
  simp only [bindings, boundary_setBoundary, binding?_setBoundary]
  split <;> rfl

theorem Linked.setBoundary (hg : g.Linked) (direction : Direction) (ids : List LayerId) :
    (g.setBoundary direction ids).Linked where
  slots := by simpa using hg.slots
  mirrored := by simpa using hg.mirrored
  once := by simpa using hg.once
  acyclic := by simpa using hg.acyclic
  guids := by simpa using hg.guids

/-- Another order of a boundary keeps a graph coherent. -/
theorem Coherent.setBoundary (hg : g.Coherent) {direction : Direction} {ids : List LayerId}
    (hperm : ids.Perm (g.boundary direction)) : (g.setBoundary direction ids).Coherent where
  __ := hg.linked.setBoundary direction ids
  boundary_nodup := by
    intro d
    rw [boundary_setBoundary]
    split
    · exact hperm.nodup_iff.mpr (hg.boundary_nodup direction)
    · exact hg.boundary_nodup d
  mem_boundary := by
    intro d id
    rw [boundary_setBoundary, kind?_setBoundary]
    split
    · next heq =>
      subst heq
      rw [hperm.mem_iff]
      exact hg.mem_boundary d id
    · exact hg.mem_boundary d id
  bindings_nodup := by
    intro d
    rw [bindings_setBoundary]
    split
    · exact (hperm.filterMap g.binding?).nodup_iff.mpr (hg.bindings_nodup direction)
    · exact hg.bindings_nodup d

end Graph

end LayerGraph
