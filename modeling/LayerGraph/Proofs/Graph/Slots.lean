import LayerGraph.Graph.Basic
import LayerGraph.Proofs.Outcome

/-! # What a change does to slots and layers

  A connection is stored at both of its ends: `producer?` reads it at the input slot, and
  `consumers` at the output slot. Each change of a graph is described here by what it does to
  these two readings, to the kinds and the boundary lists, and to the table of identities.
  Nothing behind this module unfolds a change again.
-/

namespace LayerGraph

/-- The kind of the boundary layers of one side. -/
def Direction.kind : Direction → BindingId → LayerKind
  | input => .input
  | output => .output

namespace Graph

/-! ### Reading a graph -/

/-- The input slots that read an output slot, in the order they were connected. -/
def consumers (g : Graph) (slot : OutputRef) : List InputRef :=
  ((g.layers[slot.layer]?.bind (·.outputs[slot.index]?)).map (·.consumers)).getD []

/-- Operation of the layer at a position. -/
def kind? (g : Graph) (id : LayerId) : Option LayerKind := g.layers[id]?.map (·.kind)

/-- Identity of the layer at a position. -/
def guid? (g : Graph) (id : LayerId) : Option LayerGuid := g.layers[id]?.map (·.guid)

/-- The graph has the input slot. -/
def HasInput (g : Graph) (slot : InputRef) : Prop :=
  ∃ l, g.layers[slot.layer]? = some l ∧ slot.index < l.inputs.length

/-- The graph has the output slot. -/
def HasOutput (g : Graph) (slot : OutputRef) : Prop :=
  ∃ l, g.layers[slot.layer]? = some l ∧ slot.index < l.outputs.length

/-- A tensor flows from the first layer to the second. -/
def Feeds (g : Graph) (producer consumer : LayerId) : Prop :=
  ∃ o i, g.producer? ⟨consumer, i⟩ = some ⟨producer, o⟩

variable {g g' : Graph} {id : LayerId} {guid : LayerGuid} {kind : LayerKind} {name : String}
variable {source slot' : OutputRef} {target slot : InputRef} {info : TensorInfo}

theorem producer?_eq_some_iff :
    g.producer? slot = some source ↔
      ∃ l, g.layers[slot.layer]? = some l ∧ l.inputs[slot.index]? = some (some source) := by
  simp only [producer?, Option.bind_eq_bind, Option.bind_eq_some_iff]
  constructor
  · rintro ⟨l, hl, _, hp, rfl⟩
    exact ⟨l, hl, hp⟩
  · rintro ⟨l, hl, hp⟩
    exact ⟨l, hl, _, hp, rfl⟩

theorem mem_consumers_iff :
    slot ∈ g.consumers source ↔
      ∃ l out, g.layers[source.layer]? = some l ∧ l.outputs[source.index]? = some out ∧
        slot ∈ out.consumers := by
  constructor
  · intro h
    simp only [consumers] at h
    cases hl : g.layers[source.layer]? with
    | none => simp [hl] at h
    | some l =>
      cases ho : l.outputs[source.index]? with
      | none => simp [hl, ho] at h
      | some out => exact ⟨l, out, rfl, ho, by simpa [hl, ho] using h⟩
  · rintro ⟨l, out, hl, ho, hmem⟩
    simpa [consumers, hl, ho] using hmem

theorem HasInput.of_producer? (h : g.producer? slot = some source) : g.HasInput slot := by
  obtain ⟨l, hl, hp⟩ := producer?_eq_some_iff.mp h
  exact ⟨l, hl, (List.getElem?_eq_some_iff.mp hp).1⟩

theorem HasOutput.of_mem_consumers (h : slot ∈ g.consumers source) : g.HasOutput source := by
  obtain ⟨l, out, hl, ho, -⟩ := mem_consumers_iff.mp h
  exact ⟨l, hl, (List.getElem?_eq_some_iff.mp ho).1⟩

theorem HasInput.lt (h : g.HasInput slot) : slot.layer < g.layers.length := by
  obtain ⟨l, hl, -⟩ := h
  exact (List.getElem?_eq_some_iff.mp hl).1

theorem HasOutput.lt (h : g.HasOutput source) : source.layer < g.layers.length := by
  obtain ⟨l, hl, -⟩ := h
  exact (List.getElem?_eq_some_iff.mp hl).1

theorem Feeds.lt_right {a b : LayerId} (h : g.Feeds a b) : b < g.layers.length := by
  obtain ⟨o, i, h⟩ := h
  exact (HasInput.of_producer? h).lt

theorem mem_successors_iff {a b : LayerId} :
    b ∈ g.successors a ↔ ∃ o i, ⟨b, i⟩ ∈ g.consumers ⟨a, o⟩ := by
  simp only [successors]
  constructor
  · intro h
    cases hl : g.layers[a]? with
    | none => simp [hl] at h
    | some l =>
      simp only [hl, List.mem_flatMap, List.mem_map] at h
      obtain ⟨out, hout, ⟨b', i⟩, hmem, rfl⟩ := h
      obtain ⟨o, ho⟩ := List.mem_iff_getElem?.mp hout
      exact ⟨o, i, mem_consumers_iff.mpr ⟨l, out, hl, ho, hmem⟩⟩
  · rintro ⟨o, i, h⟩
    obtain ⟨l, out, hl, ho, hmem⟩ := mem_consumers_iff.mp h
    simp only [hl, List.mem_flatMap, List.mem_map]
    exact ⟨out, List.mem_of_getElem? ho, ⟨b, i⟩, hmem, rfl⟩

theorem binding?_eq_bind_kind? (g : Graph) (id : LayerId) :
    g.binding? id = (g.kind? id).bind (·.binding?) := by
  simp only [binding?, kind?]
  cases g.layers[id]? <;> rfl

theorem findBinding?_eq_some {direction : Direction} {binding : BindingId}
    (h : g.findBinding? direction binding = some id) :
    id ∈ g.boundary direction ∧ g.binding? id = some binding := by
  have hmem := List.mem_of_find?_eq_some h
  have hbinding := List.find?_some h
  exact ⟨hmem, by simpa using hbinding⟩

theorem findBinding?_eq_none_iff {direction : Direction} {binding : BindingId} :
    g.findBinding? direction binding = none ↔
      ∀ id ∈ g.boundary direction, g.binding? id ≠ some binding := by
  simp [findBinding?]

/-! ### Boundary kinds -/

/-- What the boundary list of one side gains when a layer is added behind `n` others. -/
def boundaryGain (direction : Direction) (kind : LayerKind) (n : Nat) : List LayerId :=
  match direction, kind with
  | .input, .input _ | .output, .output _ => [n]
  | _, _ => []

theorem mem_boundaryGain_iff {direction : Direction} {kind : LayerKind} {n id : Nat} :
    id ∈ boundaryGain direction kind n ↔ id = n ∧ ∃ b, kind = direction.kind b := by
  cases direction <;> cases kind <;> simp [boundaryGain, Direction.kind]

theorem boundaryGain_eq_nil (direction : Direction) {kind : LayerKind} {n : Nat}
    (h : ∀ b, kind ≠ direction.kind b) : boundaryGain direction kind n = [] := by
  refine List.eq_nil_iff_forall_not_mem.mpr fun id hid => ?_
  obtain ⟨-, b, hb⟩ := mem_boundaryGain_iff.mp hid
  exact h b hb

@[simp] theorem binding?_directionKind (direction : Direction) (binding : BindingId) :
    (direction.kind binding).binding? = some binding := by
  cases direction <;> rfl

/-! ### A layer added -/

/-- `g'` is `g` with one more layer behind the others. -/
structure Added (g : Graph) (guid : LayerGuid) (kind : LayerKind) (name : String) (g' : Graph) :
    Prop where
  layers : g'.layers = g.layers ++ [Layer.new guid kind name]
  guids : g'.guids = g.guids.insert guid g.layers.length
  boundary : ∀ direction,
    g'.boundary direction = g.boundary direction ++ boundaryGain direction kind g.layers.length
  /-- No boundary layer of the same side has the binding of the new one. -/
  fresh : ∀ direction binding, kind = direction.kind binding →
    ∀ id ∈ g.boundary direction, g.binding? id ≠ some binding

/-- A layer is added unless its binding is taken. -/
theorem addLayer_eq_ok_iff : g.addLayer guid kind name = .ok g' ↔ Added g guid kind name g' := by
  -- A kind binds on one side and with one binding at most.
  have hfresh (d : Direction) (b : BindingId) (c : Direction) (b' : BindingId)
      (hk : d.kind b = c.kind b') : d = c ∧ b = b' := by
    cases d <;> cases c <;> simp_all [Direction.kind]
  constructor
  · intro h
    unfold addLayer at h
    split at h
    · next b =>
      split at h
      · cases h
      · next hnone =>
        cases h
        refine ⟨rfl, rfl, fun d => by cases d <;> simp [boundary, boundaryGain], ?_⟩
        intro d b' hk
        obtain ⟨rfl, rfl⟩ := hfresh .input b d b' hk
        exact findBinding?_eq_none_iff.mp (by simpa using hnone)
    · next b =>
      split at h
      · cases h
      · next hnone =>
        cases h
        refine ⟨rfl, rfl, fun d => by cases d <;> simp [boundary, boundaryGain], ?_⟩
        intro d b' hk
        obtain ⟨rfl, rfl⟩ := hfresh .output b d b' hk
        exact findBinding?_eq_none_iff.mp (by simpa using hnone)
    · next hin hout =>
      cases h
      have hno (d : Direction) (b : BindingId) : kind ≠ d.kind b := by
        cases d with
        | input => exact hin b
        | output => exact hout b
      refine ⟨rfl, rfl, fun d => ?_, fun d b hk => absurd hk (hno d b)⟩
      cases d <;> simp [boundary, boundaryGain_eq_nil _ (hno _)]
  · rintro ⟨hlayers, hguids, hboundary, hbinding⟩
    have heq : g' = ⟨g.layers ++ [Layer.new guid kind name], g.guids.insert guid g.layers.length,
        g.inputs ++ boundaryGain .input kind g.layers.length,
        g.outputs ++ boundaryGain .output kind g.layers.length⟩ := by
      obtain ⟨layers, guids, inputs, outputs⟩ := g'
      have hin := hboundary .input
      have hout := hboundary .output
      simp_all [Graph.boundary]
    subst heq
    unfold addLayer
    split
    · next b =>
      have hnone := findBinding?_eq_none_iff.mpr (hbinding .input b rfl)
      simp [hnone, boundaryGain]
    · next b =>
      have hnone := findBinding?_eq_none_iff.mpr (hbinding .output b rfl)
      simp [hnone, boundaryGain]
    · next hin hout =>
      rw [boundaryGain_eq_nil .input hin, boundaryGain_eq_nil .output hout]
      simp

/-- A layer is added with the next number of the supply, behind the layers there are. -/
theorem insert_eq_ok_iff {supply supply' : GuidSupply} :
    (g.insert kind name).run supply = .ok (id, g') supply' ↔
      id = g.layers.length ∧ supply' = supply.advance ∧ Added g supply.next kind name g' := by
  rw [← addLayer_eq_ok_iff]
  simp only [insert, EStateM.run]
  cases g.addLayer supply.next kind name with
  | error e => simp
  | ok h =>
    simp only [EStateM.Result.ok.injEq, Prod.mk.injEq, Except.ok.injEq]
    constructor
    · rintro ⟨⟨rfl, rfl⟩, rfl⟩
      exact ⟨rfl, rfl, rfl⟩
    · rintro ⟨rfl, rfl, rfl⟩
      exact ⟨⟨rfl, rfl⟩, rfl⟩

theorem insert_advances (g : Graph) (kind : LayerKind) (name : String) :
    (g.insert kind name).Advances where
  ok := by
    intro s p s' h
    obtain ⟨-, rfl, -⟩ := insert_eq_ok_iff.mp h
    exact Nat.le_succ _
  error := by
    intro s e s' h
    simp only [insert, EStateM.run] at h
    split at h
    · cases h
    · cases h
      exact Nat.le_refl _

/-- The new layer and the layers before it. -/
theorem Added.getElem? (h : Added g guid kind name g') (id : LayerId) :
    g'.layers[id]? = if id = g.layers.length then some (Layer.new guid kind name)
      else g.layers[id]? := by
  rw [h.layers]
  by_cases heq : id = g.layers.length
  · simp [heq]
  · rw [if_neg heq]
    by_cases hlt : id < g.layers.length
    · rw [List.getElem?_append_left hlt]
    · have hle : g.layers.length + 1 ≤ id := by lia
      rw [List.getElem?_eq_none (by simpa using hle), List.getElem?_eq_none (Nat.le_of_succ_le hle)]

theorem Added.length (h : Added g guid kind name g') :
    g'.layers.length = g.layers.length + 1 := by
  simp [h.layers]

theorem Added.kind? (h : Added g guid kind name g') (id : LayerId) :
    g'.kind? id = if id = g.layers.length then some kind else g.kind? id := by
  simp only [Graph.kind?, h.getElem?]
  split <;> rfl

theorem Added.guid? (h : Added g guid kind name g') (id : LayerId) :
    g'.guid? id = if id = g.layers.length then some guid else g.guid? id := by
  simp only [Graph.guid?, h.getElem?]
  split <;> rfl

/-- The slots of the new layer are not connected, so no connection is there that was not. -/
theorem Added.producer? (h : Added g guid kind name g') (slot : InputRef) :
    g'.producer? slot = g.producer? slot := by
  have hnew : (Layer.new guid kind name).inputs[slot.index]?.join = none := by
    simp only [Layer.new, List.getElem?_replicate]
    split <;> rfl
  simp only [Graph.producer?, h.getElem?]
  split
  · next heq =>
    have hold : g.layers[slot.layer]? = none := List.getElem?_eq_none (Nat.le_of_eq heq.symm)
    rw [hold]
    cases h : (Layer.new guid kind name).inputs[slot.index]? with
    | none => simp [h]
    | some source =>
      rw [h, Option.join_some] at hnew
      simp [h, hnew]
  · rfl

theorem Added.consumers (h : Added g guid kind name g') (slot : OutputRef) :
    g'.consumers slot = g.consumers slot := by
  simp only [Graph.consumers, h.getElem?]
  split
  · next heq =>
    have hold : g.layers[slot.layer]? = none := List.getElem?_eq_none (Nat.le_of_eq heq.symm)
    simp only [hold, Layer.new, Option.bind_some, Option.bind_none, List.getElem?_replicate]
    split <;> rfl
  · rfl

/-! ### A connection added -/

theorem layer_eq_ok_iff {l : Layer} : g.layer id = .ok l ↔ g.layers[id]? = some l := by
  simp only [layer]
  split
  · next l' h => simp [h]
  · next h => simp [h]

/-- A connection is made between slots that are there, the second of which is free, when it
    closes no cycle. -/
theorem connect_eq_ok_iff :
    g.connect source target = .ok g' ↔
      g.HasOutput source ∧ g.HasInput target ∧ g.producer? target = none ∧
        g.reaches target.layer source.layer = false ∧ g' = g.link source target := by
  simp only [connect, Except.bind_eq_ok_iff, layer_eq_ok_iff, Except.check_eq_ok_iff, Nat.not_le]
  constructor
  · rintro ⟨p, hp, hout, c, hc, h⟩
    split at h
    · cases h
    · cases h
    · next hfree =>
      obtain ⟨hreach, h⟩ := Except.check_eq_ok_iff.mp h
      have hlt := (List.getElem?_eq_some_iff.mp hfree).1
      refine ⟨⟨p, hp, hout⟩, ⟨c, hc, hlt⟩, ?_, by simpa using hreach,
        (Except.pure_eq_ok_iff.mp h).symm⟩
      simp [producer?, hc, hfree]
  · rintro ⟨⟨p, hp, hout⟩, ⟨c, hc, hin⟩, hfree, hreach, rfl⟩
    -- The target is there and has no producer, so its slot is free.
    have hslot : c.inputs[target.index]? = some none := by
      have hget := List.getElem?_eq_getElem hin
      simp only [producer?, hc, hget, Option.bind_eq_bind, Option.bind_some] at hfree
      rw [hget, hfree]
    refine ⟨p, hp, hout, c, hc, ?_⟩
    simp [hslot, hreach, pure, Except.pure]

/-- The layers of a graph with a connection recorded at both of its ends. -/
theorem getElem?_link (g : Graph) (source : OutputRef) (target : InputRef) (id : LayerId) :
    (g.link source target).layers[id]? = g.layers[id]?.map fun l =>
      { l with
        inputs := if id = target.layer then l.inputs.set target.index (some source) else l.inputs
        outputs := if id = source.layer then l.outputs.modify source.index fun slot =>
          { slot with consumers := slot.consumers ++ [target] } else l.outputs } := by
  simp only [link, List.getElem?_modify, eq_comm (a := id)]
  cases g.layers[id]? with
  | none => rfl
  | some l => by_cases ht : target.layer = id <;> by_cases hs : source.layer = id <;> simp [ht, hs]

@[simp] theorem length_link : (g.link source target).layers.length = g.layers.length := by
  simp [link]

@[simp] theorem kind?_link (id : LayerId) : (g.link source target).kind? id = g.kind? id := by
  simp only [kind?, getElem?_link]
  cases g.layers[id]? <;> rfl

@[simp] theorem guid?_link (id : LayerId) : (g.link source target).guid? id = g.guid? id := by
  simp only [guid?, getElem?_link]
  cases g.layers[id]? <;> rfl

@[simp] theorem guids_link : (g.link source target).guids = g.guids := rfl

@[simp] theorem boundary_link (direction : Direction) :
    (g.link source target).boundary direction = g.boundary direction := by
  cases direction <;> rfl

/-- The input slot reads the output slot now, and every other slot what it read. -/
theorem producer?_link (h : g.HasInput target) (slot : InputRef) :
    (g.link source target).producer? slot =
      if slot = target then some source else g.producer? slot := by
  obtain ⟨l, hl, hlt⟩ := h
  obtain ⟨layer, index⟩ := slot
  obtain ⟨tlayer, tindex⟩ := target
  simp only [producer?, getElem?_link, InputRef.mk.injEq] at hl hlt ⊢
  by_cases hlayer : layer = tlayer
  · subst hlayer
    by_cases hindex : index = tindex
    · subst hindex
      simp [hl, hlt]
    · simp [hl, hindex, List.getElem?_set_ne (Ne.symm hindex)]
  · cases g.layers[layer]? <;> simp [hlayer]

/-- The output slot has one more reader, and every other slot those it had. -/
theorem consumers_link (h : g.HasOutput source) (slot' : OutputRef) :
    (g.link source target).consumers slot' =
      if slot' = source then g.consumers slot' ++ [target] else g.consumers slot' := by
  obtain ⟨l, hl, hlt⟩ := h
  obtain ⟨layer, index⟩ := slot'
  obtain ⟨slayer, sindex⟩ := source
  simp only [consumers, getElem?_link, OutputRef.mk.injEq] at hl hlt ⊢
  by_cases hlayer : layer = slayer
  · subst hlayer
    by_cases hindex : index = sindex
    · subst hindex
      simp [hl, List.getElem?_eq_getElem hlt]
    · simp [hl, hindex, Ne.symm hindex]
  · cases g.layers[layer]? <;> simp [hlayer]

/-! ### A descriptor set -/

/-- A descriptor is set at slots that are there. -/
theorem setInfo_eq_ok_iff :
    g.setInfo slot' info = .ok g' ↔ g.HasOutput slot' ∧ g' = g.describe slot' info := by
  simp only [setInfo, Except.bind_eq_ok_iff, layer_eq_ok_iff, Except.check_eq_ok_iff, Nat.not_le,
    Except.pure_eq_ok_iff]
  constructor
  · rintro ⟨l, hl, hlt, rfl⟩
    exact ⟨⟨l, hl, hlt⟩, rfl⟩
  · rintro ⟨⟨l, hl, hlt⟩, rfl⟩
    exact ⟨l, hl, hlt, rfl⟩

theorem getElem?_describe (g : Graph) (slot' : OutputRef) (info : TensorInfo) (id : LayerId) :
    (g.describe slot' info).layers[id]? = g.layers[id]?.map fun l =>
      { l with
        outputs := if id = slot'.layer then l.outputs.modify slot'.index fun output =>
          { output with info := some info } else l.outputs } := by
  simp only [describe, List.getElem?_modify, eq_comm (a := id)]
  cases g.layers[id]? with
  | none => rfl
  | some l => by_cases hs : slot'.layer = id <;> simp [hs]

@[simp] theorem length_describe : (g.describe slot' info).layers.length = g.layers.length := by
  simp [describe]

@[simp] theorem kind?_describe (id : LayerId) : (g.describe slot' info).kind? id = g.kind? id := by
  simp only [kind?, getElem?_describe]
  cases g.layers[id]? <;> rfl

@[simp] theorem guid?_describe (id : LayerId) : (g.describe slot' info).guid? id = g.guid? id := by
  simp only [guid?, getElem?_describe]
  cases g.layers[id]? <;> rfl

@[simp] theorem guids_describe : (g.describe slot' info).guids = g.guids := rfl

@[simp] theorem boundary_describe (direction : Direction) :
    (g.describe slot' info).boundary direction = g.boundary direction := by
  cases direction <;> rfl

@[simp] theorem producer?_describe (slot : InputRef) :
    (g.describe slot' info).producer? slot = g.producer? slot := by
  simp only [producer?, getElem?_describe]
  cases g.layers[slot.layer]? <;> rfl

@[simp] theorem consumers_describe (other : OutputRef) :
    (g.describe slot' info).consumers other = g.consumers other := by
  simp only [consumers, getElem?_describe]
  cases g.layers[other.layer]? with
  | none => rfl
  | some l =>
    by_cases hlayer : other.layer = slot'.layer
    · simp only [hlayer, if_true, Option.map_some, Option.bind_some, List.getElem?_modify]
      cases l.outputs[other.index]? with
      | none => rfl
      | some out => by_cases hindex : slot'.index = other.index <;> simp [hindex]
    · simp [hlayer]

/-! ### A boundary list put in another order -/

@[simp] theorem layers_setBoundary (direction : Direction) (ids : List LayerId) :
    (g.setBoundary direction ids).layers = g.layers := by
  cases direction <;> rfl

@[simp] theorem guids_setBoundary (direction : Direction) (ids : List LayerId) :
    (g.setBoundary direction ids).guids = g.guids := by
  cases direction <;> rfl

theorem boundary_setBoundary (direction other : Direction) (ids : List LayerId) :
    (g.setBoundary direction ids).boundary other =
      if other = direction then ids else g.boundary other := by
  cases direction <;> cases other <;> rfl

theorem reorder_eq_ok_iff {direction : Direction} {order : List BindingId} :
    g.reorder direction order = .ok g' ↔
      ∃ ids, g.arrangement direction order = .ok ids ∧ g' = g.setBoundary direction ids := by
  simp only [reorder, Except.bind_eq_ok_iff, Except.pure_eq_ok_iff, eq_comm (b := g')]

end Graph

end LayerGraph
