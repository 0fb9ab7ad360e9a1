import LayerGraph.Proofs.Graph.Session
import LayerGraph.Proofs.Graph.TopologicalOrder

/-! # What layers say

  The content of a layer is everything a caller decided: its name, its kind, what its inputs read
  and what its outputs are. Left out are the identity, which the supply decides, and the lists of
  readers, which follow from what the inputs read. Two graphs with the same contents and the same
  boundaries are the same graph to every caller.
-/

namespace LayerGraph

/-- What was decided about a layer. -/
structure LayerContent where
  /-- Name of the layer. -/
  name : String
  /-- Operation of the layer. -/
  kind : LayerKind
  /-- What the input slots read. -/
  inputs : List (Option OutputRef)
  /-- Descriptors of the output slots. -/
  infos : List (Option TensorInfo)
deriving DecidableEq

/-- The content of a layer. -/
def Layer.content (l : Layer) : LayerContent := ⟨l.name, l.kind, l.inputs, l.outputs.map (·.info)⟩

/-- The content with layers numbered in another way. -/
def LayerContent.renumber (number : LayerId → LayerId) (c : LayerContent) : LayerContent :=
  { c with inputs := c.inputs.map fun source =>
      source.map fun p => { p with layer := number p.layer } }

/-- The new numbers of the layers that are read are all that matters. -/
theorem LayerContent.renumber_congr {number number' : LayerId → LayerId} {c : LayerContent}
    (h : ∀ p, some p ∈ c.inputs → number' p.layer = number p.layer) :
    c.renumber number' = c.renumber number := by
  unfold renumber
  congr 1
  apply List.map_congr_left
  intro source hsource
  cases source with
  | none => rfl
  | some p => simp [h p hsource]

/-- Nothing changes when the layers that are read keep their numbers. -/
theorem LayerContent.renumber_eq_self {number : LayerId → LayerId} {c : LayerContent}
    (h : ∀ p, some p ∈ c.inputs → number p.layer = p.layer) : c.renumber number = c := by
  have hcongr : c.renumber number = c.renumber id := renumber_congr h
  rw [hcongr]
  simp [renumber]

namespace Graph

/-- The content of the layer at a position. -/
def content? (g : Graph) (id : LayerId) : Option LayerContent := g.layers[id]?.map Layer.content

/-- The contents of the layers. -/
def contents (g : Graph) : List LayerContent := g.layers.map Layer.content

variable {g g' : Graph} {id layer : LayerId} {guid : LayerGuid} {kind : LayerKind} {name : String}
variable {source : OutputRef} {target slot : InputRef} {info : TensorInfo} {c : LayerContent}

/-! ### Reading contents -/

@[simp] theorem getElem?_contents (g : Graph) (id : LayerId) : g.contents[id]? = g.content? id := by
  rw [contents, List.getElem?_map, content?]

/-- Boundaries and identities play no part in what the layers say. -/
theorem content?_of_layers (h : g'.layers = g.layers) : g'.content? = g.content? := by
  funext id
  rw [content?, content?, h]

@[simp] theorem length_contents (g : Graph) : g.contents.length = g.layers.length := by
  simp [contents]

theorem kind?_eq_content? (id : LayerId) : g.kind? id = (g.content? id).map (·.kind) := by
  simp only [kind?, content?, Option.map_map]
  rfl

theorem sources_eq_content? (id : LayerId) :
    g.sources id = ((g.content? id).map (·.inputs)).getD [] := by
  simp only [sources, content?, Option.map_map]
  rfl

theorem producer?_eq_content? (slot : InputRef) :
    g.producer? slot =
      (((g.content? slot.layer).map (·.inputs)).getD [])[slot.index]?.join := by
  rw [producer?_eq_sources, sources_eq_content?]

theorem info?_eq_content? (slot : OutputRef) :
    g.info? slot = (g.content? slot.layer).bind fun c => c.infos[slot.index]?.join := by
  unfold info? content?
  cases g.layers[slot.layer]? with
  | none => rfl
  | some l =>
    show (l.outputs[slot.index]?).bind (·.info) = ((l.outputs.map (·.info))[slot.index]?).join
    rw [List.getElem?_map]
    cases l.outputs[slot.index]? <;> rfl

theorem hasInput_iff :
    g.HasInput slot ↔ ∃ c, g.content? slot.layer = some c ∧ slot.index < c.inputs.length := by
  simp only [HasInput, content?, Option.map_eq_some_iff]
  constructor
  · rintro ⟨l, hl, hlt⟩
    exact ⟨_, ⟨l, hl, rfl⟩, hlt⟩
  · rintro ⟨_, ⟨l, hl, rfl⟩, hlt⟩
    exact ⟨l, hl, hlt⟩

theorem hasOutput_iff :
    g.HasOutput source ↔
      ∃ c, g.content? source.layer = some c ∧ source.index < c.infos.length := by
  simp only [HasOutput, content?, Option.map_eq_some_iff]
  constructor
  · rintro ⟨l, hl, hlt⟩
    exact ⟨_, ⟨l, hl, rfl⟩, by simpa [Layer.content] using hlt⟩
  · rintro ⟨_, ⟨l, hl, rfl⟩, hlt⟩
    exact ⟨l, hl, by simpa [Layer.content] using hlt⟩

theorem content?_eq_none_iff : g.content? id = none ↔ g.layers.length ≤ id := by
  rw [content?, Option.map_eq_none_iff, List.getElem?_eq_none_iff]

theorem lt_of_content? (h : g.content? id = some c) : id < g.layers.length := by
  by_contra hle
  rw [content?_eq_none_iff.mpr (Nat.le_of_not_lt hle)] at h
  cases h

theorem exists_content? (h : id < g.layers.length) : ∃ c, g.content? id = some c := by
  cases hc : g.content? id with
  | none => exact absurd h (Nat.not_lt.mpr (content?_eq_none_iff.mp hc))
  | some c => exact ⟨c, rfl⟩

theorem forall_content?_iff (p : LayerContent → Prop) :
    (∀ id c, g.content? id = some c → p c) ↔ ∀ l ∈ g.layers, p l.content := by
  simp only [content?, Option.map_eq_some_iff]
  constructor
  · intro h l hl
    obtain ⟨id, hid⟩ := List.mem_iff_getElem?.mp hl
    exact h id l.content ⟨l, hid, rfl⟩
  · rintro h id c ⟨l, hl, rfl⟩
    exact h l (List.mem_of_getElem? hl)

theorem length_eq_of_content? {n : Nat} (h : ∀ id : LayerId, g.content? id = none ↔ n ≤ id) :
    g.layers.length = n := by
  have hle := (h g.layers.length).mp (content?_eq_none_iff.mpr (Nat.le_refl _))
  have hge := content?_eq_none_iff.mp ((h n).mpr (Nat.le_refl n))
  exact Nat.le_antisymm hge hle

/-- A layer has as many slots as its kind asks for. -/
theorem Coherent.content_slots (hg : g.Coherent) (h : g.content? id = some c) :
    c.inputs.length = c.kind.inputCount ∧ c.infos.length = c.kind.outputCount := by
  obtain ⟨l, hl, rfl⟩ := Option.map_eq_some_iff.mp h
  simpa [Layer.content] using hg.slots id l hl

/-- A tensor flows to a layer that reads it. -/
theorem feeds_of_content? {p : OutputRef} (h : g.content? id = some c) (hp : some p ∈ c.inputs) :
    g.Feeds p.layer id := by
  rw [feeds_iff_mem_sources, sources_eq_content?, h]
  exact ⟨p, hp, rfl⟩

/-- A slot that is read exists. -/
theorem Linked.hasOutput_of_content? (hg : g.Linked) {p : OutputRef}
    (h : g.content? id = some c) (hp : some p ∈ c.inputs) : g.HasOutput p := by
  obtain ⟨index, hindex⟩ := List.mem_iff_getElem?.mp hp
  have hread : g.producer? ⟨id, index⟩ = some p := by
    simp [producer?_eq_content?, h, hindex]
  exact (hg.ends_exist hread).1

theorem Coherent.mem_bindings_iff (hg : g.Coherent) {direction : Direction} {b : BindingId} :
    b ∈ g.bindings direction ↔ ∃ id, g.kind? id = some (direction.kind b) := by
  rw [bindings, List.mem_filterMap]
  constructor
  · rintro ⟨id, hid, hb⟩
    obtain ⟨b', hkind⟩ := (hg.mem_boundary direction id).mp hid
    rw [binding?_eq_bind_kind?, hkind] at hb
    have heq : b' = b := by simpa using hb
    exact ⟨id, heq ▸ hkind⟩
  · rintro ⟨id, hkind⟩
    exact ⟨id, (hg.mem_boundary direction id).mpr ⟨b, hkind⟩,
      by simp [binding?_eq_bind_kind?, hkind]⟩

/-- Two layers are not boundaries of one side with one binding. -/
theorem Coherent.kind_injective (hg : g.Coherent) {direction : Direction} {b : BindingId}
    {id id' : LayerId} (h : g.kind? id = some (direction.kind b))
    (h' : g.kind? id' = some (direction.kind b)) : id = id' := by
  have hbinding {id : LayerId} (h : g.kind? id = some (direction.kind b)) :
      g.binding? id = some b := by
    simp [binding?_eq_bind_kind?, h]
  exact hg.binding_injective ((hg.mem_boundary direction id).mpr ⟨b, h⟩)
    ((hg.mem_boundary direction id').mpr ⟨b, h'⟩) (hbinding h) (hbinding h')

/-! ### Changing contents -/

/-- A layer can be added when its binding is not taken. -/
theorem exists_added (g : Graph) (guid : LayerGuid) (name : String)
    (h : ∀ direction b, kind = direction.kind b → b ∉ g.bindings direction) :
    ∃ g', Added g guid kind name g' := by
  refine ⟨⟨g.layers ++ [Layer.new guid kind name], g.guids.insert guid g.layers.length,
    g.inputs ++ boundaryGain .input kind g.layers.length,
    g.outputs ++ boundaryGain .output kind g.layers.length⟩, rfl, rfl, ?_, ?_⟩
  · rintro (_ | _) <;> rfl
  · intro direction b hkind id hid hb
    exact h direction b hkind (List.mem_filterMap.mpr ⟨id, hid, hb⟩)

theorem Added.content? (h : Added g guid kind name g') (id : LayerId) :
    g'.content? id =
      if id = g.layers.length then
        some ⟨name, kind, List.replicate kind.inputCount none, List.replicate kind.outputCount none⟩
      else g.content? id := by
  simp only [Graph.content?, h.getElem?]
  split
  · simp [Layer.content, Layer.new]
  · rfl

/-- The slots that a new layer may read are those that were there before it. -/
theorem Added.readable_iff (h : Added g guid kind name g') {p : OutputRef} :
    g'.HasOutput p ∧ p.layer ≠ g.layers.length ↔ g.HasOutput p := by
  simp only [hasOutput_iff, h.content?]
  by_cases hp : p.layer = g.layers.length
  · have hnone : g.content? g.layers.length = none := content?_eq_none_iff.mpr (Nat.le_refl _)
    simp [hp, hnone]
  · simp [hp]

/-- Nothing reads a new layer. -/
theorem Added.not_feeds (h : Added g guid kind name g') (hg : g.Coherent) (b : LayerId) :
    ¬ g'.Feeds g.layers.length b := by
  intro hb
  exact Nat.lt_irrefl _ (hg.linked.lt_of_feeds (h.feeds_iff.mp hb))

theorem content?_link (g : Graph) (source : OutputRef) (target : InputRef) (id : LayerId) :
    (g.link source target).content? id = (g.content? id).map fun c =>
      if id = target.layer then { c with inputs := c.inputs.set target.index (some source) }
      else c := by
  have hmodify (outputs : List OutputSlot) (index : Nat) :
      (outputs.modify index fun slot =>
        { slot with consumers := slot.consumers ++ [target] }).map (·.info) =
      outputs.map (·.info) := by
    refine List.ext_getElem? fun i => ?_
    simp only [List.getElem?_map, List.getElem?_modify]
    cases outputs[i]? with
    | none => rfl
    | some out => by_cases hi : index = i <;> simp [hi]
  simp only [content?, getElem?_link, Option.map_map]
  congr 1
  funext l
  simp only [Function.comp, Layer.content, apply_ite (List.map OutputSlot.info), hmodify, ite_self]
  split <;> rfl

theorem content?_describe (g : Graph) (slot : OutputRef) (info : TensorInfo) (id : LayerId) :
    (g.describe slot info).content? id = (g.content? id).map fun c =>
      if id = slot.layer then { c with infos := c.infos.set slot.index (some info) } else c := by
  have hinfos (outputs : List OutputSlot) :
      (outputs.modify slot.index fun output => { output with info := some info }).map (·.info) =
      (outputs.map (·.info)).set slot.index (some info) := by
    refine List.ext_getElem? fun i => ?_
    simp only [List.getElem?_map, List.getElem?_modify, List.getElem?_set]
    by_cases hi : slot.index = i
    · subst hi
      cases ho : outputs[slot.index]? with
      | none => simp [List.getElem?_eq_none_iff.mp ho]
      | some out => simp [(List.getElem?_eq_some_iff.mp ho).1]
    · simp [hi]
  simp only [content?, getElem?_describe, Option.map_map]
  congr 1
  funext l
  by_cases hs : id = slot.layer <;> simp [Layer.content, hs, hinfos]

/-- The slots that are there stay there. -/
theorem hasOutput_link {slot' : OutputRef} :
    (g.link source target).HasOutput slot' ↔ g.HasOutput slot' := by
  simp only [hasOutput_iff, content?_link]
  cases g.content? slot'.layer with
  | none => simp
  | some c => by_cases h : slot'.layer = target.layer <;> simp [h]

/-! ### Wiring a new layer -/

/-- `g'` is `g` with other inputs of one layer. -/
structure Wired (g : Graph) (layer : LayerId) (inputs : List (Option OutputRef)) (g' : Graph) :
    Prop where
  coherent : g'.Coherent
  guid? : g'.guid? = g.guid?
  content? : ∀ id, g'.content? id =
    (g.content? id).map fun c => if id = layer then { c with inputs := inputs } else c

/-- Connects the input slots of a layer from the given position on. -/
def connectAll (layer : LayerId) (sources : List OutputRef) (position : Nat) (g : Graph) :
    Except GraphError Graph :=
  (sources.zipIdx position).foldlM (fun g (source, index) => g.connect source ⟨layer, index⟩) g

theorem connectAll_cons (sources : List OutputRef) (p : OutputRef) (place : Nat) (g : Graph) :
    connectAll layer (p :: sources) place g =
      g.connect p ⟨layer, place⟩ >>= connectAll layer sources (place + 1) := by
  rw [connectAll, List.zipIdx_cons, List.foldlM_cons]
  rfl

theorem connectAll_of_connect {sources : List OutputRef} {p : OutputRef} {place : Nat}
    (h : g.connect p ⟨layer, place⟩ = .ok g') :
    connectAll layer (p :: sources) place g = connectAll layer sources (place + 1) g' := by
  rw [connectAll_cons, h]
  rfl

theorem exists_connectAll_error {sources : List OutputRef} {p : OutputRef} {place : Nat}
    (h : ∀ g', g.connect p ⟨layer, place⟩ ≠ .ok g') :
    ∃ e, connectAll layer (p :: sources) place g = .error e := by
  cases hconnect : g.connect p ⟨layer, place⟩ with
  | ok g' => exact absurd hconnect (h g')
  | error e =>
    refine ⟨e, ?_⟩
    rw [connectAll_cons, hconnect]
    rfl

/-- An input that was connected first is one of the other inputs. -/
theorem Wired.of_link {inputs : List (Option OutputRef)} {place : Nat}
    (h : Wired (g.link source ⟨layer, place⟩) layer inputs g') : Wired g layer inputs g' where
  coherent := h.coherent
  guid? := h.guid?.trans (funext fun id => guid?_link id)
  content? := by
    intro id
    rw [h.content?, content?_link, Option.map_map]
    congr 1
    funext c
    by_cases hid : id = layer <;> simp [hid]

/-- A layer that nothing reads may read any other layer. -/
theorem Coherent.connect_new_iff (hg : g.Coherent) (hnew : ∀ b, ¬ g.Feeds target.layer b)
    (hslot : g.HasInput target) (hfree : g.producer? target = none) :
    g.connect source target = .ok g' ↔
      (g.HasOutput source ∧ source.layer ≠ target.layer) ∧ g' = g.link source target := by
  rw [connect_eq_ok_iff]
  constructor
  · rintro ⟨hsource, -, -, hreach, rfl⟩
    refine ⟨⟨hsource, fun heq => ?_⟩, rfl⟩
    rw [heq, (reaches_iff hg.linked.readersExist hslot.lt).mpr .refl] at hreach
    cases hreach
  · rintro ⟨⟨hsource, hne⟩, rfl⟩
    refine ⟨hsource, hslot, hfree, ?_, rfl⟩
    exact reaches_of_no_readers hg.linked.readersExist hslot.lt
      (fun b hb => hnew b (hg.linked.precedes_iff.mp hb)) hne

/-- The free inputs of a new layer are connected one after another, unless there are fewer of them
    or one would read a slot that is not there, or the layer itself. -/
theorem Coherent.connectAll_cases (sources done : List OutputRef) (spare : Nat)
    (hg : g.Coherent) (hnew : ∀ b, ¬ g.Feeds layer b) (hc : g.content? layer = some c)
    (hinputs : c.inputs = done.map some ++ List.replicate spare none) :
    (∃ g', connectAll layer sources done.length g = .ok g' ∧ sources.length ≤ spare ∧
      (∀ p ∈ sources, g.HasOutput p ∧ p.layer ≠ layer) ∧
      Wired g layer
        ((done ++ sources).map some ++ List.replicate (spare - sources.length) none) g') ∨
    ((spare < sources.length ∨ ∃ p ∈ sources, ¬ (g.HasOutput p ∧ p.layer ≠ layer)) ∧
      ∃ e, connectAll layer sources done.length g = .error e) := by
  induction sources generalizing g done c spare with
  | nil =>
    refine .inl ⟨g, rfl, Nat.zero_le _, by simp, hg, rfl, fun id => ?_⟩
    split
    · next heq =>
      subst heq
      rw [hc, Option.map_some, List.append_nil, List.length_nil, Nat.sub_zero, ← hinputs]
    · simp
  | cons p sources ih =>
    have hslot : g.HasInput ⟨layer, done.length⟩ ↔ 0 < spare := by
      rw [hasInput_iff]
      simp [hc, hinputs]
    -- Without a free slot the next connection fails.
    cases spare with
    | zero =>
      refine .inr ⟨.inl (Nat.succ_pos _), exists_connectAll_error fun g₁ hconnect => ?_⟩
      obtain ⟨-, hinput, -⟩ := connect_eq_ok_iff.mp hconnect
      exact absurd (hslot.mp hinput) (Nat.lt_irrefl 0)
    | succ spare =>
      have hslot := hslot.mpr (Nat.succ_pos spare)
      have hfree : g.producer? ⟨layer, done.length⟩ = none := by
        simp [producer?_eq_content?, hc, hinputs, List.replicate_succ]
      by_cases hp : g.HasOutput p ∧ p.layer ≠ layer
      · have hlink : g.connect p ⟨layer, done.length⟩ = .ok (g.link p ⟨layer, done.length⟩) :=
          (hg.connect_new_iff hnew hslot hfree).mpr ⟨hp, rfl⟩
        obtain ⟨hsource, -, -, hreach, -⟩ := connect_eq_ok_iff.mp hlink
        have hg₁ := hg.link hsource hslot hfree hreach
        -- The layer reads from others only, so nothing reads it afterwards either.
        have hnew₁ (b : LayerId) : ¬ (g.link p ⟨layer, done.length⟩).Feeds layer b := by
          intro hb
          rcases feeds_link hslot hb with hb | ⟨heq, -⟩
          · exact hnew b hb
          · exact hp.2 heq.symm
        have hc₁ := content?_link g p ⟨layer, done.length⟩ layer
        rw [hc, Option.map_some, if_pos rfl] at hc₁
        have hinputs₁ : c.inputs.set done.length (some p) =
            (done ++ [p]).map some ++ List.replicate spare none := by
          simp [hinputs, List.replicate_succ]
        have hrest := ih (done ++ [p]) spare hg₁ hnew₁ hc₁ hinputs₁
        rw [List.length_append, List.length_singleton] at hrest
        simp only [hasOutput_link] at hrest
        rw [connectAll_of_connect hlink]
        rcases hrest with ⟨g', hok, hle, hgood, hwired⟩ | ⟨hbad, e, herror⟩
        · rw [List.append_assoc, List.singleton_append] at hwired
          refine .inl ⟨g', hok, Nat.succ_le_succ hle, List.forall_mem_cons.mpr ⟨hp, hgood⟩, ?_⟩
          rw [List.length_cons, Nat.add_sub_add_right]
          exact hwired.of_link
        · refine .inr ⟨hbad.imp Nat.succ_lt_succ ?_, e, herror⟩
          rintro ⟨p', hp', hbad⟩
          exact ⟨p', List.mem_cons_of_mem p hp', hbad⟩
      · refine .inr ⟨.inr ⟨p, List.mem_cons_self, hp⟩, ?_⟩
        refine exists_connectAll_error fun g₁ hconnect => ?_
        exact hp ((hg.connect_new_iff hnew hslot hfree).mp hconnect).1

/-! ### Describing a new layer -/

/-- Sets the descriptors of the output slots of a layer from the given position on. -/
def describeAll (layer : LayerId) (infos : List TensorInfo) (position : Nat) (g : Graph) :
    Except GraphError Graph :=
  (infos.zipIdx position).foldlM (fun g (info, index) => g.setInfo ⟨layer, index⟩ info) g

/-- `g'` is `g` with other descriptors of one layer. -/
structure Described (g : Graph) (layer : LayerId) (infos : List (Option TensorInfo)) (g' : Graph) :
    Prop where
  coherent : g'.Coherent
  guid? : g'.guid? = g.guid?
  content? : ∀ id, g'.content? id =
    (g.content? id).map fun c => if id = layer then { c with infos := infos } else c

theorem describeAll_cons (infos : List TensorInfo) (info : TensorInfo) (place : Nat) (g : Graph) :
    describeAll layer (info :: infos) place g =
      g.setInfo ⟨layer, place⟩ info >>= describeAll layer infos (place + 1) := by
  rw [describeAll, List.zipIdx_cons, List.foldlM_cons]
  rfl

theorem describeAll_of_setInfo {infos : List TensorInfo} {place : Nat}
    (h : g.setInfo ⟨layer, place⟩ info = .ok g') :
    describeAll layer (info :: infos) place g = describeAll layer infos (place + 1) g' := by
  rw [describeAll_cons, h]
  rfl

theorem exists_describeAll_error {infos : List TensorInfo} {place : Nat}
    (h : ∀ g', g.setInfo ⟨layer, place⟩ info ≠ .ok g') :
    ∃ e, describeAll layer (info :: infos) place g = .error e := by
  cases hset : g.setInfo ⟨layer, place⟩ info with
  | ok g' => exact absurd hset (h g')
  | error e =>
    refine ⟨e, ?_⟩
    rw [describeAll_cons, hset]
    rfl

/-- A descriptor that was set first is one of the other descriptors. -/
theorem Described.of_describe {infos : List (Option TensorInfo)} {place : Nat}
    (h : Described (g.describe ⟨layer, place⟩ info) layer infos g') :
    Described g layer infos g' where
  coherent := h.coherent
  guid? := h.guid?.trans (funext fun id => guid?_describe id)
  content? := by
    intro id
    rw [h.content?, content?_describe, Option.map_map]
    congr 1
    funext c
    by_cases hid : id = layer <;> simp [hid]

theorem Described.feeds_iff {infos : List (Option TensorInfo)} (h : Described g layer infos g')
    {a b : LayerId} : g'.Feeds a b ↔ g.Feeds a b := by
  have hsources : g'.sources b = g.sources b := by
    rw [sources_eq_content?, sources_eq_content?, h.content?]
    cases g.content? b with
    | none => rfl
    | some c =>
      rw [Option.map_some]
      split <;> rfl
  rw [feeds_iff_mem_sources, feeds_iff_mem_sources, hsources]

/-- The slots of the other layers stay as they are. -/
theorem Described.hasOutput_iff {infos : List (Option TensorInfo)} (h : Described g layer infos g')
    {p : OutputRef} (hp : p.layer ≠ layer) : g'.HasOutput p ↔ g.HasOutput p := by
  rw [Graph.hasOutput_iff, Graph.hasOutput_iff, h.content?]
  simp [hp]

/-- The descriptors of a new layer are set one after another, unless there are more of them than
    slots. -/
theorem Coherent.describeAll_cases (infos done : List TensorInfo) (spare : Nat)
    (hg : g.Coherent) (hc : g.content? layer = some c)
    (hinfos : c.infos = done.map some ++ List.replicate spare none) :
    (∃ g', describeAll layer infos done.length g = .ok g' ∧ infos.length ≤ spare ∧
      Described g layer
        ((done ++ infos).map some ++ List.replicate (spare - infos.length) none) g') ∨
    (spare < infos.length ∧ ∃ e, describeAll layer infos done.length g = .error e) := by
  induction infos generalizing g done c spare with
  | nil =>
    refine .inl ⟨g, rfl, Nat.zero_le _, hg, rfl, fun id => ?_⟩
    split
    · next heq =>
      subst heq
      rw [hc, Option.map_some, List.append_nil, List.length_nil, Nat.sub_zero, ← hinfos]
    · simp
  | cons info infos ih =>
    have hslot : g.HasOutput ⟨layer, done.length⟩ ↔ 0 < spare := by
      rw [hasOutput_iff]
      simp [hc, hinfos]
    -- Without a slot left the next descriptor is refused.
    cases spare with
    | zero =>
      refine .inr ⟨Nat.succ_pos _, exists_describeAll_error fun g₁ hset => ?_⟩
      exact absurd (hslot.mp (setInfo_eq_ok_iff.mp hset).1) (Nat.lt_irrefl 0)
    | succ spare =>
      have hset : g.setInfo ⟨layer, done.length⟩ info =
          .ok (g.describe ⟨layer, done.length⟩ info) :=
        setInfo_eq_ok_iff.mpr ⟨hslot.mpr (Nat.succ_pos spare), rfl⟩
      have hc₁ := content?_describe g ⟨layer, done.length⟩ info layer
      rw [hc, Option.map_some, if_pos rfl] at hc₁
      have hinfos₁ : c.infos.set done.length (some info) =
          (done ++ [info]).map some ++ List.replicate spare none := by
        simp [hinfos, List.replicate_succ]
      have hrest := ih (done ++ [info]) spare (hg.describe ⟨layer, done.length⟩ info) hc₁ hinfos₁
      rw [List.length_append, List.length_singleton] at hrest
      rw [describeAll_of_setInfo hset]
      rcases hrest with ⟨g', hok, hle, hdescribed⟩ | ⟨hlt, e, herror⟩
      · rw [List.append_assoc, List.singleton_append] at hdescribed
        refine .inl ⟨g', hok, Nat.succ_le_succ hle, ?_⟩
        rw [List.length_cons, Nat.add_sub_add_right]
        exact hdescribed.of_describe
      · exact .inr ⟨Nat.succ_lt_succ hlt, e, herror⟩

end Graph

end LayerGraph
