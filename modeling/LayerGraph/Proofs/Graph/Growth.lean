import LayerGraph.Proofs.Graph.Alike

/-! # Graphs that grow at their end

  A draft is a layer with everything that will be said about it: what it reads and what it writes.
  It is appended to a graph by adding its layer, describing it and connecting it, while it is the
  last one (`append`). This works when the draft has the slots of its kind and reads slots that
  are there (`exists_append`), and then its content is all that is new (`append_eq_ok`).

  A graph that is made so is grown. Its connections lead forward, since a draft can read only the
  layers before it. `Extends` says that a grown graph has the contents of another one in front.
-/

namespace LayerGraph

/-! ### Drafts -/

/-- A layer that is to be added, with what it reads and what it writes. -/
structure Draft where
  /-- Name of the layer. -/
  name : String
  /-- Operation of the layer. -/
  kind : LayerKind
  /-- The output slots that its inputs read. -/
  sources : List OutputRef
  /-- Descriptors of its outputs. -/
  infos : List TensorInfo

namespace Draft

/-- What the layer will say. -/
def content (d : Draft) : LayerContent := ⟨d.name, d.kind, d.sources.map some, d.infos.map some⟩

/-- No slot of the kind is left open. -/
structure Covers (d : Draft) : Prop where
  inputs : d.kind.inputCount ≤ d.sources.length
  outputs : d.kind.outputCount ≤ d.infos.length

/-- The draft has the slots of its kind. -/
structure Fits (d : Draft) : Prop where
  inputs : d.kind.inputCount = d.sources.length
  outputs : d.kind.outputCount = d.infos.length

theorem Fits.covers {d : Draft} (h : d.Fits) : d.Covers := ⟨h.inputs.le, h.outputs.le⟩

end Draft

/-- The kind of a layer and those descriptors of its outputs that are known. -/
abbrev LayerProfile := LayerKind × List TensorInfo

/-- The profile of a layer. -/
def LayerContent.profile (c : LayerContent) : LayerProfile := (c.kind, c.infos.filterMap id)

@[simp] theorem Draft.profile_content (d : Draft) : d.content.profile = (d.kind, d.infos) := by
  simp [Draft.content, LayerContent.profile]

/-- The output slot is one of the layers with the given contents. -/
def HasSlot (contents : List LayerContent) (p : OutputRef) : Prop :=
  ∃ c, contents[p.layer]? = some c ∧ p.index < c.infos.length

theorem HasSlot.append {contents : List LayerContent} {p : OutputRef} (h : HasSlot contents p)
    (more : List LayerContent) : HasSlot (contents ++ more) p := by
  obtain ⟨c, hc, hlt⟩ := h
  refine ⟨c, ?_, hlt⟩
  rw [List.getElem?_append_left (List.getElem?_eq_some_iff.mp hc).1, hc]

/-- A draft that is put somewhere has slots there. -/
theorem hasSlot_of_draft {contents : List LayerContent} {drafts : List Draft} {d : Draft}
    {p : OutputRef} {k : Nat} (h : drafts[k]? = some d) (hlayer : p.layer = contents.length + k)
    (hindex : p.index < d.infos.length) : HasSlot (contents ++ drafts.map Draft.content) p := by
  refine ⟨d.content, ?_, by simpa [Draft.content] using hindex⟩
  rw [hlayer, List.getElem?_append_right (Nat.le_add_right _ _), Nat.add_sub_cancel_left,
    List.getElem?_map, h]
  rfl

theorem hasSlot_append_content {contents : List LayerContent} {d : Draft} {p : OutputRef}
    (hlayer : p.layer = contents.length) (hindex : p.index < d.infos.length) :
    HasSlot (contents ++ [d.content]) p :=
  hasSlot_of_draft (k := 0) (d := d) (show [d][0]? = some d from rfl) hlayer hindex

namespace Graph

variable {g g' g₁ g₂ : Graph} {supply supply' supply₁ supply₂ : GuidSupply} {id : LayerId}
variable {gain gain' : List LayerContent} {source p : OutputRef} {target : InputRef} {d : Draft}
variable {drafts : List Draft} {c : LayerContent}

theorem hasOutput_iff_hasSlot : g.HasOutput p ↔ HasSlot g.contents p := by
  rw [hasOutput_iff, HasSlot, getElem?_contents]

/-- The layer of a draft reads the sources of the draft. -/
theorem producer?_of_draft (h : g.content? target.layer = some d.content) :
    g.producer? target = d.sources[target.index]? := by
  rw [producer?_eq_content?, h, Option.map_some, Option.getD_some, Draft.content,
    List.getElem?_map]
  cases d.sources[target.index]? <;> rfl

theorem kind?_of_draft (h : g.content? id = some d.content) : g.kind? id = some d.kind := by
  rw [kind?_eq_content?, h]
  rfl

theorem info?_of_draft (h : g.content? p.layer = some d.content) :
    g.info? p = d.infos[p.index]? := by
  rw [info?_eq_content?, h]
  show ((d.infos.map some)[p.index]?).join = _
  rw [List.getElem?_map]
  cases d.infos[p.index]? <;> rfl

/-! ### Growing -/

/-- A graph that is made layer by layer, producers first. -/
structure Grown (g : Graph) (supply : GuidSupply) : Prop where
  sound : Session.Sound ⟨g, supply⟩
  forward : g.Forward

/-- A grown graph with the contents of `g` and those that were added. -/
structure Extends (g : Graph) (gain : List LayerContent) (g' : Graph) (supply : GuidSupply) :
    Prop where
  grown : Grown g' supply
  contents : g'.contents = g.contents ++ gain

theorem grown_empty (supply : GuidSupply) : Grown .empty supply where
  sound := Session.sound_start supply
  forward := by
    intro a b hfeeds
    have hlt : b < empty.layers.length := hfeeds.lt_right
    exact absurd hlt (Nat.not_lt_zero b)

theorem Grown.extends (h : Grown g supply) : Extends g [] g supply := ⟨h, by simp⟩

theorem Extends.trans (h : Extends g gain g₁ supply₁) (h' : Extends g₁ gain' g₂ supply₂) :
    Extends g (gain ++ gain') g₂ supply₂ where
  grown := h'.grown
  contents := by rw [h'.contents, h.contents, List.append_assoc]

theorem Extends.length (h : Extends g gain g' supply) :
    g'.layers.length = g.layers.length + gain.length := by
  have hlen := congrArg List.length h.contents
  simpa using hlen

/-- The layers there were say what they said. -/
theorem Extends.content?_of_lt (h : Extends g gain g' supply) (hid : id < g.layers.length) :
    g'.content? id = g.content? id := by
  rw [← getElem?_contents, h.contents, List.getElem?_append_left (by simpa using hid),
    getElem?_contents]

theorem Extends.kind?_of_lt (h : Extends g gain g' supply) (hid : id < g.layers.length) :
    g'.kind? id = g.kind? id := by
  rw [kind?_eq_content?, kind?_eq_content?, h.content?_of_lt hid]

theorem Extends.info?_of_lt (h : Extends g gain g' supply) (hp : p.layer < g.layers.length) :
    g'.info? p = g.info? p := by
  rw [info?_eq_content?, info?_eq_content?, h.content?_of_lt hp]

/-- The new layers say what was added. -/
theorem Extends.content?_new (h : Extends g gain g' supply) (k : Nat) :
    g'.content? (g.layers.length + k) = gain[k]? := by
  rw [← getElem?_contents, h.contents, List.getElem?_append_right (by simp), length_contents,
    Nat.add_sub_cancel_left]

/-- The bindings there were are taken, and those of the layers that were added. -/
theorem Extends.mem_bindings_iff (h : Extends g gain g' supply) (hg : g.Coherent)
    {direction : Direction} {b : BindingId} :
    b ∈ g'.bindings direction ↔
      b ∈ g.bindings direction ∨ ∃ c ∈ gain, c.kind = direction.kind b := by
  rw [hg.mem_bindings_iff, h.grown.sound.coherent.mem_bindings_iff]
  constructor
  · rintro ⟨id, hkind⟩
    -- A layer of a binding was there, or it is one that was added.
    by_cases hid : id < g.layers.length
    · rw [h.kind?_of_lt hid] at hkind
      exact .inl ⟨id, hkind⟩
    · obtain ⟨k, rfl⟩ := Nat.exists_eq_add_of_le (Nat.le_of_not_lt hid)
      rw [kind?_eq_content?, h.content?_new] at hkind
      obtain ⟨c, hc, hkind⟩ := Option.map_eq_some_iff.mp hkind
      exact .inr ⟨c, List.mem_of_getElem? hc, hkind⟩
  · rintro (⟨id, hkind⟩ | ⟨c, hc, hkind⟩)
    · have hid : id < g.layers.length := by
        rw [kind?_eq_content?] at hkind
        obtain ⟨c, hc, -⟩ := Option.map_eq_some_iff.mp hkind
        exact lt_of_content? hc
      exact ⟨id, by rw [h.kind?_of_lt hid, hkind]⟩
    · obtain ⟨k, hk⟩ := List.mem_iff_getElem?.mp hc
      refine ⟨g.layers.length + k, ?_⟩
      rw [kind?_eq_content?, h.content?_new, hk, Option.map_some, hkind]

/-- A graph stays complete when drafts are appended, since a draft leaves no slot open. -/
theorem Extends.complete (h : Extends g (drafts.map Draft.content) g' supply) (hg : g.Complete) :
    g'.Complete := by
  intro id c hc
  rcases Nat.lt_or_ge id g.layers.length with hlt | hge
  · rw [h.content?_of_lt hlt] at hc
    exact hg id c hc
  · obtain ⟨k, rfl⟩ := Nat.exists_eq_add_of_le hge
    rw [h.content?_new, List.getElem?_map, Option.map_eq_some_iff] at hc
    obtain ⟨d, -, rfl⟩ := hc
    simp [Draft.content]

/-- A graph that differs by one layer at the end has its content behind the others. -/
theorem contents_eq_append (h : ∀ id, g'.content? id =
    if id = g.layers.length then some c else g.content? id) : g'.contents = g.contents ++ [c] := by
  refine List.ext_getElem? fun id => ?_
  rw [getElem?_contents, h]
  split
  · next heq =>
    rw [heq, List.getElem?_append_right (by simp)]
    simp
  · next hne =>
    rcases Nat.lt_or_gt_of_ne hne with hlt | hgt
    · rw [List.getElem?_append_left (by simpa using hlt), getElem?_contents]
    · rw [content?_eq_none_iff.mpr (Nat.le_of_lt hgt), List.getElem?_eq_none]
      simpa using Nat.succ_le_of_lt hgt

/-! ### Profiles -/

/-- The profiles of the layers. -/
def profile (g : Graph) : List LayerProfile := g.layers.map fun l => l.content.profile

theorem profile_eq_map_contents (g : Graph) : g.profile = g.contents.map LayerContent.profile := by
  rw [profile, contents, List.map_map]
  rfl

theorem mem_profile_iff {p : LayerProfile} :
    p ∈ g.profile ↔ ∃ id c, g.content? id = some c ∧ c.profile = p := by
  rw [profile_eq_map_contents, List.mem_map]
  simp only [List.mem_iff_getElem?, getElem?_contents]
  constructor
  · rintro ⟨c, ⟨id, hc⟩, hp⟩
    exact ⟨id, c, hc, hp⟩
  · rintro ⟨id, c, hc, hp⟩
    exact ⟨c, ⟨id, hc⟩, hp⟩

theorem Extends.profile (h : Extends g gain g' supply) :
    g'.profile = g.profile ++ gain.map LayerContent.profile := by
  rw [profile_eq_map_contents, h.contents, List.map_append, ← profile_eq_map_contents]

/-! ### Appending a layer -/

theorem describeAll_singleton (layer : LayerId) (info : TensorInfo) (g : Graph) :
    describeAll layer [info] 0 g = g.setInfo ⟨layer, 0⟩ info := by
  show g.setInfo ⟨layer, 0⟩ info >>= pure = g.setInfo ⟨layer, 0⟩ info
  rw [bind_pure]

theorem connectAll_singleton (layer : LayerId) (source : OutputRef) (g : Graph) :
    connectAll layer [source] 0 g = g.connect source ⟨layer, 0⟩ := by
  show g.connect source ⟨layer, 0⟩ >>= pure = g.connect source ⟨layer, 0⟩
  rw [bind_pure]

/-- Describes and connects the layer of a draft. -/
def fill (layer : LayerId) (d : Draft) (g : Graph) : Except GraphError Graph :=
  describeAll layer d.infos 0 g >>= connectAll layer d.sources 0

/-- Adds the layer of a draft. -/
def append (g : Graph) (d : Draft) : Build GraphError Graph := do
  let (layer, g) ← g.insert d.kind d.name
  Build.ofExcept (fill layer d g)

theorem append_eq_ok_iff :
    (g.append d).run supply = .ok g' supply' ↔
      ∃ g₁, Added g supply.next d.kind d.name g₁ ∧ supply' = supply.advance ∧
        fill g.layers.length d g₁ = .ok g' := by
  simp only [append, Build.bind_eq_ok_iff, Prod.exists, insert_eq_ok_iff,
    Build.ofExcept_eq_ok_iff]
  constructor
  · rintro ⟨_, g₁, _, ⟨rfl, rfl, hadded⟩, hfill, rfl⟩
    exact ⟨g₁, hadded, rfl, hfill⟩
  · rintro ⟨g₁, hadded, rfl, hfill⟩
    exact ⟨_, g₁, _, ⟨rfl, rfl, hadded⟩, hfill, rfl⟩

/-- A graph extends another one by a layer when it says the same and the content of the layer. -/
theorem Grown.extends_of_content (h : Grown g supply) (hsound : Session.Sound ⟨g', supply'⟩)
    (hsources : ∀ p, some p ∈ c.inputs → g.HasOutput p)
    (hcontent : ∀ id, g'.content? id = if id = g.layers.length then some c else g.content? id) :
    Extends g [c] g' supply' := by
  refine ⟨⟨hsound, fun a b hfeeds => ?_⟩, contents_eq_append hcontent⟩
  rw [feeds_iff_mem_sources, sources_eq_content?, hcontent] at hfeeds
  obtain ⟨p, hp, rfl⟩ := hfeeds
  by_cases hb : b = g.layers.length
  · subst hb
    rw [if_pos rfl] at hp
    exact (hsources p hp).lt
  · rw [if_neg hb, ← sources_eq_content?] at hp
    exact h.forward p.layer b (feeds_iff_mem_sources.mpr ⟨p, hp, rfl⟩)

/-- The new layer can be filled in exactly when it has the slots of its kind and what it reads is
    there. -/
theorem Grown.fill_cases (h : Grown g supply) (hcovers : d.Covers)
    (hadded : Added g supply.next d.kind d.name g₁) :
    (∃ g', fill g.layers.length d g₁ = .ok g' ∧ d.Fits ∧ (∀ p ∈ d.sources, g.HasOutput p) ∧
      Extends g [d.content] g' supply.advance) ∨
    (¬ (d.Fits ∧ ∀ p ∈ d.sources, g.HasOutput p) ∧
      ∃ e, fill g.layers.length d g₁ = .error e) := by
  have hsound : Session.Sound ⟨g₁, supply.advance⟩ := h.sound.added hadded
  have hc₁ := hadded.content? g.layers.length
  rw [if_pos rfl] at hc₁
  rcases hsound.coherent.describeAll_cases d.infos [] d.kind.outputCount hc₁ (by simp) with
    ⟨g₂, hdescribe, hinfos, hdescribed⟩ | ⟨hlt, e, herror⟩
  · have houtputs : d.kind.outputCount = d.infos.length := Nat.le_antisymm hcovers.outputs hinfos
    have hdescribe : describeAll g.layers.length d.infos 0 g₁ = .ok g₂ := hdescribe
    have hfill : fill g.layers.length d g₁ = connectAll g.layers.length d.sources 0 g₂ := by
      rw [fill, hdescribe]
      rfl
    have hc₂ := hdescribed.content? g.layers.length
    rw [hc₁, Option.map_some, if_pos rfl] at hc₂
    have hnew (b : LayerId) : ¬ g₂.Feeds g.layers.length b := by
      rw [hdescribed.feeds_iff]
      exact hadded.not_feeds h.sound.coherent b
    -- What may be read are the slots of the layers there were.
    have hreadable (p : OutputRef) :
        g₂.HasOutput p ∧ p.layer ≠ g.layers.length ↔ g.HasOutput p := by
      rw [← hadded.readable_iff]
      exact and_congr_left fun hp => hdescribed.hasOutput_iff hp
    rcases hdescribed.coherent.connectAll_cases d.sources [] d.kind.inputCount hnew hc₂
      (by simp) with
      ⟨g', hconnect, hle, hgood, hwired⟩ | ⟨hbad, e, herror⟩
    · have hinputs : d.kind.inputCount = d.sources.length := Nat.le_antisymm hcovers.inputs hle
      have hsources (p : OutputRef) (hp : p ∈ d.sources) : g.HasOutput p :=
        (hreadable p).mp (hgood p hp)
      have hcontent (id : LayerId) : g'.content? id =
          if id = g.layers.length then some d.content else g.content? id := by
        rw [hwired.content?, hdescribed.content?, hadded.content?]
        by_cases hid : id = g.layers.length
        · simp [hid, Draft.content, hinputs, houtputs]
        · simp [hid]
      have hspent (id : LayerId) (guid : LayerGuid) (hguid : g'.guid? id = some guid) :
          guid.number < supply.advance.next.number := by
        rw [hwired.guid?, hdescribed.guid?] at hguid
        exact hsound.spent id guid hguid
      have hextends := h.extends_of_content ⟨hwired.coherent, hspent⟩
        (fun p hp => hsources p (by simpa [Draft.content] using hp)) hcontent
      exact .inl ⟨g', hfill.trans hconnect, ⟨hinputs, houtputs⟩, hsources, hextends⟩
    · refine .inr ⟨?_, e, hfill.trans herror⟩
      rintro ⟨hfits, hall⟩
      rcases hbad with hlt | ⟨p, hp, hnot⟩
      · exact absurd hfits.inputs (Nat.ne_of_lt hlt)
      · exact hnot ((hreadable p).mpr (hall p hp))
  · refine .inr ⟨fun hfits => absurd hfits.1.outputs (Nat.ne_of_lt hlt), e, ?_⟩
    have herror : describeAll g.layers.length d.infos 0 g₁ = .error e := herror
    rw [fill, herror]
    rfl

/-- When a draft is appended, its content is all that is new. -/
theorem Grown.append_eq_ok (h : Grown g supply) (hcovers : d.Covers)
    (hrun : (g.append d).run supply = .ok g' supply') :
    d.Fits ∧ (∀ p ∈ d.sources, g.HasOutput p) ∧ Extends g [d.content] g' supply' := by
  obtain ⟨g₁, hadded, rfl, hfill⟩ := append_eq_ok_iff.mp hrun
  rcases h.fill_cases hcovers hadded with ⟨g'', hok, hfits, hsources, hextends⟩ | ⟨-, e, herror⟩
  · rw [hfill] at hok
    cases hok
    exact ⟨hfits, hsources, hextends⟩
  · rw [hfill] at herror
    cases herror

/-- A draft is appended when it has the slots of its kind, reads what is there and is no boundary
    layer. -/
theorem Grown.exists_append (h : Grown g supply) (hfits : d.Fits) (hkind : d.kind.binding? = none)
    (hsources : ∀ p ∈ d.sources, g.HasOutput p) :
    ∃ g' supply', (g.append d).run supply = .ok g' supply' := by
  have hbinding (direction : Direction) (b : BindingId) (hb : d.kind = direction.kind b) :
      b ∉ g.bindings direction := by
    rw [hb, binding?_directionKind] at hkind
    cases hkind
  obtain ⟨g₁, hadded⟩ := g.exists_added supply.next d.name hbinding
  rcases h.fill_cases hfits.covers hadded with ⟨g', hok, -⟩ | ⟨hbad, -⟩
  · exact ⟨g', supply.advance, append_eq_ok_iff.mpr ⟨g₁, hadded, rfl, hok⟩⟩
  · exact absurd ⟨hfits, hsources⟩ hbad

/-! ### Appending layers one after another -/

/-- Appends drafts in their order. -/
def appendAll (g : Graph) (drafts : List Draft) : Build GraphError Graph := drafts.foldlM append g

theorem length_append (hrun : (g.append d).run supply = .ok g' supply') :
    g'.layers.length = g.layers.length + 1 := by
  obtain ⟨g₁, hadded, -, hfill⟩ := append_eq_ok_iff.mp hrun
  obtain ⟨g₂, hdescribe, hconnect⟩ := Except.bind_eq_ok_iff.mp hfill
  have hdescribed : g₂.layers.length = g₁.layers.length := by
    refine
      Except.foldlM_invariant (P := fun g => g.layers.length = g₁.layers.length) ?_ rfl hdescribe
    intro a _ b b' hb hset
    obtain ⟨-, rfl⟩ := setInfo_eq_ok_iff.mp hset
    rw [length_describe, hb]
  have hconnected : g'.layers.length = g₂.layers.length := by
    refine
      Except.foldlM_invariant (P := fun g => g.layers.length = g₂.layers.length) ?_ rfl hconnect
    intro a _ b b' hb hlink
    obtain ⟨-, -, -, -, rfl⟩ := connect_eq_ok_iff.mp hlink
    rw [length_link, hb]
  rw [hconnected, hdescribed, hadded.length]

theorem length_appendAll (hrun : (g.appendAll drafts).run supply = .ok g' supply') :
    g'.layers.length = g.layers.length + drafts.length := by
  refine Build.foldlM_prefix
    (P := fun done g' _ => g'.layers.length = g.layers.length + done.length) ?_ rfl hrun
  intro done d _ g₁ t g₂ t' hlength hstep
  rw [length_append hstep, hlength, List.length_append, List.length_singleton, Nat.add_assoc]

theorem appendAll_append_eq_ok_iff {drafts' : List Draft} :
    (g.appendAll (drafts ++ drafts')).run supply = .ok g' supply' ↔
      ∃ g₁ t, (g.appendAll drafts).run supply = .ok g₁ t ∧
        (g₁.appendAll drafts').run t = .ok g' supply' := by
  simp only [appendAll, List.foldlM_append, Build.bind_eq_ok_iff]

theorem appendAll_cons_eq_ok_iff :
    (g.appendAll (d :: drafts)).run supply = .ok g' supply' ↔
      ∃ g₁ t, (g.append d).run supply = .ok g₁ t ∧
        (g₁.appendAll drafts).run t = .ok g' supply' := by
  simp only [appendAll, List.foldlM_cons, Build.bind_eq_ok_iff]

theorem Grown.appendAll_eq_ok (h : Grown g supply) (hcovers : ∀ d ∈ drafts, d.Covers)
    (hrun : (g.appendAll drafts).run supply = .ok g' supply') :
    (∀ d ∈ drafts, d.Fits) ∧ Extends g (drafts.map Draft.content) g' supply' := by
  refine Build.foldlM_prefix
    (P := fun done g' t => (∀ d ∈ done, d.Fits) ∧ Extends g (done.map Draft.content) g' t)
    ?_ ⟨by simp, h.extends⟩ hrun
  rintro done d hd g₁ t g₂ t' ⟨hfits, hextends⟩ hstep
  obtain ⟨hfit, -, hextends'⟩ := hextends.grown.append_eq_ok (hcovers d hd) hstep
  refine ⟨List.forall_mem_append.mpr ⟨hfits, List.forall_mem_singleton.mpr hfit⟩, ?_⟩
  rw [List.map_append, List.map_singleton]
  exact hextends.trans hextends'

/-- Every draft reads slots of the layers with the given contents, or of the drafts before it. -/
def Supplied : List LayerContent → List Draft → Prop
  | _, [] => True
  | contents, d :: drafts =>
    (∀ p ∈ d.sources, HasSlot contents p) ∧ Supplied (contents ++ [d.content]) drafts

theorem supplied_append_iff {contents : List LayerContent} {drafts' : List Draft} :
    Supplied contents (drafts ++ drafts') ↔
      Supplied contents drafts ∧ Supplied (contents ++ drafts.map Draft.content) drafts' := by
  induction drafts generalizing contents with
  | nil => simp [Supplied]
  | cons d drafts ih =>
    simp only [List.cons_append, Supplied, ih, and_assoc, List.map_cons, List.append_assoc,
      List.nil_append]

/-- Drafts that read only what is there are supplied. -/
theorem supplied_of_hasSlot {contents : List LayerContent}
    (h : ∀ d ∈ drafts, ∀ p ∈ d.sources, HasSlot contents p) : Supplied contents drafts := by
  induction drafts generalizing contents with
  | nil => exact trivial
  | cons d drafts ih =>
    obtain ⟨hd, hdrafts⟩ := List.forall_mem_cons.mp h
    exact ⟨hd, ih fun d' hd' p hp => (hdrafts d' hd' p hp).append _⟩

/-- Drafts are appended when they fit and read what is there by then. -/
theorem Grown.exists_appendAll (h : Grown g supply) (hfits : ∀ d ∈ drafts, d.Fits)
    (hkinds : ∀ d ∈ drafts, d.kind.binding? = none) (hsupplied : Supplied g.contents drafts) :
    ∃ g' supply', (g.appendAll drafts).run supply = .ok g' supply' := by
  induction drafts generalizing g supply with
  | nil => exact ⟨g, supply, rfl⟩
  | cons d drafts ih =>
    obtain ⟨hfit, hfits⟩ := List.forall_mem_cons.mp hfits
    obtain ⟨hkind, hkinds⟩ := List.forall_mem_cons.mp hkinds
    obtain ⟨hsources, hsupplied⟩ := hsupplied
    obtain ⟨g₁, t, happend⟩ :=
      h.exists_append hfit hkind fun p hp => hasOutput_iff_hasSlot.mpr (hsources p hp)
    obtain ⟨-, -, hextends⟩ := h.append_eq_ok hfit.covers happend
    rw [← hextends.contents] at hsupplied
    obtain ⟨g', supply', hrun⟩ := ih hextends.grown hfits hkinds hsupplied
    refine ⟨g', supply', ?_⟩
    rw [appendAll, List.foldlM_cons]
    exact Build.bind_eq_ok_iff.mpr ⟨g₁, t, happend, hrun⟩

end Graph

end LayerGraph
