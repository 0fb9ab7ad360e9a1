import LayerGraph.Proofs.Graph.Growth

/-! # Layers that are connected first

  A layer may also be connected as soon as it is added, and described later. Between the two its
  output slots are open (`Grown.exists_connected`), and every descriptor that is set fills one of
  them (`Continues.exists_setInfo`). The layers there were keep their identities as well as their
  contents (`Continues`).
-/

namespace LayerGraph

namespace Graph

variable {g g' g₁ g₂ : Graph} {supply supply₁ supply₂ : GuidSupply} {id : LayerId}
variable {gain gain' : List LayerContent} {c : LayerContent} {kind : LayerKind}
variable {sources : List OutputRef}

/-- A grown graph with the layers of `g`, under the same identities, and what was added. -/
structure Continues (g : Graph) (gain : List LayerContent) (g' : Graph) (supply : GuidSupply) : Prop
    extends Extends g gain g' supply where
  guid? : ∀ id < g.layers.length, g'.guid? id = g.guid? id

theorem Continues.trans (h : Continues g gain g₁ supply₁) (h' : Continues g₁ gain' g₂ supply₂) :
    Continues g (gain ++ gain') g₂ supply₂ where
  toExtends := h.toExtends.trans h'.toExtends
  guid? := by
    intro id hid
    have hid₁ : id < g₁.layers.length := by
      have hlength := h.length
      omega
    rw [h'.guid? id hid₁, h.guid? id hid]

/-- The layers there were are found by their identities. -/
theorem Continues.findGuid? {guid : LayerGuid} (h : Continues g gain g' supply) (hg : g.Coherent)
    (hfind : g.findGuid? guid = some id) : g'.findGuid? guid = some id := by
  have hguid : g.guid? id = some guid := (hg.guids guid id).mp hfind
  have hid : id < g.layers.length := by
    obtain ⟨l, hl, -⟩ := Option.map_eq_some_iff.mp hguid
    exact (List.getElem?_eq_some_iff.mp hl).1
  apply (h.grown.sound.coherent.guids guid id).mpr
  rw [h.guid? id hid]
  exact hguid

/-- A layer whose binding is not taken is added and connected to slots that are there. What its
    outputs are is said later. -/
theorem Grown.exists_connected {supply : GuidSupply} (h : Grown g supply) (name : String)
    (hinputs : kind.inputCount = sources.length)
    (hbinding : ∀ direction b, kind = direction.kind b → b ∉ g.bindings direction)
    (hsources : ∀ p ∈ sources, g.HasOutput p) :
    ∃ g₁ g', (g.insert kind name).run supply = .ok (g.layers.length, g₁) supply.advance ∧
      connectAll g.layers.length sources 0 g₁ = .ok g' ∧
      Continues g [⟨name, kind, sources.map some, List.replicate kind.outputCount none⟩] g'
        supply.advance := by
  obtain ⟨g₁, hadded⟩ := g.exists_added supply.next name hbinding
  have hsound : Session.Sound ⟨g₁, supply.advance⟩ := h.sound.added hadded
  have hc₁ := hadded.content? g.layers.length
  rw [if_pos rfl] at hc₁
  have hnew (b : LayerId) : ¬ g₁.Feeds g.layers.length b := hadded.not_feeds h.sound.coherent b
  refine ⟨g₁, ?_⟩
  -- Nothing reads the new layer, so connecting it cannot close a cycle.
  rcases hsound.coherent.connectAll_cases sources [] kind.inputCount hnew hc₁ (by simp) with
    ⟨g', hconnect, -, -, hwired⟩ | ⟨hbad, -⟩
  · have hcontent (id : LayerId) : g'.content? id =
        if id = g.layers.length then
          some ⟨name, kind, sources.map some, List.replicate kind.outputCount none⟩
        else g.content? id := by
      rw [hwired.content?, hadded.content?]
      by_cases hid : id = g.layers.length
      · simp [hid, hinputs]
      · simp [hid]
    have hspent (id : LayerId) (guid : LayerGuid) (hguid : g'.guid? id = some guid) :
        guid.number < supply.advance.next.number := by
      rw [hwired.guid?] at hguid
      exact hsound.spent id guid hguid
    refine ⟨g', insert_eq_ok_iff.mpr ⟨rfl, rfl, hadded⟩, hconnect, ?_, ?_⟩
    · exact h.extends_of_content ⟨hwired.coherent, hspent⟩
        (fun p hp => hsources p (by simpa using hp)) hcontent
    · intro id hid
      rw [hwired.guid?, hadded.guid?, if_neg (Nat.ne_of_lt hid)]
  · -- There are as many sources as free slots, and all of them can be read.
    exfalso
    rcases hbad with hlt | ⟨p, hp, hnot⟩
    · omega
    · exact hnot (hadded.readable_iff.mpr (hsources p hp))

/-- The last layer can be read. -/
theorem Continues.hasOutput_new (h : Continues g [c] g₁ supply) {index : Nat}
    (hindex : index < c.infos.length) : g₁.HasOutput ⟨g.layers.length, index⟩ :=
  hasOutput_iff.mpr ⟨c, h.content?_new 0, hindex⟩

/-- The output slots of the last layer can be described. -/
theorem Continues.exists_setInfo (h : Continues g [c] g₁ supply) {index : Nat}
    (hindex : index < c.infos.length) (info : TensorInfo) :
    ∃ g', g₁.setInfo ⟨g.layers.length, index⟩ info = .ok g' ∧
      Continues g [{ c with infos := c.infos.set index (some info) }] g' supply := by
  have hnew : g₁.content? g.layers.length = some c := h.content?_new 0
  refine ⟨_, setInfo_eq_ok_iff.mpr ⟨h.hasOutput_new hindex, rfl⟩, ⟨⟨⟨?_, ?_⟩, ?_⟩, ?_⟩⟩
  · exact h.grown.sound.step (.described ⟨g.layers.length, index⟩ info)
  · intro a b hfeeds
    exact h.grown.forward a b (feeds_describe.mp hfeeds)
  · apply contents_eq_append
    intro id
    rw [content?_describe]
    -- Of all layers only the last one is changed.
    by_cases hid : id = g.layers.length
    · simp [hid, hnew]
    · rw [if_neg hid]
      simp only [if_neg hid, Option.map_id']
      rcases Nat.lt_or_gt_of_ne hid with hlt | hgt
      · exact h.content?_of_lt hlt
      · have hlength : g₁.layers.length = g.layers.length + 1 := h.length
        rw [content?_eq_none_iff.mpr (Nat.le_of_lt hgt), content?_eq_none_iff.mpr (by omega)]
  · intro id hid
    rw [guid?_describe]
    exact h.guid? id hid

end Graph

end LayerGraph
