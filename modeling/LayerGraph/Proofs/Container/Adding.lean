import LayerGraph.Container.Reader
import LayerGraph.Proofs.Container.Kinds
import LayerGraph.Proofs.Graph.Contents

/-! # Adding the layer of a record

  The layer of a record is added with all its connections and descriptors. Main statements: this
  works when what the record reads is there and its binding is not taken (`exists_addRecord`), and
  then the layer is all that is new (`addRecord_eq_ok`).
-/

namespace LayerGraph

namespace Container

open LayerGraph.Graph

variable {g g' : Graph} {r : LayerRecord} {supply supply' : GuidSupply} {id : LayerId}

/-- What a record says of its layer. -/
def LayerRecord.content (r : LayerRecord) : LayerContent :=
  ⟨r.name, r.kind, r.inputs.map some, r.outputs.map some⟩

/-- The record has the slots of its kind. -/
def LayerRecord.HasSlots (r : LayerRecord) : Prop :=
  r.kind.inputCount = r.inputs.length ∧ r.kind.outputCount = r.outputs.length

/-- `g'` is `g` with the layer of the record behind the others. -/
structure Recorded (g : Graph) (r : LayerRecord) (g' : Graph) : Prop where
  length : g'.layers.length = g.layers.length + 1
  content? : ∀ id, g'.content? id =
    if id = g.layers.length then some r.content else g.content? id
  inputs_exist : ∀ p ∈ r.inputs, g.HasOutput p

/-- Connects and describes a new layer. -/
def fillIn (layer : LayerId) (r : LayerRecord) (g : Graph) : Except GraphError Graph :=
  connectAll layer r.inputs 0 g >>= describeAll layer r.outputs 0

theorem addRecord_eq_ok_iff :
    (addRecord g r).run supply = .ok (id, g') supply' ↔
      ∃ g₁, Added g supply.next r.kind r.name g₁ ∧ id = g.layers.length ∧
        supply' = supply.advance ∧ fillIn g.layers.length r g₁ = .ok g' := by
  simp only [addRecord, Build.foldlM_ofExcept, Build.bind_eq_ok_iff, Prod.exists, insert_eq_ok_iff,
    Build.ofExcept_eq_ok_iff, Build.pure_eq_ok_iff, fillIn, Except.bind_eq_ok_iff]
  constructor
  · rintro ⟨_, g₁, _, ⟨rfl, rfl, hadded⟩, g₂, _, ⟨hconnect, rfl⟩, g₃, _, ⟨hdescribe, rfl⟩, heq, rfl⟩
    cases heq
    exact ⟨g₁, hadded, rfl, rfl, g₂, hconnect, hdescribe⟩
  · rintro ⟨g₁, hadded, rfl, rfl, g₂, hconnect, hdescribe⟩
    exact ⟨_, g₁, _, ⟨rfl, rfl, hadded⟩, g₂, _, ⟨hconnect, rfl⟩, g', _, ⟨hdescribe, rfl⟩, rfl, rfl⟩

/-- A new layer can be filled in exactly when what it reads is there. -/
theorem fillIn_cases {g₁ : Graph} (hs : Session.Sound ⟨g, supply⟩) (hslots : r.HasSlots)
    (hadded : Added g supply.next r.kind r.name g₁) :
    (∃ g', fillIn g.layers.length r g₁ = .ok g' ∧ Recorded g r g' ∧
      Session.Sound ⟨g', supply.advance⟩) ∨
    ((∃ p ∈ r.inputs, ¬ g.HasOutput p) ∧ ∃ e, fillIn g.layers.length r g₁ = .error e) := by
  have hs₁ : Session.Sound ⟨g₁, supply.advance⟩ := hs.added hadded
  have hc₁ := hadded.content? g.layers.length
  rw [if_pos rfl] at hc₁
  -- Nothing reads the new layer yet, so none of its connections closes a cycle.
  have hnew : ∀ b, ¬ g₁.Feeds g.layers.length b := hadded.not_feeds hs.coherent
  rcases hs₁.coherent.connectAll_cases r.inputs [] r.inputs.length hnew hc₁
    (by simp [hslots.1]) with
    ⟨g₂, hconnect, -, hgood, hwired⟩ | ⟨hlt | ⟨p, hp, hbad⟩, e, herror⟩
  · rw [Nat.sub_self, List.replicate_zero, List.append_nil] at hwired
    have hc₂ := hwired.content? g.layers.length
    rw [hc₁, Option.map_some, if_pos rfl] at hc₂
    have hdescribe_cases := hwired.coherent.describeAll_cases r.outputs [] r.outputs.length hc₂
      (by simp [hslots.2])
    -- There is a slot for each descriptor, so describing cannot fail.
    obtain ⟨g₃, hdescribe, -, hdescribed⟩ :=
      hdescribe_cases.resolve_right fun h => absurd h.1 (Nat.lt_irrefl _)
    rw [Nat.sub_self, List.replicate_zero, List.append_nil] at hdescribed
    have hcontent (id : LayerId) : g₃.content? id =
        if id = g.layers.length then some r.content else g.content? id := by
      rw [hdescribed.content?, hwired.content?, hadded.content?]
      by_cases hid : id = g.layers.length
      · simp [hid, LayerRecord.content]
      · simp [hid]
    refine .inl ⟨g₃, Except.bind_eq_ok_iff.mpr ⟨g₂, hconnect, hdescribe⟩, ⟨?_, hcontent, ?_⟩, ?_⟩
    · refine length_eq_of_content? fun id => ?_
      rw [hcontent]
      split
      · next hid => simp [hid]
      · next hid =>
        rw [content?_eq_none_iff]
        lia
    · exact fun p hp => hadded.readable_iff.mp (hgood p hp)
    · refine ⟨hdescribed.coherent, fun id guid hguid => hs₁.spent id guid ?_⟩
      rw [← hwired.guid?, ← hdescribed.guid?]
      exact hguid
  · exact absurd hlt (Nat.lt_irrefl _)
  · refine .inr ⟨⟨p, hp, fun h => hbad (hadded.readable_iff.mpr h)⟩, e, ?_⟩
    have herror : connectAll g.layers.length r.inputs 0 g₁ = .error e := herror
    rw [fillIn, herror]
    rfl

/-- When the layer of a record is added, it is all that is new. -/
theorem addRecord_eq_ok (hs : Session.Sound ⟨g, supply⟩) (hslots : r.HasSlots)
    (h : (addRecord g r).run supply = .ok (id, g') supply') :
    id = g.layers.length ∧ Recorded g r g' ∧ Session.Sound ⟨g', supply'⟩ := by
  obtain ⟨g₁, hadded, rfl, rfl, hfill⟩ := addRecord_eq_ok_iff.mp h
  rcases fillIn_cases hs hslots hadded with ⟨g'', hok, hrecorded, hsound⟩ | ⟨-, e, herror⟩
  · rw [hfill] at hok
    cases hok
    exact ⟨rfl, hrecorded, hsound⟩
  · rw [hfill] at herror
    cases herror

/-- The layer of a record is added when what it reads is there and its binding is not taken. -/
theorem exists_addRecord (hs : Session.Sound ⟨g, supply⟩) (hslots : r.HasSlots)
    (hinputs : ∀ p ∈ r.inputs, g.HasOutput p)
    (hbinding : ∀ direction b, r.kind = direction.kind b → b ∉ g.bindings direction) :
    ∃ g' supply', (addRecord g r).run supply = .ok (g.layers.length, g') supply' := by
  obtain ⟨g₁, hadded⟩ := g.exists_added supply.next r.name hbinding
  rcases fillIn_cases hs hslots hadded with ⟨g', hok, -, -⟩ | ⟨⟨p, hp, hnot⟩, -⟩
  · exact ⟨g', supply.advance, addRecord_eq_ok_iff.mpr ⟨g₁, hadded, rfl, rfl, hok⟩⟩
  · exact absurd (hinputs p hp) hnot

end Container

end LayerGraph
