import LayerGraph.Proofs.Graph.Growth

/-! # Graphs up to the identities of their layers

  No two layers share an identity, so graphs that are made in the same way in two places still
  differ in the identities. Nothing else differs: a change looks at positions, slots and bindings,
  and never at an identity. So two graphs that are the same without identities (`anonymous`) are
  changed by the same calls, to graphs that are again the same (`blind_connect`, `blind_setInfo`,
  `exists_added_of_anonymous`).
-/

namespace LayerGraph

/-- The layer without its identity. No supply gives the number 0. -/
def Layer.anonymous (l : Layer) : Layer := { l with guid := ⟨0⟩ }

namespace Graph

/-- The graph without the identities of its layers. -/
def anonymous (g : Graph) : Graph where
  layers := g.layers.map Layer.anonymous
  guids := .empty
  inputs := g.inputs
  outputs := g.outputs

variable {g g' h : Graph} {id : LayerId} {guid guid' : LayerGuid} {kind : LayerKind}
variable {name : String} {source : OutputRef} {target : InputRef} {info : TensorInfo}
variable {direction : Direction}

/-! ### Reading without identities -/

theorem getElem?_anonymous (g : Graph) (id : LayerId) :
    g.anonymous.layers[id]? = g.layers[id]?.map Layer.anonymous := List.getElem?_map

@[simp] theorem length_anonymous (g : Graph) : g.anonymous.layers.length = g.layers.length :=
  List.length_map _

@[simp] theorem boundary_anonymous (g : Graph) (direction : Direction) :
    g.anonymous.boundary direction = g.boundary direction := by
  cases direction <;> rfl

@[simp] theorem kind?_anonymous (g : Graph) (id : LayerId) : g.anonymous.kind? id = g.kind? id := by
  rw [kind?, getElem?_anonymous, kind?]
  cases g.layers[id]? <;> rfl

@[simp] theorem binding?_anonymous (g : Graph) : g.anonymous.binding? = g.binding? := by
  funext id
  rw [binding?_eq_bind_kind?, binding?_eq_bind_kind?, kind?_anonymous]

@[simp] theorem bindings_anonymous (g : Graph) (direction : Direction) :
    g.anonymous.bindings direction = g.bindings direction := by
  rw [bindings, bindings, boundary_anonymous, binding?_anonymous]

@[simp] theorem findBinding?_anonymous (g : Graph) (direction : Direction) (b : BindingId) :
    g.anonymous.findBinding? direction b = g.findBinding? direction b := by
  rw [findBinding?, findBinding?, boundary_anonymous, binding?_anonymous]

@[simp] theorem arrangement_anonymous (g : Graph) (direction : Direction)
    (order : List BindingId) : g.anonymous.arrangement direction order =
      g.arrangement direction order := by
  simp only [arrangement, findBinding?_anonymous, boundary_anonymous, binding?_anonymous]

@[simp] theorem content?_anonymous (g : Graph) (id : LayerId) :
    g.anonymous.content? id = g.content? id := by
  rw [content?, getElem?_anonymous, content?]
  cases g.layers[id]? <;> rfl

@[simp] theorem producer?_anonymous (g : Graph) (slot : InputRef) :
    g.anonymous.producer? slot = g.producer? slot := by
  rw [producer?_eq_content?, producer?_eq_content?, content?_anonymous]

theorem hasOutput_anonymous : g.anonymous.HasOutput source ↔ g.HasOutput source := by
  rw [hasOutput_iff, hasOutput_iff, content?_anonymous]

theorem hasInput_anonymous : g.anonymous.HasInput target ↔ g.HasInput target := by
  rw [hasInput_iff, hasInput_iff, content?_anonymous]

@[simp] theorem successors_anonymous (g : Graph) : g.anonymous.successors = g.successors := by
  funext id
  rw [successors, getElem?_anonymous, successors]
  cases g.layers[id]? <;> rfl

@[simp] theorem spread_anonymous (g : Graph) (steps : Nat) (seen : List LayerId) :
    g.anonymous.spread steps seen = g.spread steps seen := by
  induction steps generalizing seen with
  | zero => rfl
  | succ steps ih => simp only [spread, successors_anonymous, ih]

@[simp] theorem reaches_anonymous (g : Graph) (start target : LayerId) :
    g.anonymous.reaches start target = g.reaches start target := by
  rw [reaches, spread_anonymous, length_anonymous, reaches]

/-! ### Changing without identities -/

theorem anonymous_link (g : Graph) (source : OutputRef) (target : InputRef) :
    (g.link source target).anonymous = g.anonymous.link source target := by
  have hlayers : (g.link source target).anonymous.layers =
      (g.anonymous.link source target).layers := by
    refine List.ext_getElem? fun id => ?_
    rw [getElem?_anonymous, getElem?_link, getElem?_link, getElem?_anonymous, Option.map_map,
      Option.map_map]
    rfl
  show (⟨_, _, _, _⟩ : Graph) = _
  rw [show (g.link source target).layers.map Layer.anonymous = _ from hlayers]
  rfl

theorem anonymous_describe (g : Graph) (slot : OutputRef) (info : TensorInfo) :
    (g.describe slot info).anonymous = g.anonymous.describe slot info := by
  have hlayers : (g.describe slot info).anonymous.layers =
      (g.anonymous.describe slot info).layers := by
    refine List.ext_getElem? fun id => ?_
    rw [getElem?_anonymous, getElem?_describe, getElem?_describe, getElem?_anonymous,
      Option.map_map, Option.map_map]
    rfl
  show (⟨_, _, _, _⟩ : Graph) = _
  rw [show (g.describe slot info).layers.map Layer.anonymous = _ from hlayers]
  rfl

theorem Added.anonymous (hadded : Added g guid kind name g') :
    g'.anonymous =
      { layers := g.anonymous.layers ++ [Layer.new ⟨0⟩ kind name]
        guids := .empty
        inputs := g.anonymous.inputs ++ boundaryGain .input kind g.anonymous.layers.length
        outputs :=
          g.anonymous.outputs ++ boundaryGain .output kind g.anonymous.layers.length } := by
  have hlayers : g'.layers.map Layer.anonymous =
      g.layers.map Layer.anonymous ++ [Layer.new ⟨0⟩ kind name] := by
    rw [hadded.layers, List.map_append, List.map_singleton]
    rfl
  have hinputs : g'.inputs = g.inputs ++ boundaryGain .input kind g.layers.length :=
    hadded.boundary .input
  have houtputs : g'.outputs = g.outputs ++ boundaryGain .output kind g.layers.length :=
    hadded.boundary .output
  rw [length_anonymous, Graph.anonymous, hlayers, hinputs, houtputs]
  rfl

/-- A layer can be added to every graph that is the same without identities, with any identity. -/
theorem exists_added_of_anonymous (hsame : g.anonymous = g'.anonymous)
    (hadded : Added g guid kind name h) (guid' : LayerGuid) :
    ∃ h', Added g' guid' kind name h' ∧ h.anonymous = h'.anonymous := by
  have hfresh (direction : Direction) (b : BindingId) (hkind : kind = direction.kind b) :
      b ∉ g'.bindings direction := by
    rw [← bindings_anonymous, ← hsame, bindings_anonymous]
    intro hb
    obtain ⟨id, hid, hbinding⟩ := List.mem_filterMap.mp hb
    exact hadded.fresh direction b hkind id hid hbinding
  obtain ⟨h', hadded'⟩ := g'.exists_added guid' name hfresh
  exact ⟨h', hadded', by rw [hadded.anonymous, hadded'.anonymous, hsame]⟩

/-- A layer is refused for its binding, which is that of another layer of its side. -/
theorem insert_eq_error {supply supply' : GuidSupply} {e : GraphError}
    (hrun : (g.insert kind name).run supply = .error e supply') :
    ∃ direction b, kind = direction.kind b ∧ e = .duplicateBinding direction b := by
  simp only [insert, EStateM.run] at hrun
  split at hrun
  · cases hrun
  · next e' herror =>
    cases hrun
    unfold addLayer at herror
    split at herror
    · next b =>
      split at herror <;> cases herror
      exact ⟨.input, b, rfl, rfl⟩
    · next b =>
      split at herror <;> cases herror
      exact ⟨.output, b, rfl, rfl⟩
    · cases herror

/-- A layer is added to both of two graphs that are the same without identities, or refused by
    both for its binding. -/
theorem lockstep_insert (hsame : g.anonymous = g'.anonymous) (kind : LayerKind) (name : String)
    (supply fresh : GuidSupply) :
    Build.Lockstep Eq
      (fun p _ p' _ => Added g supply.next kind name p.2 ∧ p.1 = g.layers.length ∧ p'.1 = p.1 ∧
        p.2.anonymous = p'.2.anonymous)
      ((g.insert kind name).run supply) ((g'.insert kind name).run fresh) := by
  cases hrun : (g.insert kind name).run supply with
  | ok p supply' =>
    obtain ⟨hplace, -, hadded⟩ := insert_eq_ok_iff.mp hrun
    obtain ⟨h', hadded', hsame'⟩ := exists_added_of_anonymous hsame hadded fresh.next
    have hplace' : p.1 = g'.layers.length := by
      rw [hplace, ← length_anonymous g, hsame, length_anonymous]
    have hrun' : (g'.insert kind name).run fresh = .ok (p.1, h') fresh.advance :=
      insert_eq_ok_iff.mpr ⟨hplace', rfl, hadded'⟩
    rw [hrun']
    exact .ok ⟨hadded, hplace, rfl, hsame'⟩
  | error e supply' =>
    obtain ⟨direction, b, hkind, rfl⟩ := insert_eq_error hrun
    cases hrun' : (g'.insert kind name).run fresh with
    | ok p' fresh' =>
      -- The binding is free in both graphs or in none.
      obtain ⟨-, -, hadded'⟩ := insert_eq_ok_iff.mp hrun'
      obtain ⟨h, hadded, -⟩ := exists_added_of_anonymous hsame.symm hadded' supply.next
      rw [insert_eq_ok_iff.mpr ⟨rfl, rfl, hadded⟩] at hrun
      cases hrun
    | error e' fresh' =>
      obtain ⟨direction', b', hkind', rfl⟩ := insert_eq_error hrun'
      rw [hkind] at hkind'
      have hequal : direction = direction' ∧ b = b' := by
        cases direction <;> cases direction' <;> simp_all [Direction.kind]
      obtain ⟨rfl, rfl⟩ := hequal
      exact .error rfl

/-- The change does to every graph that is the same without identities what it does to one. -/
def Blind (change : Graph → Except GraphError Graph) : Prop :=
  ∀ g g' h, g.anonymous = g'.anonymous → change g = .ok h →
    ∃ h', change g' = .ok h' ∧ h.anonymous = h'.anonymous

theorem blind_connect (source : OutputRef) (target : InputRef) :
    Blind fun g => g.connect source target := by
  intro g g' h hsame hconnect
  obtain ⟨hsource, htarget, hfree, hreach, rfl⟩ := connect_eq_ok_iff.mp hconnect
  refine ⟨g'.link source target, connect_eq_ok_iff.mpr ⟨?_, ?_, ?_, ?_, rfl⟩, ?_⟩
  · rwa [← hasOutput_anonymous, ← hsame, hasOutput_anonymous]
  · rwa [← hasInput_anonymous, ← hsame, hasInput_anonymous]
  · rw [← producer?_anonymous, ← hsame, producer?_anonymous, hfree]
  · rw [← reaches_anonymous, ← hsame, reaches_anonymous, hreach]
  · rw [anonymous_link, anonymous_link, hsame]

theorem blind_setInfo (slot : OutputRef) (info : TensorInfo) :
    Blind fun g => g.setInfo slot info := by
  intro g g' h hsame hset
  obtain ⟨hslot, rfl⟩ := setInfo_eq_ok_iff.mp hset
  refine ⟨g'.describe slot info, setInfo_eq_ok_iff.mpr ⟨?_, rfl⟩, ?_⟩
  · rwa [← hasOutput_anonymous, ← hsame, hasOutput_anonymous]
  · rw [anonymous_describe, anonymous_describe, hsame]

theorem anonymous_setBoundary (g : Graph) (direction : Direction) (ids : List LayerId) :
    (g.setBoundary direction ids).anonymous = g.anonymous.setBoundary direction ids := by
  cases direction <;> rfl

theorem blind_reorder (direction : Direction) (order : List BindingId) :
    Blind fun g => g.reorder direction order := by
  intro g g' h hsame hreorder
  obtain ⟨ids, hids, hset⟩ := Except.bind_eq_ok_iff.mp hreorder
  obtain rfl := Except.pure_eq_ok_iff.mp hset
  refine ⟨g'.setBoundary direction ids, Except.bind_eq_ok_iff.mpr ⟨ids, ?_, rfl⟩, ?_⟩
  · rw [← arrangement_anonymous, ← hsame, arrangement_anonymous, hids]
  · rw [anonymous_setBoundary, anonymous_setBoundary, hsame]

theorem Blind.bind {change change' : Graph → Except GraphError Graph} (hfirst : Blind change)
    (hrest : Blind change') : Blind fun g => change g >>= change' := by
  intro g g' h hsame hrun
  obtain ⟨g₁, hg₁, hh⟩ := Except.bind_eq_ok_iff.mp hrun
  obtain ⟨g₁', hg₁', hsame₁⟩ := hfirst g g' g₁ hsame hg₁
  obtain ⟨h', hh', hsame'⟩ := hrest g₁ g₁' h hsame₁ hh
  exact ⟨h', Except.bind_eq_ok_iff.mpr ⟨g₁', hg₁', hh'⟩, hsame'⟩

/-- Changes one after another are blind when each of them is. -/
theorem blind_foldlM {α : Type} {change : Graph → α → Except GraphError Graph}
    (hchange : ∀ a, Blind fun g => change g a) (items : List α) :
    Blind fun g => items.foldlM change g := by
  induction items with
  | nil =>
    intro g g' h hsame hrun
    obtain rfl := Except.pure_eq_ok_iff.mp hrun
    exact ⟨g', rfl, hsame⟩
  | cons a items ih =>
    simp only [List.foldlM_cons]
    exact (hchange a).bind ih

/-! ### Growing without identities -/

variable {d : Draft} {drafts : List Draft} {supply supply' : GuidSupply}

theorem blind_fill (layer : LayerId) (d : Draft) : Blind (fill layer d) := by
  have hdescribe : Blind (describeAll layer d.infos 0) :=
    blind_foldlM (fun (info, index) => blind_setInfo ⟨layer, index⟩ info) _
  have hconnect : Blind (connectAll layer d.sources 0) :=
    blind_foldlM (fun (source, index) => blind_connect source ⟨layer, index⟩) _
  exact hdescribe.bind hconnect

theorem append_of_anonymous (hsame : g.anonymous = g'.anonymous)
    (hrun : (g.append d).run supply = .ok h supply') (fresh : GuidSupply) :
    ∃ h' fresh', (g'.append d).run fresh = .ok h' fresh' ∧ h.anonymous = h'.anonymous := by
  obtain ⟨g₁, hadded, -, hfill⟩ := append_eq_ok_iff.mp hrun
  obtain ⟨g₁', hadded', hsame₁⟩ := exists_added_of_anonymous hsame hadded fresh.next
  obtain ⟨h', hfill', hsame'⟩ := blind_fill _ d g₁ g₁' h hsame₁ hfill
  have hplace : g.layers.length = g'.layers.length := by
    rw [← length_anonymous g, hsame, length_anonymous]
  rw [hplace] at hfill'
  exact ⟨h', fresh.advance, append_eq_ok_iff.mpr ⟨g₁', hadded', rfl, hfill'⟩, hsame'⟩

/-- Drafts that are appended to a graph are appended to every graph that is the same without
    identities. -/
theorem appendAll_of_anonymous (hsame : g.anonymous = g'.anonymous)
    (hrun : (g.appendAll drafts).run supply = .ok h supply') (fresh : GuidSupply) :
    ∃ h' fresh', (g'.appendAll drafts).run fresh = .ok h' fresh' ∧
      h.anonymous = h'.anonymous := by
  induction drafts generalizing g g' supply fresh with
  | nil =>
    obtain ⟨rfl, -⟩ := Build.pure_eq_ok_iff.mp hrun
    exact ⟨g', fresh, rfl, hsame⟩
  | cons d drafts ih =>
    obtain ⟨g₁, t, hfirst, hrest⟩ := appendAll_cons_eq_ok_iff.mp hrun
    obtain ⟨g₁', fresh₁, hfirst', hsame₁⟩ := append_of_anonymous hsame hfirst fresh
    obtain ⟨h', fresh', hrest', hsame'⟩ := ih hsame₁ hrest fresh₁
    exact ⟨h', fresh', appendAll_cons_eq_ok_iff.mpr ⟨g₁', fresh₁, hfirst', hrest'⟩, hsame'⟩

end Graph

end LayerGraph
