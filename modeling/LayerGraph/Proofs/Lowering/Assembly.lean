import LayerGraph.Lowering.Assembly
import LayerGraph.Proofs.Graph.Growth

/-! # What making a plan adds

  A plan is made layer by layer, and every layer is described and connected while it is the last
  one. So making a plan appends drafts: those of its constants, then those of its layers in their
  order. Where each of them goes is known beforehand, and with it what it reads. Main statement:
  a plan is made exactly when its drafts are appended (`build_eq_ok_iff`).
-/

namespace LayerGraph

open LayerGraph.Graph

/-- The profile of a planned layer. -/
def PlannedLayer.profile (planned : PlannedLayer) : LayerProfile := (planned.kind, planned.outputs)

/-- A planned layer that reads the given slots. -/
def PlannedLayer.draft (planned : PlannedLayer) (sources : List OutputRef) : Draft :=
  ⟨planned.name, planned.kind, sources, planned.outputs⟩

namespace Lowering

/-- The profile of the layer of a constant. -/
def PendingConstant.profile (c : PendingConstant) : LayerProfile :=
  (.constant c.constant, [c.constant.info])

/-- The layer of a constant. -/
def PendingConstant.draft (c : PendingConstant) : Draft :=
  ⟨c.name, .constant c.constant, [], [c.constant.info]⟩

variable {g g' : Graph} {supply supply' : GuidSupply} {id : LayerId} {planned : PlannedLayer}

/-! ### Slots by their tensors -/

section lookup

variable {α : Type} {entries : List (Nat × α)} {k : Nat} {a : α}

theorem mem_of_lookup_eq_some (h : entries.lookup k = some a) : (k, a) ∈ entries := by
  obtain ⟨before, after, rfl, -⟩ := List.lookup_eq_some_iff.mp h
  exact List.mem_append_right before List.mem_cons_self

theorem lookup_eq_none_iff_notMem : entries.lookup k = none ↔ k ∉ entries.map Prod.fst := by
  rw [List.lookup_eq_none_iff, List.mem_map, not_exists]
  simp only [bne_iff_ne, not_and]
  exact ⟨fun h entry hentry heq => h entry hentry heq.symm,
    fun h entry hentry heq => h entry hentry heq.symm⟩

theorem exists_lookup_of_mem (h : k ∈ entries.map Prod.fst) : ∃ a, entries.lookup k = some a := by
  rw [← Option.isSome_iff_exists, Option.isSome_iff_ne_none, Ne, lookup_eq_none_iff_notMem]
  exact not_not.mpr h

/-- A tensor is looked up with its slot when it has no other one. -/
theorem lookup_eq_some_of_unique (hmem : k ∈ entries.map Prod.fst)
    (hunique : ∀ entry ∈ entries, entry.1 = k → entry.2 = a) : entries.lookup k = some a := by
  obtain ⟨b, hb⟩ := exists_lookup_of_mem hmem
  have heq : b = a := hunique (k, b) (mem_of_lookup_eq_some hb) rfl
  rw [hb, heq]

/-- When no tensor has two slots, a tensor is looked up with the one that it has. -/
theorem lookup_eq_some_iff_mem (hnodup : (entries.map Prod.fst).Nodup) :
    entries.lookup k = some a ↔ (k, a) ∈ entries := by
  refine ⟨mem_of_lookup_eq_some, fun hmem => ?_⟩
  refine lookup_eq_some_of_unique (List.mem_map_of_mem hmem) fun entry hentry hk => ?_
  rw [List.inj_on_of_nodup_map hnodup hentry hmem hk]

end lookup

/-! ### Single layers -/

theorem fill_leaf (layer : LayerId) (name : String) (kind : LayerKind) (info : TensorInfo)
    (g : Graph) : fill layer ⟨name, kind, [], [info]⟩ g = g.setInfo ⟨layer, 0⟩ info := by
  rw [fill, describeAll_singleton]
  exact bind_pure _

theorem addConstant_eq_ok_iff {a a' : Assembly} {c : PendingConstant} :
    (addConstant a c).run supply = .ok a' supply' ↔
      ∃ g', (a.graph.append c.draft).run supply = .ok g' supply' ∧
        a' = { a with
          graph := g'
          sources := (c.tensor, ⟨a.graph.layers.length, 0⟩) :: a.sources
          made := a.made ++ [(c.tensor, ⟨a.graph.layers.length, 0⟩)] } := by
  simp only [addConstant, Build.bind_eq_ok_iff, Prod.exists, insert_eq_ok_iff,
    Build.ofExcept_eq_ok_iff, Build.pure_eq_ok_iff, append_eq_ok_iff, PendingConstant.draft,
    fill_leaf]
  constructor
  · rintro ⟨_, g₁, _, ⟨rfl, rfl, hadded⟩, g₂, _, ⟨hset, rfl⟩, rfl, rfl⟩
    exact ⟨g₂, ⟨g₁, hadded, rfl, hset⟩, rfl⟩
  · rintro ⟨g₂, ⟨g₁, hadded, rfl, hset⟩, rfl⟩
    exact ⟨_, g₁, _, ⟨rfl, rfl, hadded⟩, g₂, _, ⟨hset, rfl⟩, rfl, rfl⟩

/-- A planned layer is made by adding it and then connecting it. -/
theorem append_draft_eq_ok_iff {sources : List OutputRef} :
    (g.append (planned.draft sources)).run supply = .ok g' supply' ↔
      ∃ g₁, (addPlanned g planned).run supply = .ok (g.layers.length, g₁) supply' ∧
        connectAll g.layers.length sources 0 g₁ = .ok g' := by
  simp only [addPlanned, Build.foldlM_ofExcept, Build.bind_eq_ok_iff, Prod.exists,
    insert_eq_ok_iff, Build.ofExcept_eq_ok_iff, Build.pure_eq_ok_iff, append_eq_ok_iff,
    PlannedLayer.draft, fill, Except.bind_eq_ok_iff]
  constructor
  · rintro ⟨g₁, hadded, rfl, g₂, hdescribe, hconnect⟩
    exact ⟨g₂, ⟨_, g₁, _, ⟨rfl, rfl, hadded⟩, g₂, _, ⟨hdescribe, rfl⟩, rfl, rfl⟩, hconnect⟩
  · rintro ⟨g₂, ⟨_, g₁, _, ⟨rfl, rfl, hadded⟩, _, _, ⟨hdescribe, rfl⟩, heq, rfl⟩, hconnect⟩
    cases heq
    exact ⟨g₁, hadded, rfl, g₂, hdescribe, hconnect⟩

theorem fst_of_addPlanned (h : (addPlanned g planned).run supply = .ok (id, g') supply') :
    id = g.layers.length := by
  simp only [addPlanned, Build.bind_eq_ok_iff, Prod.exists, insert_eq_ok_iff,
    Build.pure_eq_ok_iff] at h
  obtain ⟨_, g₁, _, ⟨rfl, -, -⟩, g₂, _, -, heq, -⟩ := h
  cases heq
  rfl

theorem addReshape_eq_ok_iff {a a' : Assembly} {tensor : Nat} :
    (addReshape a tensor planned).run supply = .ok a' supply' ↔
      ∃ g', (a.graph.append (planned.draft [a.source tensor])).run supply = .ok g' supply' ∧
        a' = { a with graph := g', reshapes := a.reshapes ++ [a.graph.layers.length] } := by
  simp only [addReshape, Build.bind_eq_ok_iff, Prod.exists, Build.ofExcept_eq_ok_iff,
    Build.pure_eq_ok_iff, append_draft_eq_ok_iff, connectAll_singleton]
  constructor
  · rintro ⟨layer, g₁, _, hplanned, g₂, _, ⟨hconnect, rfl⟩, rfl, rfl⟩
    obtain rfl := fst_of_addPlanned hplanned
    exact ⟨g₂, ⟨g₁, hplanned, hconnect⟩, rfl⟩
  · rintro ⟨g₂, ⟨g₁, hplanned, hconnect⟩, rfl⟩
    exact ⟨_, g₁, _, hplanned, g₂, _, ⟨hconnect, rfl⟩, rfl, rfl⟩

theorem addFollower_eq_ok_iff {state state' : Graph × LayerId} :
    (addFollower state planned).run supply = .ok state' supply' ↔
      ∃ g', (state.1.append (planned.draft [⟨state.2, 0⟩])).run supply = .ok g' supply' ∧
        state' = (g', state.1.layers.length) := by
  simp only [addFollower, Build.bind_eq_ok_iff, Prod.exists, Build.ofExcept_eq_ok_iff,
    Build.pure_eq_ok_iff, append_draft_eq_ok_iff, connectAll_singleton]
  constructor
  · rintro ⟨next, g₁, _, hplanned, g₂, _, ⟨hconnect, rfl⟩, rfl, rfl⟩
    obtain rfl := fst_of_addPlanned hplanned
    exact ⟨g₂, ⟨g₁, hplanned, hconnect⟩, rfl⟩
  · rintro ⟨g₂, ⟨g₁, hplanned, hconnect⟩, rfl⟩
    exact ⟨_, g₁, _, hplanned, g₂, _, ⟨hconnect, rfl⟩, rfl, rfl⟩

/-- The slots of the primary layer are connected one after another. -/
theorem foldlM_connect_slots (a : Assembly) (primary : LayerId) (inputs : List SlotSource)
    (g : Graph) :
    (inputs.zipIdx.foldlM (fun graph (source, index) =>
      Build.ofExcept (graph.connect (a.slot source) ⟨primary, index⟩)) g : Build GraphError Graph) =
      Build.ofExcept (connectAll primary (inputs.map a.slot) 0 g) := by
  rw [connectAll, List.zipIdx_map, List.foldlM_map, ← Build.foldlM_ofExcept]
  rfl

/-! ### Several layers -/

/-- The output slots of constants of which the first is made at the position `n`. -/
def constantSlots (constants : List PendingConstant) (n : Nat) : List (Nat × OutputRef) :=
  (constants.zipIdx n).map fun c => (c.1.tensor, ⟨c.2, 0⟩)

theorem keys_constantSlots (constants : List PendingConstant) (n : LayerId) :
    (constantSlots constants n).map Prod.fst = constants.map (·.tensor) := by
  rw [constantSlots, List.map_map]
  show (constants.zipIdx n).map ((·.tensor) ∘ Prod.fst) = _
  rw [← List.map_map, List.zipIdx_map_fst]

theorem mem_constantSlots_iff {constants : List PendingConstant} {n : LayerId} {k : Nat}
    {p : OutputRef} : (k, p) ∈ constantSlots constants n ↔
      ∃ place c, constants[place]? = some c ∧ c.tensor = k ∧ p = ⟨n + place, 0⟩ := by
  rw [constantSlots, List.mem_map]
  constructor
  · rintro ⟨⟨c, id⟩, hmem, heq⟩
    obtain ⟨hle, hc⟩ := List.mem_zipIdx_iff_le_and_getElem?_sub.mp hmem
    cases heq
    exact ⟨id - n, c, hc, rfl, by rw [Nat.add_sub_cancel' hle]⟩
  · rintro ⟨place, c, hc, rfl, rfl⟩
    refine ⟨(c, n + place), ?_, rfl⟩
    rw [List.mem_zipIdx_iff_le_and_getElem?_sub, Nat.add_sub_cancel_left]
    exact ⟨Nat.le_add_right _ _, hc⟩

theorem foldlM_addConstant_eq_ok_iff {constants : List PendingConstant} {a a' : Assembly} :
    (constants.foldlM addConstant a).run supply = .ok a' supply' ↔
      ∃ g', (a.graph.appendAll (constants.map PendingConstant.draft)).run supply =
          .ok g' supply' ∧
        a' = ⟨g', (constantSlots constants a.graph.layers.length).reverse ++ a.sources,
          a.made ++ constantSlots constants a.graph.layers.length, a.reshapes⟩ := by
  induction constants generalizing a supply with
  | nil =>
    simp only [List.foldlM_nil, Build.pure_eq_ok_iff, List.map_nil, appendAll, constantSlots,
      List.zipIdx_nil, List.reverse_nil, List.nil_append, List.append_nil]
    constructor
    · rintro ⟨rfl, rfl⟩
      exact ⟨_, ⟨rfl, rfl⟩, rfl⟩
    · rintro ⟨_, ⟨rfl, rfl⟩, rfl⟩
      exact ⟨rfl, rfl⟩
  | cons c constants ih =>
    simp only [appendAll, List.map_cons, List.foldlM_cons, Build.bind_eq_ok_iff,
      addConstant_eq_ok_iff, ih]
    constructor
    · rintro ⟨_, t, ⟨g₁, hstep, rfl⟩, g', hrest, rfl⟩
      exact ⟨g', ⟨g₁, t, hstep, hrest⟩, by simp [constantSlots, length_append hstep]⟩
    · rintro ⟨g', ⟨g₁, t, hstep, hrest⟩, rfl⟩
      exact ⟨_, t, ⟨g₁, hstep, rfl⟩, g', hrest, by simp [constantSlots, length_append hstep]⟩

theorem foldlM_addReshape_eq_ok_iff {reshapes : List (Nat × PlannedLayer)} {a a' : Assembly} :
    (reshapes.foldlM (fun a (tensor, planned) => addReshape a tensor planned) a).run supply =
        .ok a' supply' ↔
      ∃ g', (a.graph.appendAll (reshapes.map fun r => r.2.draft [a.source r.1])).run supply =
          .ok g' supply' ∧
        a' = { a with
          graph := g'
          reshapes := a.reshapes ++ List.range' a.graph.layers.length reshapes.length } := by
  induction reshapes generalizing a supply with
  | nil =>
    simp only [List.foldlM_nil, Build.pure_eq_ok_iff, List.map_nil, appendAll, List.length_nil,
      List.range'_zero, List.append_nil]
    constructor
    · rintro ⟨rfl, rfl⟩
      exact ⟨_, ⟨rfl, rfl⟩, rfl⟩
    · rintro ⟨_, ⟨rfl, rfl⟩, rfl⟩
      exact ⟨rfl, rfl⟩
  | cons r reshapes ih =>
    simp only [appendAll, List.map_cons, List.foldlM_cons, Build.bind_eq_ok_iff,
      addReshape_eq_ok_iff, ih]
    constructor
    · rintro ⟨_, t, ⟨g₁, hstep, rfl⟩, g', hrest, rfl⟩
      exact ⟨g', ⟨g₁, t, hstep, hrest⟩, by simp [List.range'_succ, length_append hstep]⟩
    · rintro ⟨g', ⟨g₁, t, hstep, hrest⟩, rfl⟩
      exact ⟨_, t, ⟨g₁, hstep, rfl⟩, g', hrest, by simp [List.range'_succ, length_append hstep]⟩

/-- Layers in a chain behind the layer at the position `last`. -/
def chainDrafts (tail : List PlannedLayer) (last : LayerId) : List Draft :=
  (tail.zipIdx last).map fun p => p.1.draft [⟨p.2, 0⟩]

theorem chainDrafts_cons (tail : List PlannedLayer) (last : LayerId) :
    chainDrafts (planned :: tail) last =
      planned.draft [⟨last, 0⟩] :: chainDrafts tail (last + 1) := by
  simp [chainDrafts]

theorem getElem?_chainDrafts (tail : List PlannedLayer) (last : LayerId) (k : Nat) :
    (chainDrafts tail last)[k]? = tail[k]?.map fun planned => planned.draft [⟨last + k, 0⟩] := by
  rw [chainDrafts, List.getElem?_map, List.getElem?_zipIdx, Option.map_map]
  rfl

theorem foldlM_addFollower_eq_ok_iff {tail : List PlannedLayer} {state' : Graph × LayerId}
    {last : LayerId} (hlast : last + 1 = g.layers.length) :
    (tail.foldlM addFollower (g, last)).run supply = .ok state' supply' ↔
      ∃ g', (g.appendAll (chainDrafts tail last)).run supply = .ok g' supply' ∧
        state' = (g', last + tail.length) := by
  induction tail generalizing g last supply with
  | nil =>
    simp only [List.foldlM_nil, Build.pure_eq_ok_iff, List.map_nil, appendAll, chainDrafts,
      List.zipIdx_nil, List.length_nil, Nat.add_zero]
    constructor
    · rintro ⟨rfl, rfl⟩
      exact ⟨_, ⟨rfl, rfl⟩, rfl⟩
    · rintro ⟨_, ⟨rfl, rfl⟩, rfl⟩
      exact ⟨rfl, rfl⟩
  | cons planned tail ih =>
    -- The layer that is made is the one that the next layer follows.
    simp only [appendAll, chainDrafts_cons, List.foldlM_cons, Build.bind_eq_ok_iff,
      addFollower_eq_ok_iff]
    constructor
    · rintro ⟨_, t, ⟨g₁, hstep, rfl⟩, hrest⟩
      rw [← hlast, ih (by rw [length_append hstep, hlast])] at hrest
      obtain ⟨g', hrest, rfl⟩ := hrest
      refine ⟨g', ⟨g₁, t, hstep, hrest⟩, ?_⟩
      rw [List.length_cons, Nat.add_right_comm, Nat.add_assoc]
    · rintro ⟨g', ⟨g₁, t, hstep, hrest⟩, rfl⟩
      refine ⟨_, t, ⟨g₁, hstep, rfl⟩, ?_⟩
      rw [← hlast, ih (by rw [length_append hstep, hlast])]
      refine ⟨g', hrest, ?_⟩
      rw [List.length_cons, Nat.add_right_comm, Nat.add_assoc]

/-! ### The whole plan -/

/-- The output slot that a slot of the primary layer reads, when the output slots of tensors are
    the known ones and the reshapes are made from the position `first` on. -/
def slotAt (plan : Plan) (known : List (Nat × OutputRef)) (first : LayerId) :
    SlotSource → OutputRef
  | .tensor t => (known.lookup t).getD ⟨0, 0⟩
  | .reshape r => ⟨(List.range' first plan.reshapes.length).getD r 0, 0⟩

theorem slotAt_reshape {plan : Plan} {known : List (Nat × OutputRef)} {first : LayerId} {r : Nat}
    (h : r < plan.reshapes.length) : slotAt plan known first (.reshape r) = ⟨first + r, 0⟩ := by
  rw [slotAt, List.getD_eq_getElem?_getD, List.getElem?_range' h, Nat.one_mul, Option.getD_some]

/-- The reshapes of a plan. -/
def reshapeDrafts (plan : Plan) (known : List (Nat × OutputRef)) : List Draft :=
  plan.reshapes.map fun r => r.2.draft [(known.lookup r.1).getD ⟨0, 0⟩]

theorem getElem?_reshapeDrafts {plan : Plan} (known : List (Nat × OutputRef)) {r : Nat}
    {entry : Nat × PlannedLayer} (h : plan.reshapes[r]? = some entry) :
    (reshapeDrafts plan known)[r]? =
      some (entry.2.draft [(known.lookup entry.1).getD ⟨0, 0⟩]) := by
  rw [reshapeDrafts, List.getElem?_map, h, Option.map_some]

/-- The layers of a plan. -/
def planDrafts (plan : Plan) (known : List (Nat × OutputRef)) (first : LayerId) : List Draft :=
  reshapeDrafts plan known ++
    plan.primary.draft (plan.inputs.map (slotAt plan known first)) ::
      chainDrafts plan.tail (first + plan.reshapes.length)

/-- The output slots of the tensors that a plan reads, when its constants are made from the
    position `n` on. -/
def knownSlots (sources : List (Nat × OutputRef)) (constants : List PendingConstant) (n : LayerId) :
    List (Nat × OutputRef) :=
  (constantSlots constants n).reverse ++ sources

/-- The constants and the layers of a plan, when they are made from the position `n` on. -/
def stepDrafts (plan : Plan) (sources : List (Nat × OutputRef)) (constants : List PendingConstant)
    (n : LayerId) : List Draft :=
  constants.map PendingConstant.draft ++
    planDrafts plan (knownSlots sources constants n) (n + constants.length)

theorem mem_chainDrafts {tail : List PlannedLayer} {last : LayerId} {d : Draft}
    (h : d ∈ chainDrafts tail last) : ∃ layer ∈ tail, ∃ p, d = layer.draft [p] := by
  obtain ⟨⟨layer, place⟩, hmem, rfl⟩ := List.mem_map.mp h
  exact ⟨layer, List.fst_mem_of_mem_zipIdx hmem, _, rfl⟩

/-- What is made for a plan: constants, layers of one slot, and the primary layer. -/
theorem stepDrafts_cases {plan : Plan} {sources : List (Nat × OutputRef)}
    {constants : List PendingConstant} {n : LayerId} {d : Draft}
    (h : d ∈ stepDrafts plan sources constants n) :
    (∃ c ∈ constants, d = c.draft) ∨
    (∃ layer, (layer ∈ plan.reshapes.map (·.2) ∨ layer ∈ plan.tail) ∧ ∃ p, d = layer.draft [p]) ∨
    (∃ slots : List OutputRef,
      slots.length = plan.inputs.length ∧ d = plan.primary.draft slots) := by
  rw [stepDrafts, planDrafts, List.mem_append, List.mem_append, List.mem_cons] at h
  rcases h with hconstant | hreshape | rfl | htail
  · obtain ⟨c, hc, rfl⟩ := List.mem_map.mp hconstant
    exact .inl ⟨c, hc, rfl⟩
  · obtain ⟨r, hr, rfl⟩ := List.mem_map.mp hreshape
    exact .inr (.inl ⟨r.2, .inl (List.mem_map_of_mem hr), _, rfl⟩)
  · exact .inr (.inr ⟨_, List.length_map _, rfl⟩)
  · obtain ⟨layer, hlayer, p, rfl⟩ := mem_chainDrafts htail
    exact .inr (.inl ⟨layer, .inr hlayer, p, rfl⟩)

theorem getElem?_stepDrafts (plan : Plan) (sources : List (Nat × OutputRef))
    (constants : List PendingConstant) (n : LayerId) (k : Nat) :
    (stepDrafts plan sources constants n)[constants.length + k]? =
      (planDrafts plan (knownSlots sources constants n) (n + constants.length))[k]? := by
  rw [stepDrafts, List.getElem?_append_right (by simp), List.length_map, Nat.add_sub_cancel_left]

/-- The primary layer and those behind it stand behind the reshapes. -/
theorem getElem?_planDrafts (plan : Plan) (known : List (Nat × OutputRef)) (first : LayerId)
    (k : Nat) :
    (planDrafts plan known first)[plan.reshapes.length + k]? =
      (plan.primary.draft (plan.inputs.map (slotAt plan known first)) ::
        chainDrafts plan.tail (first + plan.reshapes.length))[k]? := by
  rw [planDrafts, List.getElem?_append_right (by simp [reshapeDrafts]), reshapeDrafts,
    List.length_map, Nat.add_sub_cancel_left]

/-- The profiles of what is made are those of the constants and of the planned layers. -/
theorem profile_stepDrafts (plan : Plan) (sources : List (Nat × OutputRef))
    (constants : List PendingConstant) (n : LayerId) :
    ((stepDrafts plan sources constants n).map Draft.content).map LayerContent.profile =
      constants.map PendingConstant.profile ++ plan.layers.map PlannedLayer.profile := by
  -- A profile does not tell what a draft reads, so where the chain starts makes no difference.
  have hchain (tail : List PlannedLayer) (last : LayerId) :
      ((chainDrafts tail last).map Draft.content).map LayerContent.profile =
        tail.map PlannedLayer.profile := by
    induction tail generalizing last with
    | nil => rfl
    | cons planned tail ih =>
      rw [chainDrafts_cons, List.map_cons, List.map_cons, ih, Draft.profile_content, List.map_cons]
      rfl
  have hreshapes : ((reshapeDrafts plan (knownSlots sources constants n)).map Draft.content).map
      LayerContent.profile = (plan.reshapes.map (·.2)).map PlannedLayer.profile := by
    simp only [reshapeDrafts, List.map_map]
    refine List.map_congr_left fun r _ => ?_
    exact Draft.profile_content _
  have hconstants : ((constants.map PendingConstant.draft).map Draft.content).map
      LayerContent.profile = constants.map PendingConstant.profile := by
    simp only [List.map_map]
    refine List.map_congr_left fun c _ => ?_
    exact Draft.profile_content _
  rw [stepDrafts, planDrafts, List.map_append, List.map_append, hconstants, List.map_append,
    List.map_append, hreshapes, List.map_cons, List.map_cons, hchain, Draft.profile_content,
    Plan.layers, List.map_append, List.map_cons]
  rfl

theorem length_planDrafts (plan : Plan) (known : List (Nat × OutputRef)) (first : LayerId) :
    (planDrafts plan known first).length = plan.layers.length := by
  simp [planDrafts, reshapeDrafts, chainDrafts, Plan.layers]

theorem length_stepDrafts (plan : Plan) (sources : List (Nat × OutputRef))
    (constants : List PendingConstant) (n : LayerId) :
    (stepDrafts plan sources constants n).length = constants.length + plan.layers.length := by
  rw [stepDrafts, List.length_append, List.length_map, length_planDrafts]

/-- Where the primary layer is made then. -/
def primaryAt (plan : Plan) (constants : List PendingConstant) (n : LayerId) : LayerId :=
  n + constants.length + plan.reshapes.length

/-- The output slots of the tensors that a plan writes, when its last layer has the given
    position. -/
def writtenSlots (plan : Plan) (last : LayerId) : List (Nat × OutputRef) :=
  plan.outputs.zipIdx.map fun (tensor, slot) => (tensor, ⟨last, slot⟩)

theorem keys_writtenSlots (plan : Plan) (last : LayerId) :
    (writtenSlots plan last).map Prod.fst = plan.outputs := by
  rw [writtenSlots, List.map_map]
  exact List.zipIdx_map_fst 0 plan.outputs

theorem mem_writtenSlots_iff {plan : Plan} {last : LayerId} {k : Nat} {p : OutputRef} :
    (k, p) ∈ writtenSlots plan last ↔ p.layer = last ∧ plan.outputs[p.index]? = some k := by
  rw [writtenSlots, List.mem_map]
  constructor
  · rintro ⟨⟨tensor, slot⟩, hmem, heq⟩
    cases heq
    exact ⟨rfl, List.mem_zipIdx_iff_getElem?.mp hmem⟩
  · rintro ⟨rfl, hk⟩
    exact ⟨(k, p.index), List.mem_zipIdx_iff_getElem?.mpr hk, rfl⟩

/-- The output slots of the tensors that are produced then. -/
def producedSlots (plan : Plan) (constants : List PendingConstant) (n : LayerId) :
    List (Nat × OutputRef) :=
  writtenSlots plan (primaryAt plan constants n + plan.tail.length) ++ constantSlots constants n

/-- A slot reads what is known when the constants and the reshapes are made. -/
theorem slot_eq_slotAt (g : Graph) (plan : Plan) (known made : List (Nat × OutputRef))
    (first : LayerId) :
    Assembly.slot ⟨g, known, made, List.range' first plan.reshapes.length⟩ =
      slotAt plan known first := by
  funext source
  cases source <;> rfl

/-- A plan is made by appending its constants and its layers. The primary layer stands behind the
    constants and the reshapes, and the last layer of the chain writes the outputs. -/
theorem build_eq_ok_iff {plan : Plan} {sources : List (Nat × OutputRef)}
    {constants : List PendingConstant} {built : Built} :
    (build g plan sources constants).run supply = .ok built supply' ↔
      ∃ g', (g.appendAll (stepDrafts plan sources constants g.layers.length)).run supply =
          .ok g' supply' ∧
        built = ⟨g', primaryAt plan constants g.layers.length,
          producedSlots plan constants g.layers.length⟩ := by
  simp only [build, Build.bind_eq_ok_iff, Prod.exists, Build.pure_eq_ok_iff,
    foldlM_addConstant_eq_ok_iff, foldlM_addReshape_eq_ok_iff, foldlM_connect_slots,
    Build.ofExcept_eq_ok_iff, stepDrafts, planDrafts, reshapeDrafts, appendAll_append_eq_ok_iff,
    appendAll_cons_eq_ok_iff]
  constructor
  · rintro ⟨_, s₁, ⟨g₁, hconstants, rfl⟩, _, s₂, ⟨g₂, hreshapes, rfl⟩, id, g₃, s₃, hprimary,
      g₄, _, ⟨hinputs, rfl⟩, g₅, last, s₅, htail, rfl, rfl⟩
    -- What was appended so far says where the next layer is.
    have hfirst := length_appendAll hconstants
    have hplace := length_appendAll hreshapes
    rw [List.length_map] at hfirst hplace
    obtain rfl := fst_of_addPlanned hprimary
    rw [hfirst] at hplace hinputs
    rw [List.nil_append, List.nil_append, slot_eq_slotAt] at hinputs
    have happend := append_draft_eq_ok_iff.mpr ⟨g₃, hprimary, hinputs⟩
    rw [foldlM_addFollower_eq_ok_iff (length_append happend).symm] at htail
    obtain ⟨g', htail, heq⟩ := htail
    cases heq
    rw [hplace] at htail
    refine ⟨g₅, ⟨g₁, s₁, hconstants, g₂, s₂, hreshapes, g₄, s₃, happend, htail⟩, ?_⟩
    rw [hplace]
    rfl
  · rintro ⟨g', ⟨g₁, s₁, hconstants, g₂, s₂, hreshapes, g₄, s₃, happend, htail⟩, rfl⟩
    have hfirst := length_appendAll hconstants
    have hplace := length_appendAll hreshapes
    rw [List.length_map] at hfirst hplace
    rw [hfirst] at hplace
    obtain ⟨g₃, hprimary, hinputs⟩ := append_draft_eq_ok_iff.mp happend
    refine ⟨_, s₁, ⟨g₁, hconstants, rfl⟩, _, s₂, ⟨g₂, hreshapes, rfl⟩, _, g₃, s₃, hprimary, g₄, s₃,
      ⟨?_, rfl⟩, g', primaryAt plan constants g.layers.length + plan.tail.length, supply', ?_, ?_,
      rfl⟩
    · rw [hfirst, List.nil_append, List.nil_append, slot_eq_slotAt]
      exact hinputs
    · rw [foldlM_addFollower_eq_ok_iff (length_append happend).symm, hplace]
      exact ⟨g', htail, rfl⟩
    · rw [hplace]
      rfl

end Lowering

end LayerGraph
