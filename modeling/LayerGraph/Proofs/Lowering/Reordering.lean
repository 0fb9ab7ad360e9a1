import LayerGraph.Proofs.Lowering.Failures
import LayerGraph.Proofs.Lowering.Layout
import Mathlib.Data.List.Perm.Basic

/-! # Operators in another order

  The order in which operators are lowered decides where their layers are, and which of them makes
  a constant that several of them read. It decides nothing else, as long as the same operators are
  lowered. Main statement: two runs that lower the same operators end in isomorphic graphs
  (`isomorphic_of_reordered`).

  Both runs have a layout. The layouts list the same origins, since what is there after some calls
  does not depend on their order. So every layer of one run is the layer of the same origin in the
  other one (`reposition`), and reads the layers of the same origins (`TwoOrders.content?`). The
  outputs are added at the same positions, and read corresponding layers (`Reordered.addOutput`).
-/

namespace LayerGraph

namespace Lowering

open LayerGraph.Graph

/-! ### Items in another order -/

section lists

variable {α : Type} [DecidableEq α] {xs ys : List α} {a : α} {i j : Nat}

/-- Where the item at a position of one list is in another one. What is behind the list stays. -/
def reposition (xs ys : List α) (i : Nat) : Nat := (xs[i]?.map ys.idxOf).getD i

theorem reposition_of_length_le (h : xs.length ≤ i) : reposition xs ys i = i := by
  rw [reposition, List.getElem?_eq_none h]
  rfl

theorem getElem?_reposition (hperm : xs.Perm ys) (i : Nat) :
    ys[reposition xs ys i]? = xs[i]? := by
  cases hi : xs[i]? with
  | none =>
    have hle := List.getElem?_eq_none_iff.mp hi
    rw [reposition_of_length_le hle, List.getElem?_eq_none]
    rwa [← hperm.length_eq]
  | some a =>
    rw [reposition, hi, Option.map_some, Option.getD_some]
    exact List.getElem?_idxOf (hperm.mem_iff.mp (List.mem_of_getElem? hi))

theorem reposition_eq (hperm : xs.Perm ys) (hnodup : xs.Nodup) (hi : xs[i]? = some a)
    (hj : ys[j]? = some a) : reposition xs ys i = j := by
  have hback : ys[reposition xs ys i]? = some a := by rw [getElem?_reposition hperm, hi]
  have hlt := (List.getElem?_eq_some_iff.mp hback).1
  exact (List.getElem?_inj hlt (hperm.nodup_iff.mp hnodup)).mp (hback.trans hj.symm)

theorem reposition_reposition (hperm : xs.Perm ys) (hnodup : xs.Nodup) (i : Nat) :
    reposition ys xs (reposition xs ys i) = i := by
  cases hi : xs[i]? with
  | none =>
    have hle := List.getElem?_eq_none_iff.mp hi
    rw [reposition_of_length_le hle, reposition_of_length_le (hperm.length_eq ▸ hle)]
  | some a =>
    have hback : ys[reposition xs ys i]? = some a := by rw [getElem?_reposition hperm, hi]
    exact reposition_eq hperm.symm (hperm.nodup_iff.mp hnodup) hback hi

/-- The permutation of positions between two lists with the same items. -/
def repositioning (hperm : xs.Perm ys) (hnodup : xs.Nodup) : Equiv.Perm Nat where
  toFun := reposition xs ys
  invFun := reposition ys xs
  left_inv := reposition_reposition hperm hnodup
  right_inv := reposition_reposition hperm.symm (hperm.nodup_iff.mp hnodup)

end lists

/-- The items of two lists can be numbered so that the numbered lists have the same items. -/
theorem exists_numbering {xs ys : List Nat} (h : xs.Perm ys) :
    ∃ calls calls' : List (Nat × Nat), calls.Nodup ∧ calls.Perm calls' ∧
      calls.map Prod.fst = xs ∧ calls'.map Prod.fst = ys := by
  have hnodup : (xs.zipIdx.map Prod.snd).Nodup := by
    rw [List.zipIdx_map_snd]
    exact List.nodup_range'
  have hnumbered : List.Forall₂ (fun x (call : Nat × Nat) => x = call.1) xs xs.zipIdx := by
    rw [← List.forall₂_map_right_iff, List.forall₂_eq_eq_eq]
    exact (List.zipIdx_map_fst 0 xs).symm
  obtain ⟨calls', hcalls', hperm⟩ := List.perm_comp_forall₂ h.symm hnumbered
  rw [← List.forall₂_map_right_iff, List.forall₂_eq_eq_eq] at hcalls'
  exact ⟨xs.zipIdx, calls', hnodup.of_map, hperm.symm, List.zipIdx_map_fst 0 xs, hcalls'.symm⟩

/-! ### A plan in another place -/

variable {base base' t t' u u' : Lowering} {calls calls' : List (Nat × Nat)} {call : Nat × Nat}
variable {origins origins' : List Origin} {o : Origin} {k index place : Nat} {plan : Plan}
variable {φ : Equiv.Perm LayerId} {first first' : LayerId} {known known' : List (Nat × OutputRef)}
variable {supply supply' s s' : GuidSupply} {tensor : Int32} {model : Model} {standIn : Bool}

section plan

variable {number : LayerId → LayerId}

/-- What is known of the tensors that a plan reads, with the layers numbered in another way. -/
def KnownElsewhere (plan : Plan) (number : LayerId → LayerId)
    (known known' : List (Nat × OutputRef)) : Prop :=
  ∀ k ∈ plan.consumed, ∃ p, known.lookup k = some p ∧
    known'.lookup k = some { p with layer := number p.layer }

theorem renumber_reshapeDrafts (hknown : KnownElsewhere plan number known known') :
    reshapeDrafts plan known' = (reshapeDrafts plan known).map (Draft.renumber number) := by
  rw [reshapeDrafts, reshapeDrafts, List.map_map]
  apply List.map_congr_left
  intro r hr
  obtain ⟨p, hp, hp'⟩ := hknown r.1 (Plan.mem_consumed_iff.mpr (.inl ⟨r, hr, rfl⟩))
  rw [Function.comp_apply, hp, hp']
  rfl

theorem renumber_chainDrafts {tail : List PlannedLayer} {last last' : LayerId}
    (hplace : ∀ place < tail.length, number (last + place) = last' + place) :
    chainDrafts tail last' = (chainDrafts tail last).map (Draft.renumber number) := by
  apply List.ext_getElem?
  intro place
  rw [List.getElem?_map, getElem?_chainDrafts, getElem?_chainDrafts, Option.map_map]
  by_cases hlt : place < tail.length
  · rw [List.getElem?_eq_getElem hlt, ← hplace place hlt]
    rfl
  · rw [List.getElem?_eq_none (Nat.not_lt.mp hlt)]
    rfl

/-- A slot reads its tensor, or a reshape that stands elsewhere too. -/
theorem renumber_slotAt (hknown : KnownElsewhere plan number known known')
    (hplace : ∀ r < plan.reshapes.length, number (first + r) = first' + r)
    (hslots : ∀ r, SlotSource.reshape r ∈ plan.inputs → r < plan.reshapes.length)
    {source : SlotSource} (hsource : source ∈ plan.inputs) :
    slotAt plan known' first' source =
      { slotAt plan known first source with
        layer := number (slotAt plan known first source).layer } := by
  cases source with
  | tensor k =>
    obtain ⟨p, hp, hp'⟩ := hknown k (Plan.mem_consumed_iff.mpr (.inr hsource))
    rw [slotAt, slotAt, hp, hp']
    rfl
  | reshape r =>
    have hr : r < plan.reshapes.length := hslots r hsource
    rw [slotAt_reshape hr, slotAt_reshape hr, hplace r hr]

/-- The layers of a plan that stands elsewhere and reads corresponding slots. -/
theorem renumber_planDrafts (hknown : KnownElsewhere plan number known known')
    (hplace : ∀ place < plan.layers.length, number (first + place) = first' + place)
    (hslots : ∀ r, SlotSource.reshape r ∈ plan.inputs → r < plan.reshapes.length) :
    planDrafts plan known' first' = (planDrafts plan known first).map (Draft.renumber number) := by
  have hlength : plan.layers.length = plan.reshapes.length + (plan.tail.length + 1) := by
    rw [Plan.layers, List.length_append, List.length_map, List.length_cons]
  have hreshape (r : Nat) (hr : r < plan.reshapes.length) : number (first + r) = first' + r :=
    hplace r (by omega)
  have hchain (place : Nat) (hlt : place < plan.tail.length) :
      number (first + plan.reshapes.length + place) = first' + plan.reshapes.length + place := by
    rw [Nat.add_assoc, hplace _ (by omega), Nat.add_assoc]
  have hslot : plan.inputs.map (slotAt plan known' first') =
      (plan.inputs.map (slotAt plan known first)).map fun p =>
        { p with layer := number p.layer } := by
    rw [List.map_map]
    exact List.map_congr_left fun source => renumber_slotAt hknown hreshape hslots
  rw [planDrafts, planDrafts, List.map_append, List.map_cons, renumber_reshapeDrafts hknown,
    renumber_chainDrafts hchain, hslot]
  rfl

end plan

/-! ### Layouts of the same calls -/

theorem Same.present_iff (h : Same base base') (hcalls : calls.Perm calls') :
    base.Present calls o ↔ base'.Present calls' o := by
  have hmem (call : Nat × Nat) : call ∈ calls ↔ call ∈ calls' := hcalls.mem_iff
  cases o <;>
    simp only [Present, Reads, Writes, hmem, h.model, h.standIn, h.producer?, h.length]

theorem Same.provides_iff (h : Same base base') (hcalls : calls.Perm calls') :
    base.Provides calls k o index ↔ base'.Provides calls' k o index := by
  have hmem (call : Nat × Nat) : call ∈ calls ↔ call ∈ calls' := hcalls.mem_iff
  cases o <;> simp only [Provides, Reads, Writes, hmem, h.model, h.standIn, h.producer?]

/-- The lowerings `t` and `t'` come from the same start by the same calls in two orders. -/
structure TwoOrders (base t : Lowering) (calls : List (Nat × Nat)) (origins : List Origin)
    (base' t' : Lowering) (calls' : List (Nat × Nat)) (origins' : List Origin) : Prop where
  sameStart : Same base base'
  sameCalls : calls.Perm calls'
  left : Layout base t calls origins
  right : Layout base' t' calls' origins'

/-- The same layers are there in both orders. -/
theorem TwoOrders.perm (h : TwoOrders base t calls origins base' t' calls' origins') :
    origins.Perm origins' := by
  rw [List.perm_ext_iff_of_nodup h.left.nodup h.right.nodup]
  intro o
  rw [h.left.mem_iff, h.right.mem_iff, h.sameStart.present_iff h.sameCalls]

/-- A tensor is produced by the layer of the same origin. -/
theorem TwoOrders.producer? (h : TwoOrders base t calls origins base' t' calls' origins')
    (k : Nat) : t'.producer? k =
      (t.producer? k).map fun p => { p with layer := reposition origins origins' p.layer } := by
  cases hproducer : t.producer? k with
  | none =>
    rw [h.left.producer?_eq_none_iff] at hproducer
    rw [Option.map_none, h.right.producer?_eq_none_iff]
    simp only [← h.sameCalls.mem_iff, Reads, Writes, ← h.sameStart.producer?,
      ← h.sameStart.model, ← h.sameStart.standIn]
    exact hproducer
  | some p =>
    obtain ⟨o, ho, hprovides⟩ := (h.left.producer?_iff k p).mp hproducer
    rw [Option.map_some, h.right.producer?_iff]
    refine ⟨o, ?_, (h.sameStart.provides_iff h.sameCalls).mp hprovides⟩
    rw [getElem?_reposition h.perm, ho]

/-- The layers of the start stay in front. -/
theorem TwoOrders.reposition_start (h : TwoOrders base t calls origins base' t' calls' origins')
    {id : LayerId} (hid : id < base.graph.layers.length) : reposition origins origins' id = id := by
  have hid' : id < base'.graph.layers.length := h.sameStart.length ▸ hid
  exact reposition_eq h.perm h.left.nodup (h.left.start id hid).1 (h.right.start id hid').1

/-- They read no later layers, so they say the same. -/
theorem TwoOrders.content?_start (h : TwoOrders base t calls origins base' t' calls' origins')
    (hbase : base.graph.Coherent) {id : LayerId} (hid : id < base.graph.layers.length) :
    t'.graph.content? (reposition origins origins' id) =
      (t.graph.content? id).map (·.renumber (reposition origins origins')) := by
  have hid' : id < base'.graph.layers.length := h.sameStart.length ▸ hid
  have hcontent : base'.graph.content? id = base.graph.content? id := by
    rw [← content?_anonymous, ← h.sameStart.graph, content?_anonymous]
  rw [h.reposition_start hid, (h.left.start id hid).2, (h.right.start id hid').2, hcontent]
  cases hc : base.graph.content? id with
  | none => rfl
  | some c =>
    have hread (p : OutputRef) (hp : some p ∈ c.inputs) :
        reposition origins origins' p.layer = p.layer :=
      h.reposition_start (hbase.linked.hasOutput_of_content? hc hp).lt
    rw [Option.map_some, LayerContent.renumber_eq_self hread]

/-- A constant has the values of its tensor, whichever operator made it. -/
theorem TwoOrders.content?_constant (h : TwoOrders base t calls origins base' t' calls' origins')
    {id id' : LayerId} (ho : origins[id]? = some (.constant k))
    (ho' : origins'[id']? = some (.constant k)) :
    ∃ c : PendingConstant, t.graph.content? id = some c.draft.content ∧
      t'.graph.content? id' = some c.draft.content := by
  obtain ⟨operator, c, hc, hcontent⟩ := h.left.constant id k ho
  obtain ⟨operator', c', hc', hcontent'⟩ := h.right.constant id' k ho'
  rw [← h.sameStart.model] at hc'
  have hother := pendingConstant_of_operator hc operator'
  rw [hc'] at hother
  cases hother
  exact ⟨c, hcontent, hcontent'⟩

/-- What a plan reads of its tensors corresponds: the slots that produce them, and a constant that
    is written later. -/
theorem TwoOrders.knownElsewhere (h : TwoOrders base t calls origins base' t' calls' origins')
    (hplaced : Placed t origins call plan first known)
    (hplaced' : Placed t' origins' call plan first' known') :
    KnownElsewhere plan (reposition origins origins') known known' := by
  intro k hk
  obtain ⟨p, hp, hproducer, hconstant⟩ := hplaced.known k hk
  obtain ⟨p', hp', hproducer', hconstant'⟩ := hplaced'.known k hk
  refine ⟨p, hp, ?_⟩
  rw [hp']
  by_cases hwritten : k ∈ plan.outputs
  · obtain ⟨horigin, hindex⟩ := hconstant hwritten
    obtain ⟨horigin', hindex'⟩ := hconstant' hwritten
    rw [reposition_eq h.perm h.left.nodup horigin horigin', hindex, ← hindex']
  · have hread := h.producer? k
    rw [hproducer hwritten, hproducer' hwritten] at hread
    exact hread

/-- The layers of a call are behind the first of them. -/
theorem Placed.eq_add {id : LayerId} (h : Placed t origins call plan first known)
    (hnodup : origins.Nodup) (hplace : place < plan.layers.length)
    (ho : origins[id]? = some (.planned call place)) : id = first + place := by
  have hlt := (List.getElem?_eq_some_iff.mp ho).1
  exact (List.getElem?_inj hlt hnodup).mp (ho.trans (h.origin place hplace).symm)

/-- The layers of a call have the same plan, and read corresponding slots. -/
theorem TwoOrders.content?_planned (h : TwoOrders base t calls origins base' t' calls' origins')
    {id id' : LayerId} (ho : origins[id]? = some (.planned call place))
    (ho' : origins'[id']? = some (.planned call place)) :
    ∃ d : Draft, t.graph.content? id = some d.content ∧
      t'.graph.content? id' = some (d.renumber (reposition origins origins')).content := by
  obtain ⟨hcall, plan, hplan, hplace⟩ := (h.left.mem_iff _).mp (List.mem_of_getElem? ho)
  obtain ⟨plan₁, first, known, hplan₁, hplaced⟩ := h.left.planned call hcall
  obtain ⟨plan₂, first', known', hplan₂, hplaced'⟩ :=
    h.right.planned call (h.sameCalls.mem_iff.mp hcall)
  -- An operator has one plan.
  rw [hplan] at hplan₁
  cases hplan₁
  rw [← h.sameStart.model, ← h.sameStart.standIn, hplan] at hplan₂
  cases hplan₂
  obtain ⟨op, -, hplanned⟩ := Plan.ofOperator_planned hplan
  have hput (place : Nat) (hplace : place < plan.layers.length) :
      reposition origins origins' (first + place) = first' + place :=
    reposition_eq h.perm h.left.nodup (hplaced.origin place hplace)
      (hplaced'.origin place hplace)
  have hdrafts := renumber_planDrafts (h.knownElsewhere hplaced hplaced') hput
    hplanned.covered.slots
  obtain rfl := hplaced.eq_add h.left.nodup hplace ho
  obtain rfl := hplaced'.eq_add h.right.nodup hplace ho'
  rw [← length_planDrafts plan known first] at hplace
  obtain ⟨d, hd⟩ : ∃ d, (planDrafts plan known first)[place]? = some d :=
    ⟨_, List.getElem?_eq_getElem hplace⟩
  have hd' : (planDrafts plan known' first')[place]? =
      some (d.renumber (reposition origins origins')) := by
    rw [hdrafts, List.getElem?_map, hd, Option.map_some]
  exact ⟨d, hplaced.content? place _ hd, hplaced'.content? place _ hd'⟩

/-- Every layer says what the layer of the same origin says. -/
theorem TwoOrders.content? (h : TwoOrders base t calls origins base' t' calls' origins')
    (hbase : base.graph.Coherent) (id : LayerId) :
    t'.graph.content? (reposition origins origins' id) =
      (t.graph.content? id).map (·.renumber (reposition origins origins')) := by
  cases ho : origins[id]? with
  | none =>
    have hle : origins.length ≤ id := List.getElem?_eq_none_iff.mp ho
    have hle' : origins'.length ≤ id := h.perm.length_eq ▸ hle
    rw [reposition_of_length_le hle]
    rw [h.left.length] at hle
    rw [h.right.length] at hle'
    rw [content?_eq_none_iff.mpr hle, content?_eq_none_iff.mpr hle']
    rfl
  | some o =>
    have ho' : origins'[reposition origins origins' id]? = some o := by
      rw [getElem?_reposition h.perm, ho]
    cases o with
    | start place =>
      have hlt : place < base.graph.layers.length :=
        (h.left.mem_iff _).mp (List.mem_of_getElem? ho)
      -- A layer of the start stands at its own place in both orders.
      obtain ⟨hplace, -⟩ := h.left.start place hlt
      have hid := (List.getElem?_eq_some_iff.mp ho).1
      obtain rfl := (List.getElem?_inj hid h.left.nodup).mp (ho.trans hplace.symm)
      exact h.content?_start hbase hlt
    | constant k =>
      obtain ⟨c, hcontent, hcontent'⟩ := h.content?_constant ho ho'
      rw [hcontent, hcontent']
      rfl
    | planned call place =>
      obtain ⟨d, hcontent, hcontent'⟩ := h.content?_planned ho ho'
      rw [hcontent, hcontent', Draft.content_renumber]
      rfl

/-- The boundaries are those of the start. -/
theorem TwoOrders.boundary (h : TwoOrders base t calls origins base' t' calls' origins')
    (hbase : base.graph.Coherent) (direction : Direction) :
    t'.graph.boundary direction =
      (t.graph.boundary direction).map (reposition origins origins') := by
  have hboundary : base'.graph.boundary direction = base.graph.boundary direction := by
    rw [← boundary_anonymous, ← h.sameStart.graph, boundary_anonymous]
  rw [h.right.boundary, h.left.boundary, hboundary]
  symm
  refine (List.map_congr_left fun id hid => ?_).trans (List.map_id _)
  exact h.reposition_start (hbase.boundary_lt hid)

/-- The lowerings have the same layers, where `φ` puts them, and corresponding slots produce their
    tensors. -/
structure Reordered (φ : Equiv.Perm LayerId) (t t' : Lowering) : Prop where
  model : t'.model = t.model
  isomorphism : Isomorphism φ t.graph t'.graph
  fixed : ∀ id, t.graph.layers.length ≤ id → φ id = id
  producer? : ∀ k, t'.producer? k = (t.producer? k).map fun p => { p with layer := φ p.layer }

/-- After the same calls in another order, the layers are those of the same origins. -/
theorem TwoOrders.reordered (h : TwoOrders base t calls origins base' t' calls' origins')
    (hbase : base.graph.Coherent) (hmodel : t'.model = t.model) :
    Reordered (repositioning h.perm h.left.nodup) t t' where
  model := hmodel
  isomorphism := ⟨h.content? hbase, h.boundary hbase⟩
  fixed := fun _ hid => reposition_of_length_le (h.left.length ▸ hid)
  producer? := h.producer?

/-! ### Finishing -/

/-- An output is added at the same position, and reads the corresponding layer. -/
theorem Reordered.addOutput (h : Reordered φ t t') (hvalid : Valid model standIn t supply)
    (hvalid' : Valid model standIn t' supply')
    (hrun : (t.addOutput tensor).run supply = .ok u s)
    (hrun' : (t'.addOutput tensor).run supply' = .ok u' s') : Reordered φ u u' := by
  obtain ⟨index, source, producer, g, hfound, hproducer, happend, rfl⟩ := addOutput_eq_ok hrun
  obtain ⟨index', source', producer', g', hfound', hproducer', happend', rfl⟩ :=
    addOutput_eq_ok hrun'
  rw [h.model, hfound] at hfound'
  cases hfound'
  rw [h.producer?, hproducer] at hproducer'
  cases hproducer'
  refine ⟨h.model, ?_, fun id hid => ?_, h.producer?⟩
  · exact h.isomorphism.append h.fixed hvalid.grown hvalid'.grown (outputDraft_covers ..)
      happend happend'
  · have hle : t.graph.layers.length + 1 ≤ id := length_append happend ▸ hid
    exact h.fixed id (Nat.le_of_succ_le hle)

theorem Reordered.addOutputs {tensors : List Int32} (h : Reordered φ t t')
    (hvalid : Valid model standIn t supply) (hvalid' : Valid model standIn t' supply')
    (hrun : (tensors.foldlM Lowering.addOutput t).run supply = .ok u s)
    (hrun' : (tensors.foldlM Lowering.addOutput t').run supply' = .ok u' s') :
    Reordered φ u u' := by
  induction tensors generalizing t t' supply supply' with
  | nil =>
    cases hrun
    cases hrun'
    exact h
  | cons tensor tensors ih =>
    rw [List.foldlM_cons, Build.bind_eq_ok_iff] at hrun hrun'
    obtain ⟨t₁, s₁, hstep, hrun⟩ := hrun
    obtain ⟨t₁', s₁', hstep', hrun'⟩ := hrun'
    obtain ⟨_, _, _, -, -, -, -, hvalid₁⟩ := hvalid.addOutput_eq_ok hstep
    obtain ⟨_, _, _, -, -, -, -, hvalid₁'⟩ := hvalid'.addOutput_eq_ok hstep'
    exact ih (h.addOutput hvalid hvalid' hstep hstep') hvalid₁ hvalid₁' hrun hrun'

/-! ### Runs -/

theorem same_of_start (hstart : (start model standIn).run supply = .ok t s)
    (hstart' : (start model standIn).run supply' = .ok t' s') : Same t t' := by
  have hstarts := lockstep_start model standIn supply supply'
  rw [hstart, hstart'] at hstarts
  cases hstarts with
  | ok hsame => exact hsame

/-- Two runs that lower the same operators, each of them equally often, end in isomorphic graphs. It
    does not matter in which order they lower them, whether other calls failed in between, and which
    identities the layers get. The layers of one graph are those of the other one in other places,
    with the same names, kinds and descriptors. Their slots read the same outputs, and the bindings
    have the same order. -/
theorem isomorphic_of_reordered {indices indices' : List Nat} {run run' : Run} {g g' : Graph}
    (h : Run.over? model standIn supply indices = some run)
    (h' : Run.over? model standIn supply' indices' = some run')
    (hlowered : (run.lowered.map Prod.fst).Perm (run'.lowered.map Prod.fst))
    (hfinish : run.lowering.finish.run run.supply = .ok g s)
    (hfinish' : run'.lowering.finish.run run'.supply = .ok g' s') :
    ∃ φ : Equiv.Perm LayerId, Isomorphism φ g g' ∧
      (∀ id, φ id < g'.layers.length ↔ id < g.layers.length) ∧
      (∀ slot, g'.producer? { slot with layer := φ slot.layer } =
        (g.producer? slot).map fun p => { p with layer := φ p.layer }) ∧
      (∀ p, g'.info? { p with layer := φ p.layer } = g.info? p) ∧
      ∀ direction, g'.bindings direction = g.bindings direction := by
  have hvalid := Run.valid_over h
  have hvalid' := Run.valid_over h'
  obtain ⟨base, _, hstart, rfl⟩ := Run.exists_of_over? h
  obtain ⟨base', _, hstart', rfl⟩ := Run.exists_of_over? h'
  -- The calls are numbered, so that those of one operator are told apart.
  obtain ⟨calls, calls', hnodup, hcalls, hmap, hmap'⟩ := exists_numbering hlowered
  obtain ⟨origins, hlayout⟩ := (laidOut_of_start hstart indices).layout calls hnodup hmap
  obtain ⟨origins', hlayout'⟩ :=
    (laidOut_of_start hstart' indices').layout calls' (hcalls.nodup_iff.mp hnodup) hmap'
  have horders : TwoOrders base _ calls origins base' _ calls' origins' :=
    ⟨same_of_start hstart hstart', hcalls, hlayout, hlayout'⟩
  have hreordered := horders.reordered (valid_of_start hstart).grown.sound.coherent
    (hvalid'.sameModel.trans hvalid.sameModel.symm)
  obtain ⟨u, houtputs, -, rfl⟩ := finish_eq_ok_iff.mp hfinish
  obtain ⟨u', houtputs', -, rfl⟩ := finish_eq_ok_iff.mp hfinish'
  rw [hreordered.model] at houtputs'
  have hiso := (hreordered.addOutputs hvalid hvalid' houtputs houtputs').isomorphism
  exact ⟨_, hiso, hiso.lt_iff, hiso.producer?, hiso.info?, hiso.bindings⟩

/-- A model with two operators that read one constant. The second one reads another constant too. -/
def sharedConstant : Model where
  tensors := [
    { name := "x", shape := [1], storage := .float32 },
    { name := "k", shape := [1], storage := .float32, data := some [0, 0, 128, 63] },
    { name := "m", shape := [1], storage := .float32, data := some [0, 0, 0, 64] },
    { name := "y", shape := [1], storage := .float32 },
    { name := "z", shape := [1], storage := .float32 }]
  operators := [
    { code := .add, inputs := [0, 1], outputs := [3] },
    { code := .mul, inputs := [2, 1], outputs := [4] }]
  inputs := [0]
  outputs := [3, 4]

/-- What a run over the operators gives is known when it has been computed. -/
theorem exists_finished (model : Model) (indices : List Nat) (names : List String)
    (h : (Run.over? model false .initial indices).map (fun run =>
      (run.lowered.map Prod.fst,
        (run.lowering.finish.run' run.supply).map fun g => g.layers.map (·.name))) =
      some (indices, some names)) :
    ∃ run g s, Run.over? model false .initial indices = some run ∧
      run.lowered.map Prod.fst = indices ∧ run.lowering.finish.run run.supply = .ok g s ∧
      g.layers.map (·.name) = names := by
  obtain ⟨run, hrun, heq⟩ := Option.map_eq_some_iff.mp h
  obtain ⟨hlowered, hfinished⟩ := Prod.mk.inj heq
  obtain ⟨g, hg, hnames⟩ := Option.map_eq_some_iff.mp hfinished
  obtain ⟨s, hfinish⟩ := Build.exists_run_of_eq_some hg
  exact ⟨run, g, s, hrun, hlowered, hfinish, hnames⟩

/-- The constant that is shared is made once in both orders, but not by the same operator. -/
theorem isomorphic_of_reordered_sharedConstant :
    ∃ run run' g g' s s',
      Run.over? sharedConstant false .initial [0, 1] = some run ∧
      Run.over? sharedConstant false .initial [1, 0] = some run' ∧
      run.lowering.finish.run run.supply = .ok g s ∧
      run'.lowering.finish.run run'.supply = .ok g' s' ∧
      g.layers.map (·.name) =
        ["x", "Constant:k", "Add:0:0", "Constant:m", "Mul:0:1", "y", "z"] ∧
      g'.layers.map (·.name) =
        ["x", "Constant:m", "Constant:k", "Mul:0:1", "Add:0:0", "y", "z"] ∧
      ∃ φ : Equiv.Perm LayerId, Isomorphism φ g g' ∧
        ∀ direction, g'.bindings direction = g.bindings direction := by
  obtain ⟨run, g, s, hrun, hlowered, hfinish, hnames⟩ := exists_finished sharedConstant [0, 1]
    ["x", "Constant:k", "Add:0:0", "Constant:m", "Mul:0:1", "y", "z"] (by decide +kernel)
  obtain ⟨run', g', s', hrun', hlowered', hfinish', hnames'⟩ := exists_finished sharedConstant
    [1, 0] ["x", "Constant:m", "Constant:k", "Mul:0:1", "Add:0:0", "y", "z"] (by decide +kernel)
  have hperm : (run.lowered.map Prod.fst).Perm (run'.lowered.map Prod.fst) := by
    rw [hlowered, hlowered']
    exact List.Perm.swap 1 0 []
  obtain ⟨φ, hiso, -, -, -, hbindings⟩ :=
    isomorphic_of_reordered hrun hrun' hperm hfinish hfinish'
  exact ⟨run, run', g, g', s, s', hrun, hrun', hfinish, hfinish', hnames, hnames', φ, hiso,
    hbindings⟩

end Lowering

end LayerGraph
