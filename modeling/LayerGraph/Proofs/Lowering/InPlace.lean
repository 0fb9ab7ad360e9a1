import LayerGraph.Lowering.InPlace
import LayerGraph.Proofs.Graph.Restoring

/-! # Lowering in place and its result

  A lowering that is changed in place goes through states that no caller should see: the layers
  of an operator are there one by one, and the last of them may be refused. Here the computation
  in place is compared with the one that gives a new lowering or nothing at all. They do the same
  to the graph and the supply, step for step (`Follows`), and what is there in between can be
  undone (`Undoable`). Main statement: an operator is lowered in place exactly when it is lowered,
  with the same result, and otherwise the lowering is what it was (`InPlace.lower_cases`).
-/

namespace LayerGraph

namespace Lowering

open LayerGraph.Graph

variable {t : Lowering} {site site' : Site} {index : Nat} {e : LoweringError}

/-- The lowering `t`, while new layers are made behind those of its graph. -/
structure Undoable (t : Lowering) (site : Site) : Prop where
  /-- Nothing but the graph has changed. -/
  lowering : site.lowering = { t with graph := site.lowering.graph }
  restorable : Restorable t.graph site.lowering.graph
  /-- The numbers to come are none of those of the older layers. -/
  fresh : ∀ entry ∈ t.graph.guids.entries, entry.1.number < site.supply.next.number

theorem Undoable.setGraph {g : Graph} {supply : GuidSupply} (h : Undoable t site)
    (hg : Restorable t.graph g) (hle : site.supply.next.number ≤ supply.next.number) :
    Undoable t ⟨{ site.lowering with graph := g }, supply⟩ where
  lowering := by
    rw [h.lowering]
  restorable := hg
  fresh := fun entry hentry => Nat.lt_of_lt_of_le (h.fresh entry hentry) hle

/-- Nothing has to be undone before the first layer. -/
theorem undoable_self (h : Session.Sound ⟨site.lowering.graph, site.supply⟩) :
    Undoable site.lowering site where
  lowering := rfl
  restorable := h.coherent.restorable
  fresh := by
    intro entry hentry
    -- An entry of the table belongs to a layer, whose number was given away.
    obtain ⟨id, hid⟩ : ∃ id, site.lowering.graph.guids.find? entry.1 = some id := by
      rw [← Option.isSome_iff_exists, GuidTable.find?, List.lookup_isSome_iff]
      exact ⟨entry, hentry, beq_self_eq_true _⟩
    exact h.spent id entry.1 ((h.coherent.guids entry.1 id).mp hid)

namespace InPlace

variable {α β γ δ ζ : Type}

/-- The computation `x` does to the graph in place what `f` does to a graph: it gives the same
    answer, which `view` takes from its own answer and the graph that it leaves. It fails when `f`
    fails, with the same error. What it leaves can be undone in both cases, and its answers have
    the property `p`. -/
def Follows (t : Lowering) (x : InPlace GraphError β) (f : Graph → Build GraphError γ)
    (view : β → Graph → γ) (p : β → Prop) : Prop :=
  ∀ site, Undoable t site →
    match x.run site with
    | .ok b site' =>
      (f site.lowering.graph).run site.supply = .ok (view b site'.lowering.graph) site'.supply ∧
        Undoable t site' ∧ p b
    | .error cause site' =>
      (f site.lowering.graph).run site.supply = .error cause site'.supply ∧ Undoable t site'

variable {x : InPlace GraphError β} {f : Graph → Build GraphError γ} {view : β → Graph → γ}
variable {p : β → Prop}

/-! ### Rules -/

theorem follows_pure {b : β} {answer : Graph → γ} (hanswer : ∀ g, answer g = view b g)
    (hb : p b) : Follows t (pure b) (fun g => pure (answer g)) view p := by
  intro site hsite
  show EStateM.Result.ok (answer site.lowering.graph) site.supply = _ ∧ _
  rw [hanswer]
  exact ⟨rfl, hsite, hb⟩

/-- What comes after the first part sees its answer, and the graph that it leaves. -/
theorem Follows.bind {k : β → InPlace GraphError δ} {next : γ → Build GraphError ζ}
    {view' : δ → Graph → ζ} {q : δ → Prop} (hx : Follows t x f view p)
    (hk : ∀ b, p b → Follows t (k b) (fun g => next (view b g)) view' q) :
    Follows t (x >>= k) (fun g => f g >>= next) view' q := by
  intro site hsite
  have hfirst := hx site hsite
  rw [EStateM.run_bind]
  cases hrun : x.run site with
  | error cause site₁ =>
    rw [hrun] at hfirst
    exact ⟨Build.run_bind_error hfirst.1, hfirst.2⟩
  | ok b site₁ =>
    rw [hrun] at hfirst
    obtain ⟨hf, hsite₁, hb⟩ := hfirst
    have hrest := hk b hb site₁ hsite₁
    rw [Build.run_bind_of_ok hf]
    exact hrest

/-- A fold follows the fold whose items do the same. -/
theorem follows_foldlM {step : β → α → InPlace GraphError β} {step' : γ → α → Build GraphError γ}
    (hstep : ∀ b a, p b → Follows t (step b a) (fun g => step' (view b g) a) view p)
    (xs : List α) {b : β} {first : Graph → γ} (hfirst : ∀ g, first g = view b g) (hb : p b) :
    Follows t (xs.foldlM step b) (fun g => xs.foldlM step' (first g)) view p := by
  simp only [hfirst]
  induction xs generalizing b first with
  | nil => exact follows_pure (fun _ => rfl) hb
  | cons a xs ih =>
    simp only [List.foldlM_cons]
    exact (hstep b a hb).bind fun b' hb' => ih (fun _ => rfl) hb'

/-- So does a loop over changes of the graph. -/
theorem follows_forM {step : α → InPlace GraphError PUnit}
    {step' : Graph → α → Build GraphError Graph}
    (hstep : ∀ a, Follows t (step a) (fun g => step' g a) (fun _ g => g) fun _ => True)
    (xs : List α) :
    Follows t (xs.forM step) (fun g => xs.foldlM step' g) (fun _ g => g) fun _ => True := by
  induction xs with
  | nil => exact follows_pure (fun _ => rfl) trivial
  | cons a xs ih =>
    simp only [List.foldlM_cons]
    exact (hstep a).bind fun _ _ => ih

/-! ### Changes of the graph -/

theorem run_edit (x : Editing α) : (edit x).run site =
    match x.run site.session with
    | .ok a s => .ok a (site.enter s)
    | .error cause s => .error cause (site.enter s) := by
  show edit x site = _
  unfold edit
  cases x.run site.session <;> rfl

/-- A layer is added behind those that stay. -/
theorem follows_add (kind : LayerKind) (name : String) :
    Follows t (add kind name) (fun g => g.insert kind name) Prod.mk
      fun id => t.graph.layers.length ≤ id := by
  intro site hsite
  rw [add, run_edit, Editing.run_addLayer]
  simp only [Graph.insert, EStateM.run, Site.session]
  cases hadd : site.lowering.graph.addLayer site.supply.next kind name with
  | error cause => exact ⟨rfl, hsite⟩
  | ok g =>
    have hnew : ∀ entry ∈ t.graph.guids.entries, entry.1 ≠ site.supply.next := by
      intro entry hentry heq
      have hlt := hsite.fresh entry hentry
      rw [heq] at hlt
      exact Nat.lt_irrefl _ hlt
    have hgrown := hsite.restorable.added (addLayer_eq_ok_iff.mp hadd) hnew
    exact ⟨rfl, hsite.setGraph hgrown (Nat.le_succ _), hsite.restorable.length_le⟩

/-- What is done to the graph in place can be undone when the new graph can. -/
theorem follows_edit {x : Editing Unit} {change : Graph → Except GraphError Graph}
    (hx : x.Does change)
    (hchange : ∀ g g', Restorable t.graph g → change g = .ok g' → Restorable t.graph g') :
    Follows t (edit x) (fun g => Build.ofExcept (change g)) (fun _ g => g) fun _ => True := by
  intro site hsite
  rw [run_edit, hx]
  dsimp only [Site.session]
  cases h : change site.lowering.graph with
  | error cause => exact ⟨rfl, hsite⟩
  | ok g =>
    exact ⟨rfl, hsite.setGraph (hchange _ g hsite.restorable h) (Nat.le_refl _), trivial⟩

/-- The descriptors of a new layer are set. -/
theorem follows_setInfo (slot : OutputRef) (info : TensorInfo)
    (hslot : t.graph.layers.length ≤ slot.layer) :
    Follows t (setInfo slot info) (fun g => Build.ofExcept (g.setInfo slot info)) (fun _ g => g)
      fun _ => True := by
  refine follows_edit (Editing.does_setInfo slot info) (fun g g' hg hset => ?_)
  obtain ⟨-, rfl⟩ := setInfo_eq_ok_iff.mp hset
  exact hg.describe hslot

/-- The inputs of a new layer are connected. -/
theorem follows_connect (source : OutputRef) (target : InputRef)
    (htarget : t.graph.layers.length ≤ target.layer) :
    Follows t (connect source target) (fun g => Build.ofExcept (g.connect source target))
      (fun _ g => g) fun _ => True := by
  refine follows_edit (Editing.does_connect source target) (fun g g' hg hconnect => ?_)
  obtain ⟨-, -, -, -, rfl⟩ := connect_eq_ok_iff.mp hconnect
  exact hg.link htarget

/-! ### The layers of a plan -/

theorem follows_addPlanned (planned : PlannedLayer) :
    Follows t (addPlanned planned) (fun g => Lowering.addPlanned g planned) Prod.mk
      fun id => t.graph.layers.length ≤ id := by
  unfold addPlanned Lowering.addPlanned
  refine (follows_add planned.kind planned.name).bind fun layer hlayer => ?_
  refine (follows_forM ?_ planned.outputs.zipIdx).bind fun _ _ => ?_
  · intro entry
    exact follows_setInfo ⟨layer, entry.2⟩ entry.1 hlayer
  · exact follows_pure (fun _ => rfl) hlayer

theorem follows_addConstant (known : Known) (c : PendingConstant) :
    Follows t (addConstant known c)
      (fun g => Lowering.addConstant ⟨g, known.sources, known.made, []⟩ c)
      (fun known g => ⟨g, known.sources, known.made, []⟩) fun _ => True := by
  unfold addConstant Lowering.addConstant
  dsimp only
  refine (follows_add (.constant c.constant) c.name).bind fun layer hlayer => ?_
  dsimp only
  have hinfo := follows_setInfo (t := t) ⟨layer, 0⟩ c.constant.info hlayer
  refine hinfo.bind fun _ _ => ?_
  exact follows_pure (fun _ => rfl) trivial

theorem follows_addReshape (known : Known) (reshapes : List LayerId) (tensor : Nat)
    (planned : PlannedLayer) :
    Follows t (addReshape known reshapes tensor planned)
      (fun g => Lowering.addReshape ⟨g, known.sources, known.made, reshapes⟩ tensor planned)
      (fun reshapes g => ⟨g, known.sources, known.made, reshapes⟩) fun _ => True := by
  unfold addReshape Lowering.addReshape
  have hsource (g : Graph) : Assembly.source ⟨g, known.sources, known.made, reshapes⟩ tensor =
      known.source tensor := rfl
  simp only [hsource]
  refine (follows_addPlanned planned).bind fun layer hlayer => ?_
  dsimp only
  have hfed := follows_connect (t := t) (known.source tensor) ⟨layer, 0⟩ hlayer
  refine hfed.bind fun _ _ => ?_
  exact follows_pure (fun _ => rfl) trivial

theorem follows_addFollower (last : LayerId) (planned : PlannedLayer) :
    Follows t (addFollower last planned) (fun g => Lowering.addFollower (g, last) planned)
      (fun next g => (g, next)) fun _ => True := by
  unfold addFollower Lowering.addFollower
  dsimp only
  refine (follows_addPlanned planned).bind fun next hnext => ?_
  dsimp only
  have hfed := follows_connect (t := t) ⟨last, 0⟩ ⟨next, 0⟩ hnext
  refine hfed.bind fun _ _ => ?_
  exact follows_pure (fun _ => rfl) trivial

/-- The layers of a plan are made in place as they are made. -/
theorem follows_build (plan : Plan) (sources : List (Nat × OutputRef))
    (constants : List PendingConstant) :
    Follows t (build plan sources constants) (fun g => Lowering.build g plan sources constants)
      (fun answer g => ⟨g, answer.1, answer.2⟩) fun _ => True := by
  unfold build Lowering.build
  -- Constants, reshapes, the primary layer, its connections, the chain.
  refine (follows_foldlM (fun known c _ => follows_addConstant known c) constants
    (fun _ => rfl) trivial).bind fun known _ => ?_
  refine Follows.bind (show Follows t _ _ (fun reshapes g =>
      (⟨g, known.sources, known.made, reshapes⟩ : Assembly)) fun _ => True from
    follows_foldlM ?_ plan.reshapes (fun _ => rfl) trivial) fun reshapes _ => ?_
  · intro reshapes entry _
    exact follows_addReshape known reshapes entry.1 entry.2
  have hslot (g : Graph) : Assembly.slot ⟨g, known.sources, known.made, reshapes⟩ =
      known.slot reshapes := by
    funext source
    cases source <;> rfl
  simp only [hslot]
  refine (follows_addPlanned plan.primary).bind fun primary hprimary => ?_
  dsimp only
  refine (follows_forM ?_ plan.inputs.zipIdx).bind fun _ _ => ?_
  · intro entry
    exact follows_connect _ ⟨primary, entry.2⟩ hprimary
  refine (follows_foldlM (fun last planned _ => follows_addFollower last planned) plan.tail
    (fun _ => rfl) trivial).bind fun last _ => ?_
  exact follows_pure (fun _ => rfl) trivial

/-! ### Operators -/

/-- An operator is prepared before its layers are made. -/
theorem lower_eq_prepare (t : Lowering) (index : Nat) :
    t.lower index = (do
      let (plan, sources, constants) ← Build.ofExcept (t.prepare index)
      let built ← (Lowering.build t.graph plan sources constants).adaptExcept (.graph index)
      return ⟨{ t with graph := built.graph, producers := built.produced ++ t.producers },
        built.primary⟩) := by
  unfold Lowering.lower prepare
  cases Plan.ofOperator t.model index t.standIn with
  | error e => rfl
  | ok plan =>
    cases hsources : t.sourcesOf index plan with
    | error e =>
      show Build.ofExcept (t.sourcesOf index plan) >>= _ =
        Build.ofExcept (t.sourcesOf index plan >>= _) >>= _
      rw [hsources]
      rfl
    | ok found =>
      show Build.ofExcept (t.sourcesOf index plan) >>= _ =
        Build.ofExcept (t.sourcesOf index plan >>= _) >>= _
      rw [hsources]
      show Build.ofExcept (t.checkOutputs index plan) >>= _ =
        Build.ofExcept (t.checkOutputs index plan >>= _) >>= _
      cases t.checkOutputs index plan with
      | error e => rfl
      | ok _ => rfl

/-- An operator is lowered in place as it is lowered. When it is refused, the lowering is exactly
    what it was; only the numbers are spent that were given to layers. -/
theorem lower_cases (h : Session.Sound ⟨site.lowering.graph, site.supply⟩) (index : Nat) :
    match (lower index).run site with
    | .ok primary site' =>
      (site.lowering.lower index).run site.supply = .ok ⟨site'.lowering, primary⟩ site'.supply
    | .error e site' =>
      (site.lowering.lower index).run site.supply = .error e site'.supply ∧
        site'.lowering = site.lowering := by
  have hrun : (lower index).run site = lower index site := rfl
  rw [hrun, lower, lower_eq_prepare]
  dsimp only
  cases hprepared : site.lowering.prepare index with
  | error e =>
    -- Nothing has been made yet.
    exact ⟨rfl, rfl⟩
  | ok prepared =>
    obtain ⟨plan, sources, constants⟩ := prepared
    have hbuild := follows_build (t := site.lowering) plan sources constants site (undoable_self h)
    dsimp only at hbuild ⊢
    cases hmade : (build plan sources constants).run site with
    | ok answer site' =>
      rw [hmade] at hbuild
      obtain ⟨hok, hundoable, -⟩ := hbuild
      have hbuilt := Build.adaptExcept_eq_ok_iff (f := LoweringError.graph index).mpr hok
      show ((Lowering.build _ plan sources constants).adaptExcept _ >>= _).run _ = _
      rw [Build.run_bind_of_ok hbuilt, hundoable.lowering]
      rfl
    | error cause site' =>
      rw [hmade] at hbuild
      obtain ⟨herror, hundoable⟩ := hbuild
      have hrefused : ((Lowering.build site.lowering.graph plan sources constants).adaptExcept
          (LoweringError.graph index)).run site.supply = .error (.graph index cause) site'.supply :=
        Build.adaptExcept_eq_error_iff.mpr ⟨cause, herror, rfl⟩
      constructor
      · show ((Lowering.build _ plan sources constants).adaptExcept _ >>= _).run _ = _
        rw [Build.run_bind_error hrefused]
      -- The layers that were made are taken back.
      · show { site'.lowering with
          graph := site'.lowering.graph.rollback site.lowering.graph.checkpoint } = site.lowering
        rw [hundoable.restorable.rollback_checkpoint, hundoable.lowering]

end InPlace

end Lowering

end LayerGraph
