import LayerGraph.Graph.Session
import LayerGraph.Proofs.Graph.Arrangement

/-! # Any sequence of calls

  A session goes on after a refused call, so a graph is reached by calls of which some may have
  failed. Main statement: whatever was called, the graph is coherent, and a call that fails leaves
  it as it is (`run_coherent`).

  A call changes the graph in place, one part after the other, and only a look at the graph can
  fail. All looks come before the first change. So a call does in place what is done to a graph
  that is a value, and changes nothing when it fails (`Editing.Does`, `Editing.run_addLayer`).

  The identities of a graph are numbers that the supply has given away already, which is why
  the next one is new. This is the only fact needed beside coherence.
-/

namespace LayerGraph

namespace Editing

variable {α β : Type} {s : Session}

/-! ### Looking before changing -/

/-- What comes after a look sees the same session, and a look that fails is the end. -/
theorem run_look_bind (question : Graph → Except GraphError α) (f : α → Editing β) :
    (look question >>= f).run s =
      match question s.graph with
      | .ok a => (f a).run s
      | .error e => .error e s := by
  have hlook : (look question).run s =
      match question s.graph with
      | .ok a => .ok a s
      | .error e => .error e s := rfl
  rw [EStateM.run_bind, hlook]
  cases question s.graph <;> rfl

/-! ### Changes in place and their results -/

/-- The changes of a new layer one after another make the layer and its entries. -/
theorem run_addLayer (kind : LayerKind) (name : String) :
    (addLayer kind name).run s =
      match s.graph.addLayer s.supply.next kind name with
      | .ok g => .ok s.graph.layers.length ⟨g, s.supply.advance⟩
      | .error e => .error e s := by
  unfold addLayer checkBinding Graph.addLayer
  rw [run_look_bind]
  cases kind with
  | input binding =>
    dsimp only
    cases (s.graph.findBinding? .input binding).isSome <;> rfl
  | output binding =>
    dsimp only
    cases (s.graph.findBinding? .output binding).isSome <;> rfl
  | _ => rfl

end Editing

namespace Session

/-- The session with the graph that a change gives, or as it is when the change is refused. -/
def settle (s : Session) : Except GraphError Graph → EStateM.Result GraphError Session Unit
  | .ok g => .ok () { s with graph := g }
  | .error e => .error e s

end Session

namespace Editing

/-- The computation does in place what `f` does to a graph: it leaves the graph that `f` gives, or
    fails as `f` does and leaves the session as it is. -/
def Does (x : Editing Unit) (f : Graph → Except GraphError Graph) : Prop :=
  ∀ s, x.run s = s.settle (f s.graph)

variable {α : Type} {x : Editing Unit} {f : Graph → Except GraphError Graph}

theorem does_change (f : Graph → Graph) : Does (change f) fun g => .ok (f g) := fun _ => rfl

theorem does_throw (e : GraphError) : Does (throw e) fun _ => throw e := fun _ => rfl

/-- What comes after a look is done to the graph that was looked at. -/
theorem does_look {question : Graph → Except GraphError α} {k : α → Editing Unit}
    {k' : α → Graph → Except GraphError Graph} (hk : ∀ a, Does (k a) (k' a)) :
    Does (look question >>= k) fun g => question g >>= fun a => k' a g := by
  intro s
  rw [run_look_bind]
  show _ = s.settle (question s.graph >>= fun a => k' a s.graph)
  cases question s.graph with
  | error e => rfl
  | ok a => exact hk a s

theorem does_check {c : Prop} [Decidable c] {e : GraphError} (hx : Does x f) :
    Does (if c then throw e >>= fun _ : PUnit => x else x)
      fun g => if c then throw e >>= fun _ : PUnit => f g else f g := by
  intro s
  split
  · rfl
  · exact hx s

/-- A check whose condition is looked up. -/
theorem does_refuse {p : Graph → Bool} {e : GraphError} (hx : Does x f) :
    Does (look (fun g => .ok (p g)) >>= fun holds =>
        if holds then throw e >>= fun _ : PUnit => x else x)
      fun g => if p g then throw e >>= fun _ : PUnit => f g else f g := by
  intro s
  exact does_check (c := p s.graph = true) hx s

/-- The two ends of a connection are recorded one after the other, and nothing fails between. -/
theorem does_connect (source : OutputRef) (target : InputRef) :
    Does (connect source target) fun g => g.connect source target := by
  refine does_look fun producer => does_check (does_look fun consumer => ?_)
  cases consumer.inputs[target.index]? with
  | none => exact does_throw _
  | some slot =>
    cases slot with
    | some source => exact does_throw _
    | none => exact does_refuse fun _ => rfl

theorem does_setInfo (slot : OutputRef) (info : TensorInfo) :
    Does (setInfo slot info) fun g => g.setInfo slot info :=
  does_look fun _ => does_check (does_change _)

theorem does_reorder (direction : Direction) (order : List BindingId) :
    Does (reorder direction order) fun g => g.reorder direction order :=
  does_look fun _ => does_change _

/-! ### Failures -/

/-- The computation leaves the session as it is when it fails, whatever it would have changed. -/
def Keeps (x : Editing α) : Prop := ∀ s e s', x.run s = .error e s' → s' = s

/-- A computation that enters an input and then fails does not keep the session. -/
example : ¬ Keeps (do enterBoundary (.input 0) 0; throw (.unknownLayer 0) : Editing Unit) := by
  intro h
  have hsame := h (.start .initial) (.unknownLayer 0) _ rfl
  have hinputs : [0] = ([] : List LayerId) := congrArg (fun s => s.graph.inputs) hsame
  cases hinputs

theorem Does.keeps (hx : Does x f) : Keeps x := by
  intro s e s' h
  rw [hx s] at h
  cases hf : f s.graph with
  | ok g =>
    rw [hf] at h
    cases h
  | error e' =>
    rw [hf] at h
    cases h
    rfl

theorem keeps_addLayer (kind : LayerKind) (name : String) : Keeps (addLayer kind name) := by
  intro s e s' h
  rw [run_addLayer] at h
  cases hadd : s.graph.addLayer s.supply.next kind name with
  | ok g =>
    rw [hadd] at h
    cases h
  | error e' =>
    rw [hadd] at h
    cases h
    rfl

/-- To answer cannot fail. -/
theorem Keeps.answer {β : Type} {x : Editing α} (hx : Keeps x) (answer : α → β) :
    Keeps (x >>= fun a => pure (answer a)) := by
  intro s e s' h
  rw [EStateM.run_bind] at h
  cases hrun : x.run s with
  | ok a t =>
    rw [hrun] at h
    cases h
  | error e' t =>
    rw [hrun] at h
    cases h
    exact hx s _ _ hrun

/-- A call that fails changes nothing. -/
theorem keeps_perform (call : Call) : Keeps (perform call) := by
  cases call with
  | addLayer kind name => exact (keeps_addLayer kind name).answer _
  | connect source target => exact (does_connect source target).keeps.answer _
  | setInfo slot info => exact (does_setInfo slot info).keeps.answer _
  | reorder direction order => exact (does_reorder direction order).keeps.answer _
  | addElsewhere => exact nofun

end Editing

namespace Session

variable {s : Session} {call : Call}

/-! ### What a call does -/

/-- All that a call can do to a session. -/
inductive Step (s : Session) : Call → Session → Prop where
  /-- A refused call changes nothing. -/
  | refused (call : Call) : Step s call s
  | added {kind : LayerKind} {name : String} {g : Graph}
      (h : Graph.Added s.graph s.supply.next kind name g) :
      Step s (.addLayer kind name) ⟨g, s.supply.advance⟩
  | linked {source : OutputRef} {target : InputRef} (hsource : s.graph.HasOutput source)
      (htarget : s.graph.HasInput target) (hfree : s.graph.producer? target = none)
      (hreach : s.graph.reaches target.layer source.layer = false) :
      Step s (.connect source target) ⟨s.graph.link source target, s.supply⟩
  | described (slot : OutputRef) (info : TensorInfo) :
      Step s (.setInfo slot info) ⟨s.graph.describe slot info, s.supply⟩
  | arranged {direction : Direction} {ids : List LayerId} (order : List BindingId)
      (hperm : ids.Perm (s.graph.boundary direction)) :
      Step s (.reorder direction order) ⟨s.graph.setBoundary direction ids, s.supply⟩
  | elsewhere : Step s .addElsewhere ⟨s.graph, s.supply.advance⟩

/-- The answer to a call that adds a layer. -/
theorem ask_addLayer (s : Session) (kind : LayerKind) (name : String) :
    s.ask (.addLayer kind name) =
      match s.graph.addLayer s.supply.next kind name with
      | .ok g => (⟨g, s.supply.advance⟩, .ok (some s.graph.layers.length))
      | .error e => (s, .error e) := by
  unfold ask Editing.perform
  rw [EStateM.run_bind, Editing.run_addLayer]
  cases s.graph.addLayer s.supply.next kind name <;> rfl

/-- A call that makes no layer does to the graph what it does to a graph that is a value. -/
theorem step_of_does {x : Editing Unit} {f : Graph → Except GraphError Graph} (hx : x.Does f)
    (hcall : Editing.perform call = x >>= fun _ => pure none)
    (hstep : ∀ g, f s.graph = .ok g → s.Step call ⟨g, s.supply⟩) : s.Step call (s.ask call).1 := by
  unfold ask
  rw [hcall, EStateM.run_bind, hx s]
  cases h : f s.graph with
  | error e => exact .refused call
  | ok g => exact hstep g h

theorem step_ask (s : Session) (call : Call) : s.Step call (s.ask call).1 := by
  -- One kind of step for each call; a call that fails is a step that refuses.
  cases call with
  | addLayer kind name =>
    rw [ask_addLayer]
    cases hadd : s.graph.addLayer s.supply.next kind name with
    | error e => exact .refused _
    | ok g => exact .added (Graph.addLayer_eq_ok_iff.mp hadd)
  | connect source target =>
    refine step_of_does (Editing.does_connect source target) rfl fun g h => ?_
    obtain ⟨hsource, htarget, hfree, hreach, rfl⟩ := Graph.connect_eq_ok_iff.mp h
    exact .linked hsource htarget hfree hreach
  | setInfo slot info =>
    refine step_of_does (Editing.does_setInfo slot info) rfl fun g h => ?_
    obtain ⟨-, rfl⟩ := Graph.setInfo_eq_ok_iff.mp h
    exact .described slot info
  | reorder direction order =>
    refine step_of_does (Editing.does_reorder direction order) rfl fun g h => ?_
    obtain ⟨ids, harr, rfl⟩ := Graph.reorder_eq_ok_iff.mp h
    exact .arranged order (Graph.perm_of_arrangement harr)
  | addElsewhere => exact .elsewhere

/-! ### The invariant of a session -/

/-- The graph is coherent, and its layers have numbers that were given away. -/
structure Sound (s : Session) : Prop where
  coherent : s.graph.Coherent
  spent : ∀ id guid, s.graph.guid? id = some guid → guid.number < s.supply.next.number

variable {g : Graph}

theorem Sound.next_fresh (hs : s.Sound) (id : LayerId) : s.graph.guid? id ≠ some s.supply.next := by
  intro h
  exact Nat.lt_irrefl _ (hs.spent id s.supply.next h)

/-- The new layer takes the next number, and the supply moves on. -/
theorem Sound.added {kind : LayerKind} {name : String} (hs : s.Sound)
    (h : Graph.Added s.graph s.supply.next kind name g) : Sound ⟨g, s.supply.advance⟩ where
  coherent := hs.coherent.added h hs.next_fresh
  spent := by
    intro id guid hguid
    rw [h.guid?] at hguid
    split at hguid
    · cases hguid
      exact Nat.lt_succ_self _
    · exact Nat.lt_succ_of_lt (hs.spent id guid hguid)

/-- Every call keeps a session sound. -/
theorem Sound.step {t : Session} (hs : s.Sound) (h : s.Step call t) : t.Sound := by
  cases h with
  | refused => exact hs
  | added h => exact hs.added h
  | linked hsource htarget hfree hreach =>
    exact ⟨hs.coherent.link hsource htarget hfree hreach, by simpa using hs.spent⟩
  | described slot info => exact ⟨hs.coherent.describe slot info, by simpa using hs.spent⟩
  | arranged order hperm =>
    exact ⟨hs.coherent.setBoundary hperm, by simpa using hs.spent⟩
  | elsewhere => exact ⟨hs.coherent, fun id guid h => Nat.lt_succ_of_lt (hs.spent id guid h)⟩

theorem Sound.ask (hs : s.Sound) (call : Call) : (s.ask call).1.Sound :=
  hs.step (s.step_ask call)

theorem sound_start (supply : GuidSupply) : (start supply).Sound where
  coherent := Graph.coherent_empty
  spent := by simp [start, Graph.empty, Graph.guid?]

/-- Any calls keep a session sound. -/
theorem Sound.run (hs : s.Sound) (calls : List Call) : (s.run calls).Sound := by
  induction calls generalizing s with
  | nil => exact hs
  | cons call calls ih => exact ih (hs.ask call)

/-- A call that answers an error leaves graph and supply as they were. -/
theorem ask_of_error {e : GraphError} (h : (s.ask call).2 = .error e) : (s.ask call).1 = s := by
  unfold ask at h ⊢
  cases hrun : (Editing.perform call).run s with
  | ok answer s' =>
    rw [hrun] at h
    cases h
  | error e' s' => exact Editing.keeps_perform call s e' s' hrun

/-- Whatever was called, and whichever calls failed: the graph is coherent, the ends of each
    connection are slots of it, and the next call changes nothing if it fails. -/
theorem run_coherent (supply : GuidSupply) (calls : List Call) :
    ((start supply).run calls).graph.Coherent ∧
      (∀ source target, ((start supply).run calls).graph.producer? target = some source →
        ((start supply).run calls).graph.HasOutput source ∧
          ((start supply).run calls).graph.HasInput target) ∧
      ∀ call e, (((start supply).run calls).ask call).2 = .error e →
        (((start supply).run calls).ask call).1 = (start supply).run calls := by
  have hsound := (sound_start supply).run calls
  refine ⟨hsound.coherent, fun source target h => hsound.coherent.linked.ends_exist h, ?_⟩
  intro call e h
  exact ask_of_error h

end Session

end LayerGraph
