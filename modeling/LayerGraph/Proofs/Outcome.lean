import LayerGraph.Graph.Layer
import Mathlib.Data.List.Forall2
import Mathlib.Data.List.Induction

/-! # Computations that give a result

  A computation that may fail gives a result only when each of its parts does. The lemmas
  here take such a computation apart, for those that make layers and for those that do not,
  and carry an invariant through a fold.

  Three judgments speak of failing as well. `Ends` says how one computation ends; `Agrees` and
  `Lockstep` say that two of them end alike.
-/

namespace LayerGraph

/-- What can be found for every item can be found for all of them. -/
theorem exists_forall₂ {α β : Type} {r : α → β → Prop} {xs : List α}
    (h : ∀ x ∈ xs, ∃ y, r x y) : ∃ ys, List.Forall₂ r xs ys := by
  induction xs with
  | nil => exact ⟨[], .nil⟩
  | cons x xs ih =>
    obtain ⟨⟨y, hy⟩, hxs⟩ := List.forall_mem_cons.mp h
    obtain ⟨ys, hys⟩ := ih hxs
    exact ⟨y :: ys, .cons hy hys⟩

/-- What is found for the items is found for one of them. -/
theorem exists_mem_of_forall₂ {α β : Type} {r : α → β → Prop} {xs : List α} {ys : List β} {y : β}
    (h : List.Forall₂ r xs ys) (hy : y ∈ ys) : ∃ x ∈ xs, r x y := by
  induction h with
  | nil => cases hy
  | @cons x y' xs ys hxy hrest ih =>
    rcases List.mem_cons.mp hy with rfl | hys
    · exact ⟨x, List.mem_cons_self, hxy⟩
    · obtain ⟨x', hx', hr⟩ := ih hys
      exact ⟨x', List.mem_cons_of_mem x hx', hr⟩

/-- Two lists are related through a third one when their items are. -/
theorem forall₂_comp_iff {α β γ : Type} {r : α → β → Prop} {r' : γ → β → Prop} {xs : List α}
    {zs : List γ} :
    (∃ ys, List.Forall₂ r xs ys ∧ List.Forall₂ r' zs ys) ↔
      List.Forall₂ (fun x z => ∃ y, r x y ∧ r' z y) xs zs := by
  constructor
  · rintro ⟨ys, hxs, hzs⟩
    induction hxs generalizing zs with
    | nil =>
      cases hzs
      exact .nil
    | cons hx _ ih =>
      cases hzs with
      | cons hz hzs => exact .cons ⟨_, hx, hz⟩ (ih hzs)
  · intro h
    induction h with
    | nil => exact ⟨[], .nil, .nil⟩
    | cons hhead _ ih =>
      obtain ⟨y, hx, hz⟩ := hhead
      obtain ⟨ys, hxs, hzs⟩ := ih
      exact ⟨y :: ys, .cons hx hxs, .cons hz hzs⟩

section except

variable {ε ε' α β : Type}

/-- A sequence gives a result when its parts do. -/
theorem Except.bind_eq_ok_iff {x : Except ε α} {f : α → Except ε β} {b : β} :
    x >>= f = .ok b ↔ ∃ a, x = .ok a ∧ f a = .ok b := by
  cases x with
  | error e => simp [bind, Except.bind]
  | ok a => simp [bind, Except.bind]

/-- It fails where the first of its parts does that fails. -/
theorem Except.bind_eq_error_iff {x : Except ε α} {f : α → Except ε β} {e : ε} :
    x >>= f = .error e ↔ x = .error e ∨ ∃ a, x = .ok a ∧ f a = .error e := by
  cases x with
  | error e' => simp [bind, Except.bind]
  | ok a => simp [bind, Except.bind]

theorem Except.map_eq_ok_iff {x : Except ε α} {f : α → β} {b : β} :
    x.map f = .ok b ↔ ∃ a, x = .ok a ∧ f a = b := by
  cases x <;> simp [Except.map]

theorem Except.map_eq_error_iff {x : Except ε α} {f : α → β} {e : ε} :
    x.map f = .error e ↔ x = .error e := by
  cases x <;> simp [Except.map]

theorem Except.map_bind {γ : Type} (x : Except ε α) (f : α → Except ε β) (g : β → γ) :
    (x >>= f).map g = x >>= fun a => (f a).map g := by
  cases x <;> rfl

@[simp] theorem Except.pure_eq_ok_iff {a b : α} : (pure a : Except ε α) = .ok b ↔ a = b := by
  simp [pure, Except.pure]

@[simp] theorem Except.throw_ne_ok {e : ε} {b : α} : (throw e : Except ε α) ≠ .ok b := by
  intro h
  cases h

/-- A check that throws is passed when there is a result. -/
theorem Except.check_eq_ok_iff {c : Prop} [Decidable c] {e : ε} {f : β → Except ε α}
    {x : Except ε α} {b : α} :
    (if c then (throw e : Except ε β) >>= f else x) = .ok b ↔ ¬ c ∧ x = .ok b := by
  by_cases h : c
  · rw [if_pos h, Except.bind_eq_ok_iff]
    simp [h]
  · simp [h]

theorem Except.toOption_eq_some_iff {x : Except ε α} {a : α} :
    x.toOption = some a ↔ x = .ok a := by
  cases x with
  | ok b => exact ⟨fun h => by cases h; rfl, fun h => by cases h; rfl⟩
  | error e => exact ⟨nofun, nofun⟩

theorem Except.mapError_eq_ok_iff {x : Except ε α} {f : ε → ε'} {a : α} :
    x.mapError f = .ok a ↔ x = .ok a := by
  cases x <;> simp [Except.mapError]

theorem Except.mapError_eq_error_iff {x : Except ε α} {f : ε → ε'} {e : ε'} :
    x.mapError f = .error e ↔ ∃ cause, x = .error cause ∧ f cause = e := by
  cases x <;> simp [Except.mapError]

theorem Except.mapError_mapError {ε'' : Type} (x : Except ε α) (f : ε → ε') (f' : ε' → ε'') :
    (x.mapError f).mapError f' = x.mapError (f' ∘ f) := by
  cases x <;> rfl

theorem Except.mapError_bind (x : Except ε α) (f : α → Except ε β) (m : ε → ε') :
    (x >>= f).mapError m = x.mapError m >>= fun a => (f a).mapError m := by
  cases x <;> rfl

/-- The errors of the steps are mapped one by one. -/
theorem Except.mapError_forM {f : α → Except ε Unit} {f' : β → Except ε' Unit} {m : ε → ε'}
    {c : α → β} (h : ∀ a, (f a).mapError m = f' (c a)) (xs : List α) :
    (xs.forM f).mapError m = (xs.map c).forM f' := by
  induction xs with
  | nil => rfl
  | cons a xs ih =>
    show (f a >>= fun _ => xs.forM f).mapError m = f' (c a) >>= fun _ => (xs.map c).forM f'
    rw [mapError_bind, h, ih]

/-- What every step of a fold carries from the items before it to one item more holds of its
    result and all items. -/
theorem Except.foldlM_prefix {P : List α → β → Prop} {f : β → α → Except ε β} {xs : List α}
    {b b' : β}
    (hstep : ∀ done, ∀ a ∈ xs, ∀ b b', P done b → f b a = .ok b' → P (done ++ [a]) b')
    (hb : P [] b) (h : xs.foldlM f b = .ok b') : P xs b' := by
  induction xs using List.reverseRecOn generalizing b' with
  | nil =>
    simp only [List.foldlM_nil, Except.pure_eq_ok_iff] at h
    exact h ▸ hb
  | append_singleton xs a ih =>
    rw [List.foldlM_append, Except.bind_eq_ok_iff] at h
    obtain ⟨c, hc, hlast⟩ := h
    simp only [List.foldlM_cons, List.foldlM_nil, bind_pure] at hlast
    have hbefore : P xs c :=
      ih (fun done x hx => hstep done x (List.mem_append_left [a] hx)) hc
    exact hstep xs a (List.mem_append_right xs List.mem_cons_self) c b' hbefore hlast

/-- An invariant of every step of a fold holds of its result. -/
theorem Except.foldlM_invariant {P : β → Prop} {f : β → α → Except ε β} {xs : List α} {b b' : β}
    (hstep : ∀ a ∈ xs, ∀ b b', P b → f b a = .ok b' → P b') (hb : P b)
    (h : xs.foldlM f b = .ok b') : P b' :=
  Except.foldlM_prefix (P := fun _ => P) (fun _ => hstep) hb h

/-- A fold fails at one of its items, which the steps before lead up to. -/
theorem Except.foldlM_eq_error_iff {f : β → α → Except ε β} {xs : List α} {b : β} {e : ε} :
    xs.foldlM f b = .error e ↔ ∃ done a after c, xs = done ++ a :: after ∧
      done.foldlM f b = .ok c ∧ f c a = .error e := by
  constructor
  · intro h
    induction xs generalizing b with
    | nil => cases h
    | cons a xs ih =>
      rw [List.foldlM_cons] at h
      rcases Except.bind_eq_error_iff.mp h with hfirst | ⟨c, hc, hrest⟩
      · exact ⟨[], a, xs, b, rfl, rfl, hfirst⟩
      · obtain ⟨done, a', after, c', rfl, hdone, hfails⟩ := ih hrest
        refine ⟨a :: done, a', after, c', rfl, ?_, hfails⟩
        rw [List.foldlM_cons]
        exact Except.bind_eq_ok_iff.mpr ⟨c, hc, hdone⟩
  · rintro ⟨done, a, after, c, rfl, hdone, hfails⟩
    rw [List.foldlM_append]
    refine Except.bind_eq_error_iff.mpr (.inr ⟨c, hdone, ?_⟩)
    rw [List.foldlM_cons]
    exact Except.bind_eq_error_iff.mpr (.inl hfails)

/-- What a mapped computation gives has an item for each item it is given. -/
theorem Except.mapM_eq_ok_iff {f : α → Except ε β} {xs : List α} {ys : List β} :
    xs.mapM f = .ok ys ↔ List.Forall₂ (fun x y => f x = .ok y) xs ys := by
  induction xs generalizing ys with
  | nil =>
    rw [List.mapM_nil, Except.pure_eq_ok_iff, List.forall₂_nil_left_iff]
    exact eq_comm
  | cons x xs ih =>
    rw [List.mapM_cons, Except.bind_eq_ok_iff]
    constructor
    · rintro ⟨y, hy, h⟩
      obtain ⟨zs, hzs, h⟩ := Except.bind_eq_ok_iff.mp h
      obtain rfl := Except.pure_eq_ok_iff.mp h
      exact .cons hy (ih.mp hzs)
    · rintro (_ | ⟨hy, hrest⟩)
      exact ⟨_, hy, Except.bind_eq_ok_iff.mpr ⟨_, ih.mpr hrest, rfl⟩⟩

/-- It fails at the first item that fails. -/
theorem Except.mapM_eq_error_iff {f : α → Except ε β} {xs : List α} {e : ε} :
    xs.mapM f = .error e ↔ ∃ done x after, xs = done ++ x :: after ∧
      (∀ y ∈ done, ∃ z, f y = .ok z) ∧ f x = .error e := by
  induction xs with
  | nil => simp [pure, Except.pure]
  | cons x xs ih =>
    rw [List.mapM_cons, Except.bind_eq_error_iff]
    constructor
    · rintro (hx | ⟨y, hy, hrest⟩)
      · exact ⟨[], x, xs, rfl, by simp, hx⟩
      · rcases Except.bind_eq_error_iff.mp hrest with hxs | ⟨ys, -, hpure⟩
        · obtain ⟨done, x', after, rfl, hdone, hfails⟩ := ih.mp hxs
          exact ⟨x :: done, x', after, rfl, List.forall_mem_cons.mpr ⟨⟨y, hy⟩, hdone⟩, hfails⟩
        · cases hpure
    · rintro ⟨done, x', after, heq, hdone, hfails⟩
      cases done with
      | nil =>
        cases heq
        exact .inl hfails
      | cons y done =>
        cases heq
        obtain ⟨⟨z, hz⟩, hrest⟩ := List.forall_mem_cons.mp hdone
        refine .inr ⟨z, hz, Except.bind_eq_error_iff.mpr (.inl ?_)⟩
        exact ih.mpr ⟨done, x', after, rfl, hrest, hfails⟩

/-- One item more gives one result more. -/
theorem Except.mapM_concat_eq_ok_iff {f : α → Except ε β} {xs : List α} {zs : List β} {x : α} :
    (xs ++ [x]).mapM f = .ok zs ↔
      ∃ ys y, xs.mapM f = .ok ys ∧ f x = .ok y ∧ zs = ys ++ [y] := by
  constructor
  · intro h
    rw [List.mapM_append, Except.bind_eq_ok_iff] at h
    obtain ⟨ys, hys, h⟩ := h
    obtain ⟨rest, hrest, h⟩ := Except.bind_eq_ok_iff.mp h
    rw [List.mapM_cons, Except.bind_eq_ok_iff] at hrest
    obtain ⟨y, hy, hnil⟩ := hrest
    cases hnil
    cases h
    exact ⟨ys, y, hys, hy, rfl⟩
  · rintro ⟨ys, y, hys, hy, rfl⟩
    rw [Except.mapM_eq_ok_iff] at hys ⊢
    exact List.rel_append hys (.cons hy .nil)

/-- A computation that works for every item can be mapped. -/
theorem Except.exists_mapM_eq_ok {f : α → Except ε β} {xs : List α}
    (h : ∀ x ∈ xs, ∃ y, f x = .ok y) : ∃ ys, xs.mapM f = .ok ys := by
  obtain ⟨ys, hys⟩ := exists_forall₂ h
  exact ⟨ys, Except.mapM_eq_ok_iff.mpr hys⟩

theorem Except.forM_eq_ok_iff {f : α → Except ε PUnit} {xs : List α} :
    xs.forM f = .ok () ↔ ∀ x ∈ xs, f x = .ok () := by
  induction xs with
  | nil => simp [pure, Except.pure]
  | cons x xs ih =>
    show f x >>= _ = _ ↔ _
    rw [Except.bind_eq_ok_iff, List.forall_mem_cons, ← ih]
    constructor
    · rintro ⟨⟨⟩, hx, hxs⟩
      exact ⟨hx, hxs⟩
    · rintro ⟨hx, hxs⟩
      exact ⟨(), hx, hxs⟩

/-- The computation gives an answer with the property `post`, or fails with an error that has the
    property `fails`. -/
inductive Except.Ends (fails : ε → Prop) (post : α → Prop) : Except ε α → Prop
  | ok {a : α} (h : post a) : Ends fails post (.ok a)
  | error {e : ε} (h : fails e) : Ends fails post (.error e)

section ends

variable {fails : ε → Prop} {post : α → Prop} {post' : β → Prop} {x : Except ε α}

theorem Except.Ends.bind {f : α → Except ε β} (hx : Ends fails post x)
    (hf : ∀ a, x = .ok a → post a → Ends fails post' (f a)) : Ends fails post' (x >>= f) := by
  cases hx with
  | ok h => exact hf _ rfl h
  | error h => exact .error h

theorem Except.Ends.mono {post'' : α → Prop} (hx : Ends fails post x)
    (h : ∀ a, post a → post'' a) : Ends fails post'' x := by
  cases hx with
  | ok hpost => exact .ok (h _ hpost)
  | error hfails => exact .error hfails

theorem Except.Ends.post_of_ok {a : α} (hx : Ends fails post x) (h : x = .ok a) : post a := by
  subst h
  cases hx with
  | ok hpost => exact hpost

theorem Except.Ends.fails_of_error {e : ε} (hx : Ends fails post x) (h : x = .error e) :
    fails e := by
  subst h
  cases hx with
  | error hfails => exact hfails

/-- A check that fails is passed when there is an answer. -/
theorem Except.Ends.check {c : Prop} [Decidable c] {e : ε} {f : β → Except ε α} (he : fails e)
    (hx : ¬ c → Ends fails post x) :
    Ends fails post (if c then (.error e : Except ε β) >>= f else x) := by
  split
  · exact .error he
  · next hc => exact hx hc

theorem Except.Ends.mapError {f : ε → ε'} {fails : ε' → Prop} (hf : ∀ e, fails (f e))
    (hx : ∀ a, x = .ok a → post a) : Ends fails post (x.mapError f) := by
  cases x with
  | ok a => exact .ok (hx a rfl)
  | error e => exact .error (hf e)

/-- What every step of a fold carries from the items before it to one item more holds in the end of
    all items, unless a step fails. -/
theorem Except.Ends.foldlM {P : List α → β → Prop} {f : β → α → Except ε β} {xs : List α} {b : β}
    (hstep : ∀ done a after b, xs = done ++ a :: after → P done b →
      Ends fails (P (done ++ [a])) (f b a))
    (hb : P [] b) : Ends fails (P xs) (xs.foldlM f b) := by
  induction xs using List.reverseRecOn with
  | nil => exact .ok hb
  | append_singleton xs a ih =>
    have hbefore := ih fun done x after c heq =>
      hstep done x (after ++ [a]) c (by rw [heq, List.append_assoc, List.cons_append])
    rw [List.foldlM_append]
    refine hbefore.bind fun c _ hc => ?_
    simp only [List.foldlM_cons, List.foldlM_nil, bind_pure]
    exact hstep xs a [] c rfl hc

end ends

/-- Whatever an item fails with, the items fail with. -/
theorem Except.Ends.mapM {fails : ε → Prop} {f : α → Except ε β} {xs : List α}
    (hf : ∀ x ∈ xs, Ends fails (fun _ => True) (f x)) :
    Ends fails (fun _ => True) (xs.mapM f) := by
  induction xs with
  | nil => exact .ok trivial
  | cons x xs ih =>
    obtain ⟨hx, hxs⟩ := List.forall_mem_cons.mp hf
    rw [List.mapM_cons]
    exact hx.bind fun y _ _ => (ih hxs).bind fun ys _ _ => .ok trivial

/-- The computations give the same answers, though they may fail with different errors. -/
def Except.Agrees (x x' : Except ε α) : Prop := ∀ a, x = .ok a ↔ x' = .ok a

section agrees

variable {x x' : Except ε α} {f f' : α → Except ε β}

theorem Except.Agrees.refl (x : Except ε α) : Agrees x x := fun _ => Iff.rfl

/-- Computations that fail give the same answers, namely none. -/
theorem Except.agrees_error (e e' : ε) : Agrees (.error e : Except ε α) (.error e') :=
  fun _ => ⟨nofun, nofun⟩

theorem Except.Agrees.bind (hx : Agrees x x') (hf : ∀ a, x = .ok a → Agrees (f a) (f' a)) :
    Agrees (x >>= f) (x' >>= f') := by
  intro b
  rw [Except.bind_eq_ok_iff, Except.bind_eq_ok_iff]
  constructor
  · rintro ⟨a, ha, hb⟩
    exact ⟨a, (hx a).mp ha, (hf a ha b).mp hb⟩
  · rintro ⟨a, ha, hb⟩
    have ha := (hx a).mpr ha
    exact ⟨a, ha, (hf a ha b).mpr hb⟩

end agrees

/-- The computations end in the same way: both give answers, which are related by `r`, or both fail,
    with errors that are related by `q`. -/
inductive Except.Lockstep (q : ε → ε → Prop) (r : α → α → Prop) :
    Except ε α → Except ε α → Prop
  | ok {a a' : α} (h : r a a') : Lockstep q r (.ok a) (.ok a')
  | error {e e' : ε} (h : q e e') : Lockstep q r (.error e) (.error e')

section lockstep

variable {q : ε → ε → Prop} {r : α → α → Prop} {r' : β → β → Prop}

theorem Except.Lockstep.bind {x x' : Except ε α} {f f' : α → Except ε β} (hx : Lockstep q r x x')
    (hf : ∀ a a', r a a' → Lockstep q r' (f a) (f' a')) : Lockstep q r' (x >>= f) (x' >>= f') := by
  cases hx with
  | ok h => exact hf _ _ h
  | error h => exact .error h

theorem Except.Lockstep.mapM {f f' : α → Except ε β} {xs : List α}
    (hf : ∀ x ∈ xs, Lockstep q Eq (f x) (f' x)) : Lockstep q Eq (xs.mapM f) (xs.mapM f') := by
  induction xs with
  | nil => exact .ok rfl
  | cons x xs ih =>
    obtain ⟨hx, hxs⟩ := List.forall_mem_cons.mp hf
    rw [List.mapM_cons, List.mapM_cons]
    refine hx.bind ?_
    rintro y _ rfl
    refine (ih hxs).bind ?_
    rintro ys _ rfl
    exact .ok rfl

end lockstep

end except

section build

variable {ε ε' α β : Type} {s s' : GuidSupply}

theorem Build.bind_eq_ok_iff {x : Build ε α} {f : α → Build ε β} {b : β} :
    (x >>= f).run s = .ok b s' ↔ ∃ a t, x.run s = .ok a t ∧ (f a).run t = .ok b s' := by
  rw [EStateM.run_bind]
  cases x.run s with
  | error e t => simp
  | ok a t =>
    constructor
    · intro h
      exact ⟨a, t, rfl, h⟩
    · rintro ⟨_, _, h, hf⟩
      cases h
      exact hf

theorem Build.run_bind_of_ok {x : Build ε α} {f : α → Build ε β} {a : α} {t : GuidSupply}
    (h : x.run s = .ok a t) : (x >>= f).run s = (f a).run t := by
  rw [EStateM.run_bind, h]

theorem Build.run_bind_error {x : Build ε α} {f : α → Build ε β} {e : ε} {t : GuidSupply}
    (h : x.run s = .error e t) : (x >>= f).run s = .error e t := by
  rw [EStateM.run_bind, h]

/-- An answer comes with the supply that is left. -/
theorem Build.exists_run_of_eq_some {x : Build ε α} {a : α} (h : x.run' s = some a) :
    ∃ t, x.run s = .ok a t := by
  unfold EStateM.run' at h
  cases hrun : x.run s with
  | ok a' t =>
    rw [hrun] at h
    cases h
    exact ⟨t, rfl⟩
  | error e t =>
    rw [hrun] at h
    cases h

theorem Build.bind_eq_error_iff {x : Build ε α} {f : α → Build ε β} {e : ε} :
    (x >>= f).run s = .error e s' ↔
      x.run s = .error e s' ∨ ∃ a t, x.run s = .ok a t ∧ (f a).run t = .error e s' := by
  rw [EStateM.run_bind]
  cases x.run s with
  | error e' t => simp
  | ok a t =>
    constructor
    · intro h
      exact .inr ⟨a, t, rfl, h⟩
    · rintro (h | ⟨_, _, h, hf⟩)
      · cases h
      · cases h
        exact hf

@[simp] theorem Build.pure_eq_ok_iff {a b : α} :
    (pure a : Build ε α).run s = .ok b s' ↔ a = b ∧ s = s' := by
  rw [EStateM.run_pure, EStateM.Result.ok.injEq]

@[simp] theorem Build.throw_ne_ok {e : ε} {b : α} : (throw e : Build ε α).run s ≠ .ok b s' := by
  intro h
  cases h

/-- A check that throws is passed when there is a result. -/
theorem Build.check_eq_ok_iff {c : Prop} [Decidable c] {e : ε} {f : β → Build ε α}
    {x : Build ε α} {b : α} :
    (if c then (throw e : Build ε β) >>= f else x).run s = .ok b s' ↔ ¬ c ∧ x.run s = .ok b s' := by
  by_cases h : c
  · rw [if_pos h, Build.bind_eq_ok_iff]
    simp [h]
  · simp [h]

theorem Build.ofExcept_eq_ok_iff {x : Except ε α} {a : α} :
    (Build.ofExcept x).run s = .ok a s' ↔ x = .ok a ∧ s = s' := by
  cases x with
  | error e => simp [Build.ofExcept]
  | ok b => simp [Build.ofExcept]

theorem Build.ofExcept_eq_error_iff {x : Except ε α} {e : ε} :
    (Build.ofExcept x).run s = .error e s' ↔ x = .error e ∧ s = s' := by
  cases x with
  | error e' =>
    show EStateM.Result.error e' s = .error e s' ↔ _
    simp
  | ok b => simp [Build.ofExcept]

theorem Build.adaptExcept_eq_error_iff {x : Build ε α} {f : ε → ε'} {e : ε'} :
    (x.adaptExcept f).run s = .error e s' ↔ ∃ cause, x.run s = .error cause s' ∧ f cause = e := by
  rw [EStateM.run_adaptExcept]
  cases x.run s with
  | error cause t => simp [and_comm]
  | ok b t => simp

theorem Build.adaptExcept_eq_ok_iff {x : Build ε α} {f : ε → ε'} {a : α} :
    (x.adaptExcept f).run s = .ok a s' ↔ x.run s = .ok a s' := by
  rw [EStateM.run_adaptExcept]
  cases x.run s with
  | error e t => simp
  | ok b t => simp

/-- Parts that make no layers make none together. -/
theorem Build.ofExcept_bind (x : Except ε α) (f : α → Except ε β) :
    Build.ofExcept (x >>= f) = Build.ofExcept x >>= fun a => Build.ofExcept (f a) := by
  cases x <;> rfl

/-- A fold of steps that make no layers makes none. -/
theorem Build.foldlM_ofExcept {f : β → α → Except ε β} {xs : List α} {b : β} :
    (xs.foldlM (fun b a => Build.ofExcept (f b a)) b : Build ε β) =
      Build.ofExcept (xs.foldlM f b) := by
  induction xs generalizing b with
  | nil => rfl
  | cons a xs ih =>
    simp only [List.foldlM_cons, ih]
    cases f b a with
    | error e => rfl
    | ok b' => rfl

/-- A fold gives the same result when its steps do. -/
theorem Build.foldlM_of_ok {f : β → α → Except ε β} {f' : β → α → Build ε' β} {xs : List α}
    {b b' : β} (hstep : ∀ b a b' t, f b a = .ok b' → (f' b a).run t = .ok b' t)
    (h : xs.foldlM f b = .ok b') : (xs.foldlM f' b).run s = .ok b' s := by
  induction xs generalizing b with
  | nil => exact Build.pure_eq_ok_iff.mpr ⟨Except.pure_eq_ok_iff.mp h, rfl⟩
  | cons a xs ih =>
    rw [List.foldlM_cons] at h ⊢
    obtain ⟨c, hc, hrest⟩ := Except.bind_eq_ok_iff.mp h
    exact Build.bind_eq_ok_iff.mpr ⟨c, s, hstep b a c s hc, ih hrest⟩

/-- What every step of a fold carries from the items before it to one item more holds of its
    result and all items. -/
theorem Build.foldlM_prefix {P : List α → β → GuidSupply → Prop} {f : β → α → Build ε β}
    {xs : List α} {b b' : β}
    (hstep : ∀ done, ∀ a ∈ xs, ∀ b t b' t',
      P done b t → (f b a).run t = .ok b' t' → P (done ++ [a]) b' t')
    (hb : P [] b s) (h : (xs.foldlM f b).run s = .ok b' s') : P xs b' s' := by
  induction xs using List.reverseRecOn generalizing b' s' with
  | nil =>
    obtain ⟨rfl, rfl⟩ := Build.pure_eq_ok_iff.mp h
    exact hb
  | append_singleton xs a ih =>
    rw [List.foldlM_append, Build.bind_eq_ok_iff] at h
    obtain ⟨c, t, hc, hlast⟩ := h
    simp only [List.foldlM_cons, List.foldlM_nil, bind_pure] at hlast
    have hbefore : P xs c t :=
      ih (fun done x hx => hstep done x (List.mem_append_left [a] hx)) hc
    exact hstep xs a (List.mem_append_right xs List.mem_cons_self) c t b' s' hbefore hlast

/-- An invariant of every step of a fold holds of its result. -/
theorem Build.foldlM_invariant {P : β → GuidSupply → Prop} {f : β → α → Build ε β} {xs : List α}
    {b b' : β}
    (hstep : ∀ a ∈ xs, ∀ b t b' t', P b t → (f b a).run t = .ok b' t' → P b' t') (hb : P b s)
    (h : (xs.foldlM f b).run s = .ok b' s') : P b' s' :=
  Build.foldlM_prefix (P := fun _ => P) (fun _ => hstep) hb h

/-- Whatever every step of a fold refuses with, the fold refuses with. -/
theorem Build.foldlM_eq_error {p : ε → Prop} {f : β → α → Build ε β} {xs : List α} {b : β} {e : ε}
    (hstep : ∀ a ∈ xs, ∀ b t e t', (f b a).run t = .error e t' → p e)
    (h : (xs.foldlM f b).run s = .error e s') : p e := by
  induction xs generalizing b s with
  | nil => cases h
  | cons a xs ih =>
    rw [List.foldlM_cons, Build.bind_eq_error_iff] at h
    rcases h with hfirst | ⟨c, t, -, hrest⟩
    · exact hstep a List.mem_cons_self b s e s' hfirst
    · exact ih (fun x hx => hstep x (List.mem_cons_of_mem a hx)) hrest

/-- The computation never takes a number back, whether it fails or not. -/
structure Build.Advances (x : Build ε α) : Prop where
  ok : ∀ s a s', x.run s = .ok a s' → s.next.number ≤ s'.next.number
  error : ∀ s e s', x.run s = .error e s' → s.next.number ≤ s'.next.number

theorem Build.advances_pure (a : α) : Advances (pure a : Build ε α) where
  ok := by
    intro s b s' h
    obtain ⟨-, rfl⟩ := Build.pure_eq_ok_iff.mp h
    exact Nat.le_refl _
  error := by
    intro s e s' h
    cases h

theorem Build.advances_ofExcept (x : Except ε α) : Advances (Build.ofExcept x) where
  ok := by
    intro s a s' h
    obtain ⟨-, rfl⟩ := Build.ofExcept_eq_ok_iff.mp h
    exact Nat.le_refl _
  error := by
    intro s e s' h
    obtain ⟨-, rfl⟩ := Build.ofExcept_eq_error_iff.mp h
    exact Nat.le_refl _

theorem Build.Advances.bind {x : Build ε α} {f : α → Build ε β} (hx : x.Advances)
    (hf : ∀ a, (f a).Advances) : Advances (x >>= f) where
  ok := by
    intro s b s' h
    obtain ⟨a, t, ha, hb⟩ := Build.bind_eq_ok_iff.mp h
    exact Nat.le_trans (hx.ok s a t ha) ((hf a).ok t b s' hb)
  error := by
    intro s e s' h
    rcases Build.bind_eq_error_iff.mp h with hfirst | ⟨a, t, ha, hrest⟩
    · exact hx.error s e s' hfirst
    · exact Nat.le_trans (hx.ok s a t ha) ((hf a).error t e s' hrest)

theorem Build.advances_foldlM {f : β → α → Build ε β} (hf : ∀ b a, (f b a).Advances)
    (xs : List α) (b : β) : Advances (xs.foldlM f b) := by
  induction xs generalizing b with
  | nil => exact advances_pure b
  | cons a xs ih =>
    rw [List.foldlM_cons]
    exact (hf b a).bind ih

theorem Build.Advances.adaptExcept {x : Build ε α} (hx : x.Advances) (f : ε → ε') :
    Advances (x.adaptExcept f) where
  ok := fun s a s' h => hx.ok s a s' (Build.adaptExcept_eq_ok_iff.mp h)
  error := by
    intro s e s' h
    obtain ⟨cause, hcause, -⟩ := Build.adaptExcept_eq_error_iff.mp h
    exact hx.error s cause s' hcause

/-- The computation ends with an answer that has the property `post`, or with an error that has the
    property `fails`. -/
inductive Build.Ends (fails : ε → Prop) (post : α → GuidSupply → Prop) :
    EStateM.Result ε GuidSupply α → Prop
  | ok {a : α} {s : GuidSupply} (h : post a s) : Ends fails post (.ok a s)
  | error {e : ε} {s : GuidSupply} (h : fails e) : Ends fails post (.error e s)

section ends

variable {fails : ε → Prop} {post : α → GuidSupply → Prop} {post' : β → GuidSupply → Prop}

theorem Build.Ends.mono {post'' : α → GuidSupply → Prop} {x : EStateM.Result ε GuidSupply α}
    (hx : Ends fails post x) (h : ∀ a t, post a t → post'' a t) : Ends fails post'' x := by
  cases hx with
  | ok hpost => exact .ok (h _ _ hpost)
  | error hfails => exact .error hfails

theorem Build.Ends.bind {x : Build ε α} {f : α → Build ε β} (hx : Ends fails post (x.run s))
    (hf : ∀ a t, post a t → Ends fails post' ((f a).run t)) :
    Ends fails post' ((x >>= f).run s) := by
  rw [EStateM.run_bind]
  generalize x.run s = y at hx
  cases hx with
  | ok h => exact hf _ _ h
  | error h => exact .error h

theorem Build.Ends.bind_of_ok {x : Build ε α} {f : α → Build ε β} {a : α} {t : GuidSupply}
    (hx : x.run s = .ok a t) (hf : Ends fails post' ((f a).run t)) :
    Ends fails post' ((x >>= f).run s) := by
  rw [Build.run_bind_of_ok hx]
  exact hf

theorem Build.Ends.bind_ofExcept {x : Except ε α} {f : α → Build ε β} {p : α → Prop}
    (hx : Except.Ends fails p x)
    (hf : ∀ a, x = .ok a → p a → Ends fails post' ((f a).run s)) :
    Ends fails post' ((Build.ofExcept x >>= f).run s) := by
  cases hx with
  | ok hp => exact hf _ rfl hp
  | error hfails => exact .error hfails

theorem Build.Ends.ofExcept {x : Except ε α} {p : α → Prop} (hx : Except.Ends fails p x) :
    Ends fails (fun a _ => p a) ((Build.ofExcept x).run s) := by
  cases hx with
  | ok hp => exact .ok hp
  | error hfails => exact .error hfails

/-- A change fails with errors that are made from those of another. -/
theorem Build.Ends.adaptExcept {x : Build ε α} {f : ε → ε'} {fails : ε' → Prop}
    (hf : ∀ e, fails (f e)) : Ends fails (fun _ _ => True) ((x.adaptExcept f).run s) := by
  rw [EStateM.run_adaptExcept]
  cases x.run s with
  | ok a t => exact .ok trivial
  | error e t => exact .error (hf e)

/-- What every step of a fold carries from the items before it to one item more holds in the end of
    all items, unless a step fails. -/
theorem Build.Ends.foldlM {P : List α → β → GuidSupply → Prop} {f : β → α → Build ε β}
    {xs : List α} {b : β}
    (hstep : ∀ done a after b t, xs = done ++ a :: after → P done b t →
      Ends fails (P (done ++ [a])) ((f b a).run t))
    (hb : P [] b s) : Ends fails (P xs) ((xs.foldlM f b).run s) := by
  induction xs using List.reverseRecOn with
  | nil => exact .ok hb
  | append_singleton xs a ih =>
    have hbefore := ih fun done x after c t heq =>
      hstep done x (after ++ [a]) c t (by rw [heq, List.append_assoc, List.cons_append])
    rw [List.foldlM_append]
    refine hbefore.bind fun c t hc => ?_
    show Ends fails _ ((f c a >>= pure).run t)
    rw [bind_pure]
    exact hstep xs a [] c t rfl hc

theorem Build.Ends.post_of_ok {x : EStateM.Result ε GuidSupply α} {a : α} {t : GuidSupply}
    (hx : Ends fails post x) (h : x = .ok a t) : post a t := by
  subst h
  cases hx with
  | ok h => exact h

theorem Build.Ends.fails_of_error {x : EStateM.Result ε GuidSupply α} {e : ε} {t : GuidSupply}
    (hx : Ends fails post x) (h : x = .error e t) : fails e := by
  subst h
  cases hx with
  | error h => exact h

end ends

/-- Two computations end in the same way: both give answers, which are related by `r`, or both fail,
    with errors that are related by `q`. -/
inductive Build.Lockstep (q : ε → ε → Prop) (r : α → GuidSupply → α → GuidSupply → Prop) :
    EStateM.Result ε GuidSupply α → EStateM.Result ε GuidSupply α → Prop
  | ok {a a' : α} {s s' : GuidSupply} (h : r a s a' s') : Lockstep q r (.ok a s) (.ok a' s')
  | error {e e' : ε} {s s' : GuidSupply} (h : q e e') : Lockstep q r (.error e s) (.error e' s')

section lockstep

variable {q : ε → ε → Prop} {r : α → GuidSupply → α → GuidSupply → Prop}
variable {r' : β → GuidSupply → β → GuidSupply → Prop}

theorem Build.Lockstep.bind {x x' : Build ε α} {f f' : α → Build ε β}
    (hx : Lockstep q r (x.run s) (x'.run s'))
    (hf : ∀ a t a' t', r a t a' t' → Lockstep q r' ((f a).run t) ((f' a').run t')) :
    Lockstep q r' ((x >>= f).run s) ((x' >>= f').run s') := by
  rw [EStateM.run_bind, EStateM.run_bind]
  generalize x.run s = y, x'.run s' = y' at hx
  cases hx with
  | ok h => exact hf _ _ _ _ h
  | error h => exact .error h

/-- What every step of two folds carries from the items before it to one item more holds in the end
    of all items, unless both folds fail. -/
theorem Build.Lockstep.foldlM_prefix {P : List β → α → GuidSupply → α → GuidSupply → Prop}
    {f f' : α → β → Build ε α} {xs : List β} {a a' : α}
    (hstep : ∀ done x after b t b' t', xs = done ++ x :: after → P done b t b' t' →
      Lockstep q (P (done ++ [x])) ((f b x).run t) ((f' b' x).run t'))
    (h : P [] a s a' s') :
    Lockstep q (P xs) ((xs.foldlM f a).run s) ((xs.foldlM f' a').run s') := by
  induction xs using List.reverseRecOn with
  | nil => exact .ok h
  | append_singleton xs x ih =>
    have hbefore := ih fun done y after b t b' t' heq =>
      hstep done y (after ++ [x]) b t b' t' (by rw [heq, List.append_assoc, List.cons_append])
    rw [List.foldlM_append, List.foldlM_append]
    refine hbefore.bind fun b t b' t' hb => ?_
    show Lockstep q _ ((f b x >>= pure).run t) ((f' b' x >>= pure).run t')
    rw [bind_pure, bind_pure]
    exact hstep xs x [] b t b' t' rfl hb

theorem Build.Lockstep.foldlM {f f' : α → β → Build ε α} {xs : List β} {a a' : α}
    (hf : ∀ x ∈ xs, ∀ a t a' t', r a t a' t' → Lockstep q r ((f a x).run t) ((f' a' x).run t'))
    (h : r a s a' s') : Lockstep q r ((xs.foldlM f a).run s) ((xs.foldlM f' a').run s') := by
  refine foldlM_prefix (P := fun _ => r) ?_ h
  rintro done x after b t b' t' rfl hb
  exact hf x (by simp) b t b' t' hb

/-- What follows from both answers can be said of them instead. -/
theorem Build.Lockstep.imp {p : α → GuidSupply → α → GuidSupply → Prop}
    {y y' : EStateM.Result ε GuidSupply α} (h : Lockstep q r y y')
    (hp : ∀ a t a' t', y = .ok a t → y' = .ok a' t' → r a t a' t' → p a t a' t') :
    Lockstep q p y y' := by
  cases h with
  | ok h => exact .ok (hp _ _ _ _ rfl rfl h)
  | error h => exact .error h

/-- What is known of the answers of the first one can be added. -/
theorem Build.Lockstep.and_left {y y' : EStateM.Result ε GuidSupply α}
    {p : α → GuidSupply → Prop} (h : Lockstep q r y y') (hp : ∀ a s, y = .ok a s → p a s) :
    Lockstep q (fun a s a' s' => r a s a' s' ∧ p a s) y y' :=
  h.imp fun a t _ _ hrun _ hr => ⟨hr, hp a t hrun⟩

/-- A computation is in step with itself. -/
theorem Build.lockstep_self (x : Build ε α) :
    Lockstep (fun _ _ => True) (fun a t a' t' => a = a' ∧ t = t') (x.run s) (x.run s) := by
  cases x.run s with
  | ok a t => exact .ok ⟨rfl, rfl⟩
  | error e t => exact .error trivial

/-- Parts that make no layers leave both supplies as they are. -/
theorem Except.Lockstep.build {x x' : Except ε α} {p : α → α → Prop}
    (h : Except.Lockstep q p x x') :
    Build.Lockstep q (fun a t a' t' => p a a' ∧ t = t') ((Build.ofExcept x).run s)
      ((Build.ofExcept x').run s) := by
  cases h with
  | ok h => exact .ok ⟨h, rfl⟩
  | error h => exact .error h

theorem Build.Lockstep.adaptExcept {x x' : Build ε α} (hx : Lockstep q r (x.run s) (x'.run s'))
    {q' : ε' → ε' → Prop} {f f' : ε → ε'} (hf : ∀ e e', q e e' → q' (f e) (f' e')) :
    Lockstep q' r ((x.adaptExcept f).run s) ((x'.adaptExcept f').run s') := by
  rw [EStateM.run_adaptExcept, EStateM.run_adaptExcept]
  generalize x.run s = y, x'.run s' = y' at hx
  cases hx with
  | ok h => exact .ok h
  | error h => exact .error (hf _ _ h)

/-- Computations that give the same answers are in step, whatever comes of the supply. -/
theorem Build.lockstep_ofExcept {x x' : Except ε α} (h : Except.Agrees x x') :
    Lockstep (fun _ _ => True) (fun a _ a' _ => a = a') ((Build.ofExcept x).run s)
      ((Build.ofExcept x').run s') := by
  cases x with
  | ok a =>
    obtain rfl := (h a).mp rfl
    exact .ok rfl
  | error e =>
    cases x' with
    | ok a => cases (h a).mpr rfl
    | error e' => exact .error trivial

end lockstep

end build

end LayerGraph
