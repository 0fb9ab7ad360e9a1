import LayerGraph.Container.Codec
import LayerGraph.Proofs.Outcome

/-! # Computations that read bytes

  Three properties describe such a computation without a cursor in sight.

  - `Read.Takes`: it reads certain bytes as a certain value, whatever comes behind them.
  - `Read.Refuses`: it refuses certain bytes, whatever comes behind them.
  - `Read.Spells`: whatever it reads was in front of the rest, and value and bytes are related in a
    certain way. Often only the number of bytes matters (`Read.Yields`).

  A fourth, `Read.StaysIn`, is about the places it comes to: they are all in the bytes, also those
  that it reports an error at. Two more compare two runs. `Read.Steady`: bytes that are put behind
  all others change nothing, unless the others alone are malformed. `Read.Parallel`: what is read at
  one place is read at any other place too, with other bytes behind it, if these are as many.

  All are proved for a sequence from its parts.
-/

namespace LayerGraph

/-! ### Places in bytes -/

/-- The cursor stands at a place in the bytes. -/
structure Cursor.In (c : Cursor) (bytes : List UInt8) : Prop where
  offset_le : c.offset ≤ bytes.length
  rest_eq : c.rest = bytes.drop c.offset

theorem Cursor.start_in (bytes : List UInt8) : (Cursor.start bytes).In bytes where
  offset_le := Nat.zero_le _
  rest_eq := rfl

/-- What is left is what is not before the cursor. -/
theorem Cursor.In.length {c : Cursor} {bytes : List UInt8} (h : c.In bytes) :
    c.offset + c.rest.length = bytes.length := by
  have hle := h.offset_le
  rw [h.rest_eq, List.length_drop]
  omega

/-- The error is about a place in the bytes. Errors of writing are about none. -/
def ContainerError.In (bytes : List UInt8) : ContainerError → Prop
  | .format offset _ | .unsupported offset _ | .danglingReference offset _
  | .cellWidth offset _ _ => offset ≤ bytes.length
  | .incompleteGraph _ | .lengthTooLarge _ | .sinkFull => False

/-- The same place, with more bytes behind all others. -/
def Cursor.extend (c : Cursor) (more : List UInt8) : Cursor := ⟨c.offset, c.rest ++ more⟩

@[simp] theorem Cursor.offset_extend (c : Cursor) (more : List UInt8) :
    (c.extend more).offset = c.offset := rfl

@[simp] theorem Cursor.rest_extend (c : Cursor) (more : List UInt8) :
    (c.extend more).rest = c.rest ++ more := rfl

/-- The error says that the bytes are malformed. -/
def ContainerError.Malformed (e : ContainerError) : Prop :=
  ∃ offset fault, e = .format offset fault

/-- The variants of errors, whatever they say in particular. -/
inductive ContainerError.Variant where
  /-- Malformed bytes. -/
  | format
  /-- An unknown version. -/
  | unsupported
  /-- A reference to no layer. -/
  | danglingReference
  /-- Cells of another width. -/
  | cellWidth
  /-- An incomplete graph. -/
  | incompleteGraph
  /-- A failure to write. -/
  | sink
deriving DecidableEq

/-- The variant of an error. -/
def ContainerError.variant : ContainerError → Variant
  | .format _ _ => .format
  | .unsupported _ _ => .unsupported
  | .danglingReference _ _ => .danglingReference
  | .cellWidth _ _ _ => .cellWidth
  | .incompleteGraph _ => .incompleteGraph
  | .lengthTooLarge _ | .sinkFull => .sink

namespace Read

variable {α β : Type}

theorem bind_eq_ok_iff {x : Read α} {f : α → Read β} {c c' : Cursor} {b : β} :
    (x >>= f).run c = .ok (b, c') ↔
      ∃ a c₁, x.run c = .ok (a, c₁) ∧ (f a).run c₁ = .ok (b, c') := by
  rw [StateT.run_bind, Except.bind_eq_ok_iff, Prod.exists]

/-- The second parts only matter for what the first part gives. -/
theorem run_bind_congr {x : Read α} {f f' : α → Read β} {c : Cursor}
    (h : ∀ a c', x.run c = .ok (a, c') → (f a).run c' = (f' a).run c') :
    (x >>= f).run c = (x >>= f').run c := by
  rw [StateT.run_bind, StateT.run_bind]
  cases hx : x.run c with
  | error e => rfl
  | ok step => exact h step.1 step.2 hx

/-- A check that throws only matters for what comes behind it. -/
theorem run_check_congr {p : Prop} [Decidable p] {γ : Type} {e : ContainerError}
    {f f' : γ → Read α} {x x' : Read α} {c : Cursor} (h : x.run c = x'.run c) :
    (if p then (throw e : Read γ) >>= f else x).run c =
      (if p then (throw e : Read γ) >>= f' else x').run c := by
  by_cases hp : p
  · rw [if_pos hp, if_pos hp]
    rfl
  · rw [if_neg hp, if_neg hp]
    exact h

theorem run_offset {c : Cursor} : offset.run c = .ok (c.offset, c) := rfl

theorem run_get {c : Cursor} : (get : Read Cursor).run c = .ok (c, c) := rfl

/-! ### Bytes that are read as a value -/

/-- The bytes are read as the value, whatever is behind them. -/
def Takes (x : Read α) (front : List UInt8) (a : α) : Prop :=
  ∀ offset rest, x.run ⟨offset, front ++ rest⟩ = .ok (a, ⟨offset + front.length, rest⟩)

variable {x : Read α} {f : α → Read β} {a : α} {b : β} {front back : List UInt8}

theorem Takes.pure : (pure a : Read α).Takes [] a := fun _ _ => rfl

theorem Takes.bind (hx : x.Takes front a) (hf : (f a).Takes back b) :
    (x >>= f).Takes (front ++ back) b := by
  intro offset rest
  rw [List.append_assoc, List.length_append, ← Nat.add_assoc]
  exact bind_eq_ok_iff.mpr ⟨a, _, hx offset (back ++ rest), hf (offset + front.length) rest⟩

theorem Takes.then (hx : x.Takes front a) (hf : (f a).Takes [] b) : (x >>= f).Takes front b := by
  have h := hx.bind hf
  rwa [List.append_nil] at h

theorem Takes.map {f : α → β} (hx : x.Takes front a) :
    (x >>= fun a => Pure.pure (f a)).Takes front (f a) := hx.then Takes.pure

/-- Looking at the offset takes nothing. -/
theorem Takes.offset {f : Nat → Read β} (hf : ∀ n, (f n).Takes front b) :
    (Read.offset >>= f).Takes front b := fun offset rest => hf offset offset rest

/-- A check that throws is passed. -/
theorem Takes.check {p : Prop} [Decidable p] {γ : Type} {e : ContainerError} {f : γ → Read α}
    (hp : ¬ p) (hx : x.Takes front a) :
    (if p then (throw e : Read γ) >>= f else x).Takes front a := by
  rw [if_neg hp]
  exact hx

theorem Takes.bytes {count : Nat} (h : front.length = count) :
    (Read.bytes count).Takes front front := by
  subst h
  intro offset rest
  show Read.bytes front.length ⟨offset, front ++ rest⟩ = _
  simp [Read.bytes]

/-- As many repetitions as there are values take the bytes of all of them. -/
theorem Takes.times {as : List α} {parts : List (List UInt8)}
    (h : List.Forall₂ (fun a part => x.Takes part a) as parts) :
    (x.times as.length).Takes parts.flatten as := by
  induction h with
  | nil => exact Takes.pure
  | cons hhead _ ih => exact hhead.bind ih.map

/-! ### Bytes that are refused -/

/-- The bytes are refused, whatever is behind them. -/
def Refuses (x : Read α) (front : List UInt8) : Prop :=
  ∀ offset rest, ∃ e, x.run ⟨offset, front ++ rest⟩ = .error e

theorem run_bind_error {c : Cursor} {e : ContainerError} (h : x.run c = .error e) :
    (x >>= f).run c = .error e := by
  rw [StateT.run_bind, h]
  rfl

theorem run_bind_of_ok {c c' : Cursor} (h : x.run c = .ok (a, c')) :
    (x >>= f).run c = (f a).run c' := by
  rw [StateT.run_bind, h]
  rfl

theorem Refuses.bind (hx : x.Refuses front) : (x >>= f).Refuses front := by
  intro offset rest
  obtain ⟨e, he⟩ := hx offset rest
  exact ⟨e, run_bind_error he⟩

theorem Refuses.append (hx : x.Refuses front) : x.Refuses (front ++ back) := by
  intro offset rest
  rw [List.append_assoc]
  exact hx offset (back ++ rest)

theorem Takes.bind_refuses (hx : x.Takes front a) (hf : (f a).Refuses back) :
    (x >>= f).Refuses (front ++ back) := by
  intro offset rest
  obtain ⟨e, he⟩ := hf (offset + front.length) rest
  refine ⟨e, ?_⟩
  rw [List.append_assoc, run_bind_of_ok (hx offset (back ++ rest)), he]

theorem Takes.then_refuses (hx : x.Takes front a) (hf : (f a).Refuses []) :
    (x >>= f).Refuses front := by
  have h := hx.bind_refuses hf
  rwa [List.append_nil] at h

theorem Refuses.offset {f : Nat → Read β} (hf : ∀ n, (f n).Refuses front) :
    (Read.offset >>= f).Refuses front := fun offset rest => hf offset offset rest

theorem Refuses.check {p : Prop} [Decidable p] {γ : Type} {e : ContainerError} {f : γ → Read α}
    (hp : ¬ p) (hx : x.Refuses front) :
    (if p then (throw e : Read γ) >>= f else x).Refuses front := by
  rw [if_neg hp]
  exact hx

theorem refuse_refuses {offset : Nat} {fault : ContainerFault} :
    (Read.refuse offset fault : Read α).Refuses front := fun _ _ => ⟨_, rfl⟩

/-! ### What values that are read are like -/

/-- What is read was in front of the rest, and is related to its bytes. -/
def Spells (x : Read α) (P : α → List UInt8 → Prop) : Prop :=
  ∀ c a c', x.run c = .ok (a, c') →
    ∃ used, c.rest = used ++ c'.rest ∧ c'.offset = c.offset + used.length ∧ P a used

section spells

variable {P P' : α → List UInt8 → Prop} {Q : β → List UInt8 → Prop}

theorem Spells.mono (hx : x.Spells P) (h : ∀ a used, P a used → P' a used) : x.Spells P' := by
  intro c a c' hrun
  obtain ⟨used, hrest, hoffset, hP⟩ := hx c a c' hrun
  exact ⟨used, hrest, hoffset, h a used hP⟩

theorem Spells.pure (h : P a []) : (pure a : Read α).Spells P := by
  rintro c _ _ ⟨⟩
  exact ⟨[], rfl, rfl, h⟩

theorem Spells.bind (hx : x.Spells P)
    (hf : ∀ a used, P a used → (f a).Spells fun b used' => Q b (used ++ used')) :
    (x >>= f).Spells Q := by
  intro c b c' hrun
  obtain ⟨a, c₁, hxrun, hfrun⟩ := bind_eq_ok_iff.mp hrun
  obtain ⟨used, hrest, hoffset, hP⟩ := hx c a c₁ hxrun
  obtain ⟨used', hrest', hoffset', hQ⟩ := hf a used hP c₁ b c' hfrun
  refine ⟨used ++ used', ?_, ?_, hQ⟩
  · rw [hrest, hrest', List.append_assoc]
  · rw [hoffset', hoffset, List.length_append, Nat.add_assoc]

theorem Spells.map {f : α → β} (hx : x.Spells fun a used => Q (f a) used) :
    (x >>= fun a => Pure.pure (f a)).Spells Q :=
  hx.bind fun a used h => Spells.pure (by rwa [List.append_nil])

theorem Spells.offset {f : Nat → Read β} (hf : ∀ n, (f n).Spells Q) :
    (Read.offset >>= f).Spells Q := fun c b c' hrun => hf c.offset c b c' hrun

theorem Spells.get {f : Cursor → Read β} (hf : ∀ c, (f c).Spells Q) :
    ((get : Read Cursor) >>= f).Spells Q := fun c b c' hrun => hf c c b c' hrun

theorem Spells.throw {e : ContainerError} : (throw e : Read α).Spells P := by
  rintro c _ _ ⟨⟩

theorem Spells.refuse {offset : Nat} {fault : ContainerFault} :
    (Read.refuse offset fault : Read α).Spells P := Spells.throw

/-- A check that throws is passed when something is read. -/
theorem Spells.check {p : Prop} [Decidable p] {γ : Type} {e : ContainerError} {f : γ → Read α}
    (hx : ¬ p → x.Spells P) :
    (if p then (MonadExcept.throw e : Read γ) >>= f else x).Spells P := by
  by_cases hp : p
  · rw [if_pos hp]
    rintro c _ _ ⟨⟩
  · rw [if_neg hp]
    exact hx hp

theorem Spells.bytes (count : Nat) :
    (Read.bytes count).Spells fun bytes used => bytes = used ∧ used.length = count := by
  intro c bytes c' hrun
  change Read.bytes count c = _ at hrun
  unfold Read.bytes at hrun
  split at hrun
  · next hle =>
    cases hrun
    have hlen : (c.rest.take count).length = count := List.length_take_of_le hle
    exact ⟨c.rest.take count, (List.take_append_drop count c.rest).symm, by rw [hlen], rfl, hlen⟩
  · cases hrun

/-- The values of repetitions are as many as asked for, and each is of its part of the bytes. -/
theorem Spells.times (hx : x.Spells P) (count : Nat) :
    (x.times count).Spells fun as used =>
      as.length = count ∧ ∃ parts, List.Forall₂ P as parts ∧ parts.flatten = used := by
  induction count with
  | zero => exact .pure ⟨rfl, [], .nil, rfl⟩
  | succ count ih =>
    refine hx.bind fun a used ha => Spells.map (ih.mono ?_)
    rintro as used' ⟨hlen, parts, hparts, rfl⟩
    exact ⟨congrArg (· + 1) hlen, used :: parts, .cons ha hparts, rfl⟩

end spells

/-- What is read was in front of the rest, and is related to the number of its bytes. -/
def Yields (x : Read α) (P : α → Nat → Prop) : Prop := x.Spells fun a used => P a used.length

variable {P P' : α → Nat → Prop} {Q : β → Nat → Prop}

theorem Yields.mono (hx : x.Yields P) (h : ∀ a n, P a n → P' a n) : x.Yields P' :=
  Spells.mono hx fun a used => h a used.length

theorem Yields.pure (h : P a 0) : (pure a : Read α).Yields P := Spells.pure h

theorem Yields.bind (hx : x.Yields P) (hf : ∀ a n, P a n → (f a).Yields fun b m => Q b (n + m)) :
    (x >>= f).Yields Q := by
  refine Spells.bind hx fun a used ha => ?_
  simp only [List.length_append]
  exact hf a used.length ha

theorem Yields.map {f : α → β} (hx : x.Yields fun a n => Q (f a) n) :
    (x >>= fun a => Pure.pure (f a)).Yields Q := Spells.map hx

theorem Yields.offset {f : Nat → Read β} (hf : ∀ n, (f n).Yields Q) :
    (Read.offset >>= f).Yields Q := Spells.offset hf

theorem Yields.get {f : Cursor → Read β} (hf : ∀ c, (f c).Yields Q) :
    ((get : Read Cursor) >>= f).Yields Q := Spells.get hf

theorem Yields.refuse {offset : Nat} {fault : ContainerFault} :
    (Read.refuse offset fault : Read α).Yields P := Spells.refuse

theorem Yields.throw {e : ContainerError} : (throw e : Read α).Yields P := Spells.throw

theorem Yields.check {p : Prop} [Decidable p] {γ : Type} {e : ContainerError} {f : γ → Read α}
    (hx : ¬ p → x.Yields P) :
    (if p then (MonadExcept.throw e : Read γ) >>= f else x).Yields P := Spells.check hx

theorem Yields.bytes (count : Nat) :
    (Read.bytes count).Yields fun bytes n => bytes.length = count ∧ n = count := by
  refine (Spells.bytes count).mono ?_
  rintro bytes _ ⟨rfl, hlength⟩
  exact ⟨hlength, hlength⟩

theorem Yields.times (hx : x.Yields P) (count : Nat) :
    (x.times count).Yields fun as n =>
      as.length = count ∧ ∃ sizes : List Nat, List.Forall₂ P as sizes ∧ sizes.sum = n := by
  refine (Spells.times hx count).mono ?_
  rintro as _ ⟨hlength, parts, hparts, rfl⟩
  refine ⟨hlength, parts.map List.length, ?_, List.length_flatten.symm⟩
  exact List.forall₂_map_right_iff.mpr hparts

/-! ### Places that are come to -/

/-- From a place in the bytes the computation comes to such a place, either with a value that has
    the property or with an error. -/
def StaysIn (x : Read α) (buffer : List UInt8) (p : α → Prop) : Prop :=
  ∀ c : Cursor, c.In buffer →
    Except.Ends (ContainerError.In buffer) (fun step => step.2.In buffer ∧ p step.1) (x.run c)

variable {buffer : List UInt8} {p : α → Prop} {q : β → Prop}

theorem StaysIn.pure (h : p a) : (pure a : Read α).StaysIn buffer p := fun _ hc => .ok ⟨hc, h⟩

/-- A sequence where it matters from which place the second part goes on. -/
theorem StaysIn.bind_run {c : Cursor} (hx : x.StaysIn buffer p) (hc : c.In buffer)
    (hf : ∀ a c', x.run c = .ok (a, c') → c'.In buffer → p a →
      Except.Ends (ContainerError.In buffer) (fun step => step.2.In buffer ∧ q step.1)
        ((f a).run c')) :
    Except.Ends (ContainerError.In buffer) (fun step => step.2.In buffer ∧ q step.1)
      ((x >>= f).run c) := by
  rw [StateT.run_bind]
  apply (hx c hc).bind
  intro step hstep hpost
  exact hf step.1 step.2 hstep hpost.1 hpost.2

theorem StaysIn.bind (hx : x.StaysIn buffer p) (hf : ∀ a, p a → (f a).StaysIn buffer q) :
    (x >>= f).StaysIn buffer q :=
  fun _ hc => hx.bind_run hc fun a c' _ hc' ha => hf a ha c' hc'

theorem StaysIn.map {f : α → β} (hx : x.StaysIn buffer fun a => q (f a)) :
    (x >>= fun a => Pure.pure (f a)).StaysIn buffer q :=
  hx.bind fun _ h => StaysIn.pure h

/-- The offset that is looked at is in the bytes. -/
theorem StaysIn.offset {f : Nat → Read β} (hf : ∀ n ≤ buffer.length, (f n).StaysIn buffer q) :
    (Read.offset >>= f).StaysIn buffer q := fun c hc => hf c.offset hc.offset_le c hc

theorem StaysIn.get {f : Cursor → Read β} (hf : ∀ c, (f c).StaysIn buffer q) :
    ((get : Read Cursor) >>= f).StaysIn buffer q := fun c hc => hf c c hc

theorem StaysIn.throw {e : ContainerError} (he : e.In buffer) :
    (throw e : Read α).StaysIn buffer p := fun _ _ => .error he

theorem StaysIn.refuse {offset : Nat} {fault : ContainerFault} (h : offset ≤ buffer.length) :
    (Read.refuse offset fault : Read α).StaysIn buffer p := StaysIn.throw h

theorem StaysIn.check {c : Prop} [Decidable c] {γ : Type} {e : ContainerError} {f : γ → Read α}
    (he : e.In buffer) (hx : x.StaysIn buffer p) :
    (if c then (MonadExcept.throw e : Read γ) >>= f else x).StaysIn buffer p := by
  by_cases hc : c
  · rw [if_pos hc]
    exact fun _ _ => .error he
  · rw [if_neg hc]
    exact hx

/-- Bytes are only read when there are as many, and they end in the bytes. -/
theorem StaysIn.bytes (count : Nat) : (Read.bytes count).StaysIn buffer fun _ => True := by
  intro c hc
  have hlength := hc.length
  show Except.Ends _ _ (Read.bytes count c)
  unfold Read.bytes
  by_cases hle : count ≤ c.rest.length
  · rw [if_pos hle]
    refine .ok ⟨⟨?_, ?_⟩, trivial⟩
    · show c.offset + count ≤ buffer.length
      omega
    · show c.rest.drop count = buffer.drop (c.offset + count)
      rw [hc.rest_eq, List.drop_drop]
  · rw [if_neg hle]
    exact .error hc.offset_le

theorem StaysIn.times (hx : x.StaysIn buffer fun _ => True) (count : Nat) :
    (x.times count).StaysIn buffer fun _ => True := by
  induction count with
  | zero => exact .pure trivial
  | succ count ih => exact hx.bind fun head _ => ih.map

/-! ### More bytes behind -/

/-- How a computation ends when it is run on bytes, and when it is run with more bytes behind them.
    It finds the bytes alone malformed, or reads the same in both runs, or fails in both. -/
inductive Keeps (more : List UInt8) :
    Except ContainerError (α × Cursor) → Except ContainerError (α × Cursor) → Prop
  | ok {a : α} {c : Cursor} : Keeps more (.ok (a, c)) (.ok (a, c.extend more))
  | malformed {e : ContainerError} {y : Except ContainerError (α × Cursor)} (h : e.Malformed) :
      Keeps more (.error e) y
  | error {e e' : ContainerError} : Keeps more (.error e) (.error e')

/-- More bytes behind all others do not matter where the others alone are not malformed. -/
def Steady (x : Read α) : Prop :=
  ∀ (c : Cursor) (more : List UInt8), Keeps more (x.run c) (x.run (c.extend more))

theorem Steady.pure {a : α} : (pure a : Read α).Steady := fun _ _ => .ok

theorem Steady.bind (hx : x.Steady) (hf : ∀ a, (f a).Steady) : (x >>= f).Steady := by
  intro c more
  have h := hx c more
  rw [StateT.run_bind, StateT.run_bind]
  generalize x.run c = y, x.run (c.extend more) = y' at h
  cases h with
  | @ok a c₁ => exact hf a c₁ more
  | malformed he => exact .malformed he
  | error => exact .error

theorem Steady.map {f : α → β} (hx : x.Steady) : (x >>= fun a => Pure.pure (f a)).Steady :=
  hx.bind fun _ => Steady.pure

/-- The offset does not depend on what is behind it. -/
theorem Steady.offset {f : Nat → Read β} (hf : ∀ n, (f n).Steady) : (Read.offset >>= f).Steady :=
  fun c more => hf c.offset c more

theorem Steady.throw {e : ContainerError} : (throw e : Read α).Steady := fun _ _ => .error

theorem Steady.refuse {offset : Nat} {fault : ContainerFault} :
    (Read.refuse offset fault : Read α).Steady := Steady.throw

theorem Steady.check {p : Prop} [Decidable p] {γ : Type} {e : ContainerError} {f : γ → Read α}
    (hx : x.Steady) : (if p then (MonadExcept.throw e : Read γ) >>= f else x).Steady := by
  by_cases hp : p
  · rw [if_pos hp]
    exact fun _ _ => .error
  · rw [if_neg hp]
    exact hx

/-- Bytes that are not there are what makes bytes malformed. -/
theorem Steady.bytes (count : Nat) : (Read.bytes count).Steady := by
  intro c more
  show Keeps more (Read.bytes count c) (Read.bytes count (c.extend more))
  unfold Read.bytes
  by_cases hle : count ≤ c.rest.length
  · have hroom : count ≤ (c.extend more).rest.length := by
      rw [Cursor.rest_extend, List.length_append]
      omega
    rw [if_pos hle, if_pos hroom, Cursor.rest_extend, List.take_append_of_le_length hle,
      List.drop_append_of_le_length hle]
    exact .ok
  · rw [if_neg hle]
    exact .malformed ⟨c.offset, .endOfBuffer, rfl⟩

theorem Steady.times (hx : x.Steady) (count : Nat) : (x.times count).Steady := by
  induction count with
  | zero => exact .pure
  | succ count ih => exact hx.bind fun head => ih.map

/-! ### The same bytes at another place -/

/-- Two computations read the same bytes at different places, and what they read is related by `r`.
    The bytes behind may be others when something is read, but not more or fewer; and both fail on
    the same bytes, with errors of one variant. -/
structure Parallel (r : α → α → Prop) (x x' : Read α) : Prop where
  ok : ∀ c a c', x.run c = .ok (a, c') → ∃ used, c.rest = used ++ c'.rest ∧
    c'.offset = c.offset + used.length ∧
    ∀ offset rest, rest.length = c'.rest.length → ∃ a', r a a' ∧
      x'.run ⟨offset, used ++ rest⟩ = .ok (a', ⟨offset + used.length, rest⟩)
  error : ∀ c e, x.run c = .error e → ∀ offset, ∃ e', e'.variant = e.variant ∧
    x'.run ⟨offset, c.rest⟩ = .error e'

section parallel

variable {r r' : α → α → Prop} {q : β → β → Prop} {x x' : Read α} {f f' : α → Read β}

theorem Parallel.mono (h : Parallel r x x') (hr : ∀ a a', r a a' → r' a a') :
    Parallel r' x x' where
  ok := by
    intro c a c' hrun
    obtain ⟨used, hrest, hoffset, hagain⟩ := h.ok c a c' hrun
    refine ⟨used, hrest, hoffset, fun offset rest hlength => ?_⟩
    obtain ⟨a', ha, hrun'⟩ := hagain offset rest hlength
    exact ⟨a', hr a a' ha, hrun'⟩
  error := h.error

theorem Parallel.pure {a a' : α} (h : r a a') :
    Parallel r (pure a : Read α) (pure a' : Read α) where
  ok := by
    rintro c _ _ ⟨⟩
    exact ⟨[], rfl, rfl, fun offset rest _ => ⟨a', h, rfl⟩⟩
  error := by
    rintro c e ⟨⟩

theorem Parallel.bind (hx : Parallel r x x') (hf : ∀ a a', r a a' → Parallel q (f a) (f' a')) :
    Parallel q (x >>= f) (x' >>= f') where
  ok := by
    intro c b c' hrun
    obtain ⟨a, c₁, hxrun, hfrun⟩ := bind_eq_ok_iff.mp hrun
    obtain ⟨used, hrest, hoffset, hagain⟩ := hx.ok c a c₁ hxrun
    obtain ⟨a', ha, -⟩ := hagain 0 c₁.rest rfl
    obtain ⟨used', hrest', hoffset', -⟩ := (hf a a' ha).ok c₁ b c' hfrun
    refine ⟨used ++ used', ?_, ?_, fun offset rest hlength => ?_⟩
    · rw [hrest, hrest', List.append_assoc]
    · rw [hoffset', hoffset, List.length_append, Nat.add_assoc]
    · have hroom : (used' ++ rest).length = c₁.rest.length := by
        rw [hrest', List.length_append, List.length_append, hlength]
      obtain ⟨a', ha, hxrun'⟩ := hagain offset (used' ++ rest) hroom
      -- The second part takes the same bytes, whichever of the values is read before it.
      obtain ⟨used₂, hrest₂, -, hagain₂⟩ := (hf a a' ha).ok c₁ b c' hfrun
      obtain rfl := List.append_cancel_right (hrest'.symm.trans hrest₂)
      obtain ⟨b', hb, hfrun'⟩ := hagain₂ (offset + used.length) rest hlength
      refine ⟨b', hb, ?_⟩
      rw [List.append_assoc, List.length_append, ← Nat.add_assoc]
      exact bind_eq_ok_iff.mpr ⟨a', _, hxrun', hfrun'⟩
  error := by
    intro c e hrun offset
    cases hxrun : x.run c with
    | error e' =>
      rw [run_bind_error hxrun] at hrun
      cases hrun
      obtain ⟨e', hvariant, hxrun'⟩ := hx.error c e hxrun offset
      exact ⟨e', hvariant, run_bind_error hxrun'⟩
    | ok step =>
      rw [run_bind_of_ok hxrun] at hrun
      obtain ⟨used, hrest, -, hagain⟩ := hx.ok c step.1 step.2 hxrun
      obtain ⟨a', ha, hxrun'⟩ := hagain offset step.2.rest rfl
      obtain ⟨e', hvariant, hfrun'⟩ := (hf step.1 a' ha).error step.2 e hrun (offset + used.length)
      refine ⟨e', hvariant, ?_⟩
      rw [hrest, run_bind_of_ok hxrun', hfrun']

/-- A sequence whose first parts read the same value. -/
theorem Parallel.bind_eq (hx : Parallel Eq x x') (hf : ∀ a, Parallel q (f a) (f' a)) :
    Parallel q (x >>= f) (x' >>= f') := by
  refine hx.bind ?_
  rintro a _ rfl
  exact hf a

theorem Parallel.map {f : α → β} (hx : Parallel Eq x x') :
    Parallel Eq (x >>= fun a => Pure.pure (f a)) (x' >>= fun a => Pure.pure (f a)) :=
  hx.bind_eq fun _ => .pure rfl

/-- The offsets that are looked at have nothing to do with each other. -/
theorem Parallel.offset {f f' : Nat → Read β} (hf : ∀ n n', Parallel q (f n) (f' n')) :
    Parallel q (Read.offset >>= f) (Read.offset >>= f') where
  ok := by
    intro c b c' hrun
    obtain ⟨used, hrest, hoffset, -⟩ := (hf c.offset 0).ok c b c' hrun
    refine ⟨used, hrest, hoffset, fun n rest hlength => ?_⟩
    obtain ⟨used', hrest', -, hagain⟩ := (hf c.offset n).ok c b c' hrun
    obtain rfl := List.append_cancel_right (hrest.symm.trans hrest')
    exact hagain n rest hlength
  error c e hrun n := (hf c.offset n).error c e hrun n

/-- A part together with the offsets before and behind it. -/
def between (x : Read α) : Read (Nat × α × Nat) := do
  let start ← Read.offset
  let a ← x
  return (start, a, ← Read.offset)

/-- A part is as long at both places. -/
theorem Parallel.between (hx : Parallel r x x') :
    Parallel (fun (start, a, stop) (start', a', stop') =>
      r a a' ∧ ∃ count, stop = start + count ∧ stop' = start' + count)
      (Read.between x) (Read.between x') where
  ok := by
    intro c m c' hrun
    obtain ⟨start, _, hstart, hrun⟩ := bind_eq_ok_iff.mp hrun
    cases hstart
    obtain ⟨a, c₁, hxrun, hrun⟩ := bind_eq_ok_iff.mp hrun
    obtain ⟨stop, _, hstop, hrun⟩ := bind_eq_ok_iff.mp hrun
    cases hstop
    cases hrun
    -- The part uses the same bytes at both places, so both ends move by as many.
    obtain ⟨used, hrest, hoffset, hagain⟩ := hx.ok c a c' hxrun
    refine ⟨used, hrest, hoffset, fun offset rest hlength => ?_⟩
    obtain ⟨a', ha, hxrun'⟩ := hagain offset rest hlength
    refine ⟨(offset, a', offset + used.length), ⟨ha, used.length, hoffset, rfl⟩, ?_⟩
    exact bind_eq_ok_iff.mpr ⟨offset, _, run_offset, bind_eq_ok_iff.mpr ⟨a', _, hxrun', rfl⟩⟩
  error := by
    intro c e hrun offset
    cases hxrun : x.run c with
    | error e' =>
      rw [Read.between, run_bind_of_ok run_offset, run_bind_error hxrun] at hrun
      cases hrun
      obtain ⟨e', hvariant, hxrun'⟩ := hx.error c e hxrun offset
      exact ⟨e', hvariant, by rw [Read.between, run_bind_of_ok run_offset, run_bind_error hxrun']⟩
    | ok step =>
      rw [Read.between, run_bind_of_ok run_offset, run_bind_of_ok hxrun] at hrun
      cases hrun

/-- Of the cursors that are looked at only the numbers of bytes left may be used. -/
theorem Parallel.get {f f' : Cursor → Read β}
    (hf : ∀ c c', c.rest.length = c'.rest.length → Parallel q (f c) (f' c')) :
    Parallel q ((get : Read Cursor) >>= f) ((get : Read Cursor) >>= f') where
  ok := by
    intro c b c' hrun
    obtain ⟨used, hrest, hoffset, -⟩ := (hf c c rfl).ok c b c' hrun
    refine ⟨used, hrest, hoffset, fun n rest hlength => ?_⟩
    have hsame : c.rest.length = (used ++ rest).length := by
      rw [hrest, List.length_append, List.length_append, hlength]
    obtain ⟨used', hrest', -, hagain⟩ := (hf c ⟨n, used ++ rest⟩ hsame).ok c b c' hrun
    obtain rfl := List.append_cancel_right (hrest.symm.trans hrest')
    exact hagain n rest hlength
  error c e hrun n := (hf c ⟨n, c.rest⟩ rfl).error c e hrun n

theorem Parallel.throw {e e' : ContainerError} (h : e'.variant = e.variant) :
    Parallel r (throw e : Read α) (throw e' : Read α) where
  ok := by
    rintro c _ _ ⟨⟩
  error := by
    rintro c _ ⟨⟩ offset
    exact ⟨e', h, rfl⟩

theorem Parallel.refuse {offset offset' : Nat} {fault fault' : ContainerFault} :
    Parallel r (Read.refuse offset fault : Read α) (Read.refuse offset' fault' : Read α) :=
  .throw rfl

/-- Checks that are passed alike, and throw alike. -/
theorem Parallel.check {p p' : Prop} [Decidable p] [Decidable p'] {γ : Type}
    {e e' : ContainerError} {f f' : γ → Read α} (hp : p' ↔ p) (he : e'.variant = e.variant)
    (hx : Parallel r x x') :
    Parallel r (if p then (MonadExcept.throw e : Read γ) >>= f else x)
      (if p' then (MonadExcept.throw e' : Read γ) >>= f' else x') := by
  by_cases h : p
  · rw [if_pos h, if_pos (hp.mpr h)]
    exact Parallel.throw he
  · rw [if_neg h, if_neg (mt hp.mp h)]
    exact hx

theorem Parallel.bytes (count : Nat) : Parallel Eq (Read.bytes count) (Read.bytes count) where
  ok := by
    intro c a c' hrun
    change Read.bytes count c = _ at hrun
    unfold Read.bytes at hrun
    by_cases hle : count ≤ c.rest.length
    · rw [if_pos hle] at hrun
      cases hrun
      have hlength : (c.rest.take count).length = count := List.length_take_of_le hle
      refine ⟨c.rest.take count, (List.take_append_drop count c.rest).symm, by rw [hlength], ?_⟩
      exact fun offset rest _ => ⟨_, rfl, Takes.bytes hlength offset rest⟩
    · rw [if_neg hle] at hrun
      cases hrun
  error := by
    intro c e hrun offset
    change Read.bytes count c = _ at hrun
    unfold Read.bytes at hrun
    by_cases hle : count ≤ c.rest.length
    · rw [if_pos hle] at hrun
      cases hrun
    · rw [if_neg hle] at hrun
      cases hrun
      exact ⟨.format offset .endOfBuffer, rfl, if_neg hle⟩

theorem Parallel.times (hx : Parallel Eq x x') (count : Nat) :
    Parallel Eq (x.times count) (x'.times count) := by
  induction count with
  | zero => exact .pure rfl
  | succ count ih => exact hx.bind_eq fun head => ih.map

end parallel

end Read

end LayerGraph
