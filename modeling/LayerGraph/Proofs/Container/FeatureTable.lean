import LayerGraph.Proofs.Container.Boundaries
import LayerGraph.Proofs.Container.RoundTrip

/-! # The table of features

  Main statement: containers that differ in their tables of features alone end in the same way when
  the tables give the features that are known the same versions; and a table that cannot be read is
  refused, whatever comes behind it (`Graph.deserialize_of_table`).

  - A table is read entry by entry, and each entry sets one version (`run_entries`). Features are
    not repeated, so in the end each of them has the version that the table gives it, wherever in
    the table that is (`foldl_set`).
  - Tables may have different sizes. What is behind them is read at different places, but alike:
    this is where `Read.Parallel` is used, record by record.
-/

namespace LayerGraph

namespace Features

open Codec

variable {f : Features} {seen : List UInt16} {e : UInt16 × UInt32}
variable {table done after : List (UInt16 × UInt32)} {bytes : List UInt8}

/-! ### Tables that can be read -/

/-- The feature is known and has a version up to the newest one, or it is not known and has version
    zero. -/
def Understood (e : UInt16 × UInt32) : Prop :=
  (∃ newest, (e.1, newest) ∈ current.entries ∧ e.2 ≤ newest) ∨
    (e.1 ∉ current.entries.map Prod.fst ∧ e.2 = 0)

/-- No feature is repeated, and all entries are understood. -/
structure Readable (table : List (UInt16 × UInt32)) : Prop where
  distinct : (table.map Prod.fst).Nodup
  understood : ∀ e ∈ table, Understood e

/-- The version that a table gives a feature. A feature that is not listed has version zero. -/
def version (table : List (UInt16 × UInt32)) (feature : UInt16) : UInt32 :=
  (table.lookup feature).getD 0

/-- The features that a table stands for. -/
def ofTable (table : List (UInt16 × UInt32)) : Features :=
  ⟨version table 0, version table 1, version table 2⟩

/-- What is understood is what no version is refused for. -/
theorem understood_iff : Understood e ↔ ¬ newest e.1 < e.2 := by
  obtain ⟨feature, version⟩ := e
  rw [UInt32.not_lt]
  by_cases hzero : feature = 0
  · subst hzero
    simp [Understood, newest, current, entries]
  by_cases hone : feature = 1
  · subst hone
    simp [Understood, newest, current, entries, List.lookup_cons]
  by_cases htwo : feature = 2
  · subst htwo
    simp [Understood, newest, current, entries, List.lookup_cons]
  · have hunknown : newest feature = 0 := by
      simp [newest, current, entries, List.lookup_cons, beq_eq_false_iff_ne.mpr hzero,
        beq_eq_false_iff_ne.mpr hone, beq_eq_false_iff_ne.mpr htwo]
    simp [Understood, hunknown, current, entries, hzero, hone, htwo]

/-! ### Reading a table -/

/-- The features with the version of an entry, if its feature is known. -/
def set (f : Features) (e : UInt16 × UInt32) : Features := (f.set? e.1 e.2).getD f

theorem lookup_eq_none {feature : UInt16} (hnew : feature ∉ table.map Prod.fst) :
    table.lookup feature = none := by
  rw [List.lookup_eq_none_iff]
  intro e he
  have hne : feature ≠ e.1 := by
    rintro rfl
    exact hnew (List.mem_map.mpr ⟨e, he, rfl⟩)
  simpa using hne

/-- Every feature has the version that it is listed with, wherever it is listed. -/
theorem foldl_set (hdistinct : (table.map Prod.fst).Nodup) : table.foldl set f =
    ⟨(table.lookup 0).getD f.bindingIds, (table.lookup 1).getD f.weightsLayout,
      (table.lookup 2).getD f.constantsAsInputs⟩ := by
  induction table generalizing f with
  | nil => rfl
  | cons e table ih =>
    obtain ⟨feature, version⟩ := e
    obtain ⟨hnew, hdistinct⟩ := List.nodup_cons.mp hdistinct
    -- The rest of the table leaves the version as it is.
    have hnone := lookup_eq_none hnew
    rw [List.foldl_cons, ih hdistinct]
    by_cases hzero : feature = 0
    · subst hzero
      simp [set, set?, hnone, List.lookup_cons]
    by_cases hone : feature = 1
    · subst hone
      simp [set, set?, hnone, List.lookup_cons]
    by_cases htwo : feature = 2
    · subst htwo
      simp [set, set?, hnone, List.lookup_cons]
    · have hother : set f (feature, version) = f := by
        unfold set set?
        split
        · next h => exact absurd (UInt16.toNat_inj.mp h) hzero
        · next h => exact absurd (UInt16.toNat_inj.mp h) hone
        · next h => exact absurd (UInt16.toNat_inj.mp h) htwo
        · rfl
      simp [hother, List.lookup_cons, beq_eq_false_iff_ne.mpr (Ne.symm hzero),
        beq_eq_false_iff_ne.mpr (Ne.symm hone), beq_eq_false_iff_ne.mpr (Ne.symm htwo)]

/-- The bytes of each entry. -/
def Parts (table : List (UInt16 × UInt32)) (parts : List (List UInt8)) : Prop :=
  List.Forall₂ (fun e part => entry.write e = .ok part) table parts

theorem entry_fits (e : UInt16 × UInt32) : entry.Fits e 6 :=
  seq_fits_iff.mpr ⟨2, 4, ⟨_, rfl, LittleEndian.length_encode _ _⟩, uint32_fits _, rfl⟩

theorem Parts.length_flatten {parts : List (List UInt8)} (h : Parts table parts) :
    parts.flatten.length = 6 * table.length := by
  induction h with
  | nil => rfl
  | @cons e part table parts hwrite _ ih =>
    have hsix : part.length = 6 := Fits.unique ⟨part, hwrite, rfl⟩ (entry_fits e)
    rw [List.flatten_cons, List.length_append, ih, hsix, List.length_cons, Nat.mul_succ,
      Nat.add_comm]

/-- Entries that can be read are read one after the other, whatever comes behind them. -/
theorem run_entries (seen : List UInt16) (f : Features) {parts : List (List UInt8)}
    (hparts : Parts done parts) (hdistinct : (done.map Prod.fst).Nodup)
    (hnew : ∀ e ∈ done, e.1 ∉ seen)
    (hunderstood : ∀ e ∈ done, Understood e) (count offset : Nat) (rest : List UInt8) :
    (readEntries (done.length + count) seen f).run ⟨offset, parts.flatten ++ rest⟩ =
      (readEntries count ((done.map Prod.fst).reverse ++ seen) (done.foldl set f)).run
        ⟨offset + parts.flatten.length, rest⟩ := by
  induction hparts generalizing seen f offset with
  | nil => simp
  | @cons e part done parts hwrite hrest ih =>
    obtain ⟨hother, hdistinct⟩ := List.nodup_cons.mp hdistinct
    obtain ⟨hefresh, hnew⟩ := List.forall_mem_cons.mp hnew
    obtain ⟨heunderstood, hunderstood⟩ := List.forall_mem_cons.mp hunderstood
    have hfresh : ∀ e' ∈ done, e'.1 ∉ e.1 :: seen := by
      intro e' he' hmem
      rcases List.mem_cons.mp hmem with heq | hseen
      · exact hother (List.mem_map.mpr ⟨e', he', heq⟩)
      · exact hnew e' he' hseen
    -- One entry is read, and then the others, with its feature among those that were seen.
    have htakes := Container.takes_entry (f := f) hwrite hefresh (understood_iff.mp heunderstood)
    rw [List.length_cons, Nat.add_right_comm, List.flatten_cons, List.append_assoc]
    show (readEntry seen f >>= _).run _ = _
    rw [Read.run_bind_of_ok (htakes offset (parts.flatten ++ rest))]
    show (readEntries (done.length + count) (e.1 :: seen) (set f e)).run _ = _
    rw [ih _ _ hdistinct hfresh hunderstood]
    simp [Nat.add_assoc]

/-- A table that can be read is read as the features it stands for. -/
theorem takes_table (hreadable : Readable table) (hwrite : (list 6 entry).write table = .ok bytes) :
    Features.read.Takes bytes (ofTable table) := by
  obtain ⟨parts, hparts, hlt, rfl⟩ := list_write_eq_ok_iff.mp hwrite
  have hroom := length_flatten_le hparts fun _ _ => Container.entry_plain.least
  refine length_takes (length_write_of_lt hlt) hroom fun offset rest => ?_
  have hrun := run_entries [] {} hparts hreadable.distinct (by simp)
    hreadable.understood 0 offset rest
  rw [Nat.add_zero] at hrun
  rw [hrun, foldl_set hreadable.distinct]
  rfl

/-! ### Tables that cannot be read -/

/-- The first entry that is wrong is one for a feature that is listed before, or one that is not
    understood. -/
theorem exists_first (h : ¬ Readable table) : ∃ done e after, table = done ++ e :: after ∧
    Readable done ∧ (e.1 ∈ done.map Prod.fst ∨ ¬ Understood e) := by
  induction table using List.reverseRecOn with
  | nil => exact absurd ⟨List.nodup_nil, nofun⟩ h
  | append_singleton table e ih =>
    by_cases htable : Readable table
    · -- Only the last entry is left to be the wrong one.
      refine ⟨table, e, [], rfl, htable, ?_⟩
      by_contra hfine
      rw [not_or, not_not] at hfine
      refine h ⟨?_, ?_⟩
      · rw [List.map_append, List.nodup_append_comm]
        exact List.nodup_cons.mpr ⟨hfine.1, htable.distinct⟩
      · intro e' he'
        rcases List.mem_append.mp he' with hbefore | hlast
        · exact htable.understood e' hbefore
        · exact List.mem_singleton.mp hlast ▸ hfine.2
    · obtain ⟨done, first, after, rfl, hdone, hwrong⟩ := ih htable
      exact ⟨done, first, after ++ [e], by simp, hdone, hwrong⟩

/-- What the first wrong entry of a table is refused with. -/
def refusal (done : List (UInt16 × UInt32)) (e : UInt16 × UInt32) (offset : Nat) : ContainerError :=
  if e.1 ∈ done.map Prod.fst then .format offset (.featureTwice e.1)
  else .unsupported offset (.feature e.1 e.2)

/-- A wrong entry is refused where it begins. -/
theorem run_wrong_entry {part : List UInt8} (hwrite : entry.write e = .ok part)
    (hseen : ∀ feature, feature ∈ seen ↔ feature ∈ done.map Prod.fst)
    (hwrong : e.1 ∈ done.map Prod.fst ∨ ¬ Understood e) (offset : Nat) (rest : List UInt8) :
    (readEntry seen f).run ⟨offset, part ++ rest⟩ = .error (refusal done e offset) := by
  obtain ⟨feature, version⟩ := e
  unfold readEntry
  rw [Read.run_bind_of_ok Read.run_offset,
    Read.run_bind_of_ok (Container.entry_plain.takes trivial hwrite offset rest)]
  dsimp only
  by_cases htwice : feature ∈ done.map Prod.fst
  · have hcontains : seen.contains feature = true := by simpa using (hseen feature).mpr htwice
    rw [refusal, if_pos htwice, if_pos hcontains]
    rfl
  · have hcontains : ¬ seen.contains feature = true := by simpa [hseen] using htwice
    have hnew : newest feature < version := by
      by_contra hnot
      exact hwrong.resolve_left htwice (understood_iff.mpr hnot)
    rw [refusal, if_neg htwice, if_neg hcontains, if_pos hnew]
    rfl

/-- Reading ends at the first wrong entry, whatever comes behind the table. -/
theorem run_wrong (hwrite : (list 6 entry).write (done ++ e :: after) = .ok bytes)
    (hdone : Readable done) (hwrong : e.1 ∈ done.map Prod.fst ∨ ¬ Understood e) (offset : Nat)
    (rest : List UInt8) : Features.read.run ⟨offset, bytes ++ rest⟩ =
      .error (refusal done e (offset + 4 + 6 * done.length)) := by
  obtain ⟨parts, hparts, hlt, rfl⟩ := list_write_eq_ok_iff.mp hwrite
  have hroom := length_flatten_le hparts fun _ _ => Container.entry_plain.least
  -- The bytes are those of the entries in front, of the wrong one and of the others.
  have hfront : Parts done (parts.take done.length) :=
    (List.forall₂_take_append parts done (e :: after) hparts.flip).flip
  have hback : Parts (e :: after) (parts.drop done.length) :=
    (List.forall₂_drop_append parts done (e :: after) hparts.flip).flip
  rw [← List.take_append_drop done.length parts] at hroom ⊢
  generalize parts.take done.length = front, parts.drop done.length = back at *
  obtain ⟨part, others, hpart, -, rfl⟩ := List.forall₂_cons_left_iff.mp hback
  have hcount : (done ++ e :: after).length = done.length + (after.length + 1) := by simp
  rw [List.append_assoc]
  unfold Features.read
  rw [Read.run_bind_of_ok (run_length (length_write_of_lt hlt) ?_), hcount]
  · have hrun := run_entries [] {} hfront hdone.distinct (by simp)
      hdone.understood (after.length + 1) (offset + 4) (part ++ (others.flatten ++ rest))
    rw [LittleEndian.length_encode, List.flatten_append, List.flatten_cons, List.append_assoc,
      List.append_assoc, hrun, hfront.length_flatten]
    refine Read.run_bind_error (run_wrong_entry hpart ?_ hwrong _ _)
    simp
  · refine Nat.le_trans hroom ?_
    rw [List.length_append]
    exact Nat.le_add_right _ _

end Features

/-! ### Two containers -/

theorem Read.Parallel.lockstep {α : Type} {r : α → α → Prop} {x x' : Read α} {c c' : Cursor}
    (h : Read.Parallel r x x') (hrest : c'.rest = c.rest) :
    Except.Lockstep (fun e e' : ContainerError => e'.variant = e.variant)
      (fun step step' => r step.1 step'.1 ∧ step'.2.rest = step.2.rest) (x.run c) (x'.run c') := by
  obtain ⟨offset', rest'⟩ := c'
  obtain rfl : rest' = c.rest := hrest
  cases hrun : x.run c with
  | error e =>
    obtain ⟨e', hvariant, hrun'⟩ := h.error c e hrun offset'
    rw [hrun']
    exact .error hvariant
  | ok step =>
    obtain ⟨used, hused, -, hagain⟩ := h.ok c step.1 step.2 hrun
    obtain ⟨a', ha, hrun'⟩ := hagain offset' step.2.rest rfl
    rw [hused, hrun']
    exact .ok ⟨ha, rfl⟩

namespace Container

open Codec

variable {features : Features} {s s' : Loading} {supply : GuidSupply}

/-- Both loadings have come to the same bytes, wherever these are, with the same layers. -/
structure Loading.Alike (s s' : Loading) : Prop where
  rest : s'.cursor.rest = s.cursor.rest
  numbering : s'.numbering = s.numbering
  graph : s'.graph = s.graph

/-- Both computations give loadings that are alike and leave the same supply, or both fail with
    errors of one variant. -/
abbrev Alike : EStateM.Result ContainerError GuidSupply Loading →
    EStateM.Result ContainerError GuidSupply Loading → Prop :=
  Build.Lockstep (fun e e' => e'.variant = e.variant) fun s t s' t' => s.Alike s' ∧ t = t'

theorem alike_loadLayer (h : s.Alike s') :
    Alike ((loadLayer features s).run supply) ((loadLayer features s').run supply) := by
  unfold loadLayer
  rw [h.numbering, h.graph]
  refine ((parallel_record features s.numbering s.graph).lockstep h.rest).build.bind ?_
  rintro ⟨r, cursor⟩ t ⟨r', cursor'⟩ _ ⟨⟨hr, hrest⟩, rfl⟩
  dsimp only at hr hrest
  rw [hr]
  -- The layer is the same. Where its record is matters for the error only.
  have hadd : Build.Lockstep (fun e e' : ContainerError => e'.variant = e.variant)
      (fun p t p' t' => p = p' ∧ t = t') ((atOffset r.offset (addRecord s.graph r)).run t)
      ((atOffset r'.offset (addRecord s.graph r)).run t) :=
    (Build.lockstep_self _).adaptExcept fun _ _ _ => rfl
  refine hadd.bind ?_
  rintro p t _ _ ⟨rfl, rfl⟩
  exact .ok ⟨⟨hrest, rfl, rfl⟩, rfl⟩

/-- By induction on the number of records. -/
theorem alike_loadLayers {count : Nat} (h : s.Alike s') :
    Alike ((loadLayers features count s).run supply) ((loadLayers features count s').run supply) := by
  induction count generalizing s s' supply with
  | zero => exact .ok ⟨h, rfl⟩
  | succ count ih =>
    refine (alike_loadLayer h).bind ?_
    rintro s₁ t s₁' _ ⟨h₁, rfl⟩
    exact ih h₁

theorem alike_loadBoundary (h : s.Alike s') (direction : Direction) :
    Except.Lockstep (fun e e' : ContainerError => e'.variant = e.variant) Loading.Alike
      (loadBoundary features direction s) (loadBoundary features direction s') := by
  refine (int32s_plain.parallel.lockstep h.rest).bind ?_
  rintro ⟨ids, cursor⟩ ⟨_, cursor'⟩ ⟨rfl, hrest⟩
  -- The offset is told in a fault only, and faults of one variant are alike.
  have hbindings : Except.Lockstep (fun e e' : ContainerError => e'.variant = e.variant) Eq
      (ids.mapM (boundaryBinding features s s.cursor.offset))
      (ids.mapM (boundaryBinding features s' s'.cursor.offset)) := by
    refine Except.Lockstep.mapM fun id _ => ?_
    unfold boundaryBinding
    rw [h.numbering, h.graph]
    split
    · exact .ok rfl
    · dsimp only
      split
      · exact .ok rfl
      · exact .error rfl
  refine hbindings.bind ?_
  rintro order _ rfl
  rw [h.graph]
  cases s.graph.reorder direction order with
  | ok g => exact .ok ⟨hrest, h.numbering, rfl⟩
  | error cause => exact .error rfl

theorem alike_checkEnd (h : s.Alike s') :
    Except.Lockstep (fun e e' : ContainerError => e'.variant = e.variant) Eq
      (checkEnd s) (checkEnd s') := by
  unfold checkEnd
  rw [h.rest, h.graph]
  split
  · split
    · exact .ok rfl
    · exact .error rfl
  · exact .error rfl

/-- The bytes are a header, the table of features and the rest. -/
def WithTable (table : List (UInt16 × UInt32)) (rest bytes : List UInt8) : Prop :=
  ∃ part, (Codec.list 6 Features.entry).write table = .ok part ∧
    bytes = magic ++ LittleEndian.encode 4 formatVersion.toNat ++ (part ++ rest)

variable {table table' : List (UInt16 × UInt32)} {rest bytes bytes' : List UInt8}

/-- Behind a table that can be read the number of records is read. -/
theorem WithTable.run_preamble (h : WithTable table rest bytes) (htable : Features.Readable table) :
    ∃ offset, readPreamble.run (.start bytes) =
      ((Codec.length 18).read >>= fun count => pure (Features.ofTable table, count)).run
        ⟨offset, rest⟩ := by
  obtain ⟨part, hwrite, rfl⟩ := h
  refine ⟨8 + part.length, (Read.run_bind_of_ok (takes_header 0 (part ++ rest))).trans ?_⟩
  exact Read.run_bind_of_ok (Features.takes_table htable hwrite _ rest)

/-- What comes behind the tables is read alike. -/
theorem WithTable.lockstep (h : WithTable table rest bytes) (h' : WithTable table' rest bytes')
    (htable : Features.Readable table) (htable' : Features.Readable table')
    (hsame : Features.ofTable table' = Features.ofTable table) (supply : GuidSupply) :
    Build.Lockstep (fun e e' => e'.variant = e.variant) (fun g t g' t' => g = g' ∧ t = t')
      ((Graph.deserialize bytes).run supply) ((Graph.deserialize bytes').run supply) := by
  obtain ⟨offset, hrun⟩ := h.run_preamble htable
  obtain ⟨offset', hrun'⟩ := h'.run_preamble htable'
  unfold Graph.deserialize
  rw [hrun, hrun', hsame]
  have hcount : Read.Parallel Eq
      ((length 18).read >>= fun count => pure (Features.ofTable table, count)) _ :=
    (length_parallel 18).map
  have hplaces : (⟨offset', rest⟩ : Cursor).rest = (⟨offset, rest⟩ : Cursor).rest := rfl
  refine (hcount.lockstep hplaces).build.bind ?_
  rintro ⟨⟨features, count⟩, cursor⟩ t ⟨_, cursor'⟩ _ ⟨⟨rfl, hrest⟩, rfl⟩
  have hstart : Loading.Alike ⟨cursor, [], .empty⟩ ⟨cursor', [], .empty⟩ := ⟨hrest, rfl, rfl⟩
  refine (alike_loadLayers hstart).bind ?_
  rintro s t s' _ ⟨h, rfl⟩
  refine (alike_loadBoundary h .input).build.bind ?_
  rintro s₁ t s₁' _ ⟨h₁, rfl⟩
  refine (alike_loadBoundary h₁ .output).build.bind ?_
  rintro s₂ t s₂' _ ⟨h₂, rfl⟩
  exact (alike_checkEnd h₂).build

/-- A table that cannot be read is refused at its first wrong entry. -/
theorem WithTable.run_wrong {done after : List (UInt16 × UInt32)} {e : UInt16 × UInt32}
    (h : WithTable (done ++ e :: after) rest bytes) (hdone : Features.Readable done)
    (hwrong : e.1 ∈ done.map Prod.fst ∨ ¬ Features.Understood e) (supply : GuidSupply) :
    (Graph.deserialize bytes).run supply =
      .error (Features.refusal done e (12 + 6 * done.length)) supply := by
  obtain ⟨part, hwrite, rfl⟩ := h
  have hpreamble : readPreamble.run (.start (magic ++
      LittleEndian.encode 4 formatVersion.toNat ++ (part ++ rest))) =
      .error (Features.refusal done e (12 + 6 * done.length)) := by
    refine (Read.run_bind_of_ok (takes_header 0 (part ++ rest))).trans ?_
    exact Read.run_bind_error (Features.run_wrong hwrite hdone hwrong _ rest)
  refine Build.run_bind_error ?_
  rw [hpreamble]
  rfl

end Container

namespace Graph

open Container Features

/-- The old container with an input and an output of the same binding is accepted. -/
theorem exists_graph_crossed : ∃ g supply, (deserialize crossed).run .initial = .ok g supply := by
  have haccepted : (match (deserialize crossed).run .initial with
      | .ok _ _ => true
      | .error _ _ => false) = true := by decide +kernel
  cases hrun : (deserialize crossed).run .initial with
  | error e supply =>
    rw [hrun] at haccepted
    cases haccepted
  | ok g supply => exact ⟨g, supply, rfl⟩

/-- When two tables can be read and give the features that are known the same versions, containers
    that differ in these tables alone give the same graph, or are refused with errors of one
    variant. Any other table is refused at its first wrong entry, whatever comes behind it. -/
theorem deserialize_of_table (table : List (UInt16 × UInt32)) :
    (Readable table → ∀ table', Readable table' →
      (∀ feature ∈ Features.current.entries.map Prod.fst,
        version table' feature = version table feature) →
      ∀ rest bytes bytes' supply, WithTable table rest bytes → WithTable table' rest bytes' →
        Build.Lockstep (fun e e' => e'.variant = e.variant) (fun g t g' t' => g = g' ∧ t = t')
          ((deserialize bytes).run supply) ((deserialize bytes').run supply)) ∧
    (¬ Readable table → ∃ done e after, table = done ++ e :: after ∧ Readable done ∧
      (e.1 ∈ done.map Prod.fst ∧ (∀ rest bytes supply, WithTable table rest bytes →
          (deserialize bytes).run supply =
            .error (.format (12 + 6 * done.length) (.featureTwice e.1)) supply) ∨
        e.1 ∉ done.map Prod.fst ∧ ¬ Understood e ∧
          ∀ rest bytes supply, WithTable table rest bytes → (deserialize bytes).run supply =
            .error (.unsupported (12 + 6 * done.length) (.feature e.1 e.2)) supply)) := by
  constructor
  · intro htable table' htable' hversions rest bytes bytes' supply h h'
    have hsame : ofTable table' = ofTable table := by
      simp only [ofTable, hversions 0 (by decide), hversions 1 (by decide), hversions 2 (by decide)]
    exact h.lockstep h' htable htable' hsame supply
  · intro hnot
    obtain ⟨done, e, after, rfl, hdone, hwrong⟩ := exists_first hnot
    refine ⟨done, e, after, rfl, hdone, ?_⟩
    by_cases htwice : e.1 ∈ done.map Prod.fst
    · refine .inl ⟨htwice, fun rest bytes supply h => ?_⟩
      rw [h.run_wrong hdone hwrong supply, refusal, if_pos htwice]
    · refine .inr ⟨htwice, hwrong.resolve_left htwice, fun rest bytes supply h => ?_⟩
      rw [h.run_wrong hdone hwrong supply, refusal, if_neg htwice]

theorem deserialize_of_table_crossed :
    (∃ bytes g supply, WithTable [(9, 0), (0, 0)] (crossed.drop 12) bytes ∧
      (deserialize crossed).run .initial = .ok g supply ∧
      (deserialize bytes).run .initial = .ok g supply) ∧
    ∃ bytes, WithTable [(1, 1), (1, 0)] (crossed.drop 12) bytes ∧
      (deserialize bytes).run .initial = .error (.format 18 (.featureTwice 1)) .initial := by
  constructor
  · obtain ⟨g, supply, hrun⟩ := exists_graph_crossed
    have hlockstep := (deserialize_of_table []).1 ⟨by decide, by simp⟩ [(9, 0), (0, 0)]
      ⟨by decide, by simp [understood_iff]⟩ (by decide) (crossed.drop 12) crossed _ .initial
      ⟨_, rfl, by decide +kernel⟩ ⟨_, rfl, rfl⟩
    rw [hrun] at hlockstep
    generalize hrun' : EStateM.run _ _ = y at hlockstep
    obtain ⟨rfl, rfl⟩ := hlockstep
    exact ⟨_, g, supply, ⟨_, rfl, rfl⟩, hrun, hrun'⟩
  · have hnot : ¬ Readable [(1, 1), (1, 0)] := fun h => absurd h.distinct (by decide)
    have hunderstood : Understood (1, 1) := understood_iff.mpr (by decide)
    obtain ⟨done, e, after, htable, -, hwrong⟩ := (deserialize_of_table _).2 hnot
    -- The first entry can be read, so it is the second one that is wrong.
    rcases done with _ | ⟨first, _ | ⟨second, done⟩⟩
    · obtain ⟨rfl, -⟩ := List.cons.inj htable
      rcases hwrong with ⟨htwice, -⟩ | ⟨-, hnot, -⟩
      · simp at htwice
      · exact absurd hunderstood hnot
    · obtain ⟨rfl, hrest⟩ := List.cons.inj htable
      obtain ⟨rfl, -⟩ := List.cons.inj hrest
      rcases hwrong with ⟨-, hrefused⟩ | ⟨hnew, -⟩
      · exact ⟨_, ⟨_, rfl, rfl⟩, hrefused _ _ _ ⟨_, rfl, rfl⟩⟩
      · simp at hnew
    · simp at htable

end Graph

end LayerGraph
