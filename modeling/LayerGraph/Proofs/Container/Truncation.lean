import LayerGraph.Proofs.Container.Rewriting
import LayerGraph.Proofs.Container.Soundness
import LayerGraph.Proofs.Graph.Identities

/-! # Containers that are cut short or run on

  A container that is accepted is accepted as a whole. Main statement: without its last bytes it is
  malformed, and so it is with more bytes behind it, which are found where the container ends. So
  no accepted container begins with another one (`Graph.deserialize_prefix_free`).

  Reading compares lengths with what is left in many places, so it is not obvious that bytes behind
  the container do not matter before the end is checked. Two loadings are therefore followed record
  by record, one of the bytes alone and one with more bytes behind them (`Loading.Behind`). Either
  the bytes alone turn out to be malformed, or both loadings come to the same numbering and to the
  same graph (`follows_load`). Then they differ in what is left, which is all that the check of the
  end looks at.
-/

namespace LayerGraph

/-! ### Two loadings -/

/-- How a computation ends for some bytes, and how it ends for more. The bytes alone are malformed,
    or both give answers, which are related by `r`, or both fail. -/
inductive Build.Follows {α : Type} (r : α → α → Prop) :
    EStateM.Result ContainerError GuidSupply α → EStateM.Result ContainerError GuidSupply α → Prop
  | ok {a a' : α} {s s' : GuidSupply} (h : r a a') : Follows r (.ok a s) (.ok a' s')
  | malformed {e : ContainerError} {s : GuidSupply}
      {y : EStateM.Result ContainerError GuidSupply α} (h : e.Malformed) : Follows r (.error e s) y
  | error {e e' : ContainerError} {s s' : GuidSupply} : Follows r (.error e s) (.error e' s')

section follows

variable {α β : Type} {r : α → α → Prop} {r' : β → β → Prop} {supply fresh : GuidSupply}

theorem Build.Follows.bind {x x' : Build ContainerError α} {f f' : α → Build ContainerError β}
    (hx : Follows r (x.run supply) (x'.run fresh))
    (hf : ∀ a s a' s', r a a' → Follows r' ((f a).run s) ((f' a').run s')) :
    Follows r' ((x >>= f).run supply) ((x' >>= f').run fresh) := by
  rw [EStateM.run_bind, EStateM.run_bind]
  generalize x.run supply = y, x'.run fresh = y' at hx
  cases hx with
  | ok h => exact hf _ _ _ _ h
  | malformed h => exact .malformed h
  | error => exact .error

/-- What comes behind a steady computation sees the same value in both. -/
theorem Build.Follows.bind_read {x : Read α} {f f' : α × Cursor → Build ContainerError β}
    (hx : x.Steady) (c : Cursor) (more : List UInt8)
    (hf : ∀ a c', Follows r' ((f (a, c')).run supply) ((f' (a, c'.extend more)).run fresh)) :
    Follows r' ((Build.ofExcept (x.run c) >>= f).run supply)
      ((Build.ofExcept (x.run (c.extend more)) >>= f').run fresh) := by
  have hkeeps := hx c more
  generalize x.run c = y, x.run (c.extend more) = y' at hkeeps
  cases hkeeps with
  | ok => exact hf _ _
  | malformed h => exact .malformed h
  | error => exact .error

end follows

namespace Container

open Codec Build

variable {bytes more : List UInt8} {features : Features} {supply fresh : GuidSupply}
variable {s s' : Loading}

/-- The second loading has come as far as the first one, with more bytes behind. The graphs are the
    same but for the identities of their layers. -/
structure Loading.Behind (more : List UInt8) (s s' : Loading) : Prop where
  cursor : s'.cursor = s.cursor.extend more
  numbering : s'.numbering = s.numbering
  graph : s.graph.anonymous = s'.graph.anonymous

/-! ### The parts of a container -/

theorem steady_header : readHeader.Steady := by
  refine (Read.Steady.bytes _).bind fun mark => Read.Steady.check ?_
  refine Read.Steady.offset fun start => uint32_plain.steady.bind fun version => ?_
  split
  · exact .throw
  · exact .pure

theorem steady_entries (count : Nat) (seen : List UInt16) (f : Features) :
    (Features.readEntries count seen f).Steady := by
  induction count generalizing seen f with
  | zero => exact .pure
  | succ count ih =>
    have hentry : (Features.readEntry seen f).Steady := by
      refine Read.Steady.offset fun start => entry_plain.steady.bind fun entry => ?_
      exact Read.Steady.check (Read.Steady.check .pure)
    exact hentry.bind fun entry => ih entry.1 entry.2

theorem steady_preamble : readPreamble.Steady := by
  refine steady_header.bind fun _ => ?_
  have hfeatures : Features.read.Steady :=
    (length_steady 6).bind fun count => steady_entries count [] {}
  exact hfeatures.bind fun features => (length_steady 18).map

/-- A record that the graph refuses makes the bytes malformed. Otherwise its layer is added to
    both graphs. -/
theorem follows_addRecord {g g' : Graph} (hsame : g.anonymous = g'.anonymous) (offset : Nat)
    (r : LayerRecord) :
    Follows (fun p p' => p.1 = p'.1 ∧ p.2.anonymous = p'.2.anonymous)
      ((atOffset offset (addRecord g r)).run supply)
      ((atOffset offset (addRecord g' r)).run fresh) := by
  cases hrun : (addRecord g r).run supply with
  | error cause t =>
    rw [atOffset, EStateM.run_adaptExcept, hrun]
    exact .malformed ⟨offset, .graph cause, rfl⟩
  | ok p t =>
    obtain ⟨layer, h⟩ := p
    obtain ⟨g₁, hadded, hlayer, -, hfill⟩ := addRecord_eq_ok_iff.mp hrun
    obtain ⟨g₁', hadded', hsame₁⟩ := Graph.exists_added_of_anonymous hsame hadded fresh.next
    have hblind : Graph.Blind (fillIn g.layers.length r) :=
      (Graph.blind_foldlM (fun (source, index) => Graph.blind_connect source ⟨_, index⟩) _).bind
        (Graph.blind_foldlM (fun (info, index) => Graph.blind_setInfo ⟨_, index⟩ info) _)
    obtain ⟨h', hfill', hsame'⟩ := hblind g₁ g₁' h hsame₁ hfill
    have hplace : g.layers.length = g'.layers.length := by
      rw [← Graph.length_anonymous g, hsame, Graph.length_anonymous]
    rw [hplace] at hfill' hlayer
    have hrun' := addRecord_eq_ok_iff.mpr ⟨g₁', hadded', hlayer, rfl, hfill'⟩
    rw [atOffset, EStateM.run_adaptExcept, hrun, atOffset, EStateM.run_adaptExcept, hrun']
    exact .ok ⟨rfl, hsame'⟩

theorem follows_loadLayer (h : s.Behind more s') :
    Follows (Loading.Behind more) ((loadLayer features s).run supply)
      ((loadLayer features s').run fresh) := by
  -- The record asks for descriptors, and these are the same in both graphs.
  have hread (c : Cursor) : (readRecord features s'.numbering s'.graph).run c =
      (readRecord features s.numbering s.graph).run c := by
    rw [h.numbering]
    apply readRecord_congr
    intro number layer _ slot
    rw [Graph.info?_eq_content?, Graph.info?_eq_content?, ← Graph.content?_anonymous, ← h.graph,
      Graph.content?_anonymous]
  unfold loadLayer
  rw [h.cursor, hread]
  apply Follows.bind_read (steady_record features s.numbering s.graph) s.cursor more
  intro r cursor
  apply (follows_addRecord h.graph r.offset r).bind
  intro p t p' t' hp
  refine .ok ⟨rfl, ?_, hp.2⟩
  show (r.number, p'.1) :: s'.numbering = (r.number, p.1) :: s.numbering
  rw [hp.1, h.numbering]

/-- By induction on the number of records. -/
theorem follows_loadLayers {count : Nat} (h : s.Behind more s') :
    Follows (Loading.Behind more) ((loadLayers features count s).run supply)
      ((loadLayers features count s').run fresh) := by
  induction count generalizing s s' supply fresh with
  | zero => exact .ok h
  | succ count ih =>
    apply (follows_loadLayer h).bind
    intro s₁ t s₁' t' h₁
    exact ih h₁

/-- An entry that names no boundary makes the bytes malformed. -/
theorem malformed_boundaryBinding (offset : Nat) (id : Int32) :
    Except.Ends ContainerError.Malformed (fun _ => True)
      (boundaryBinding features s offset id) := by
  unfold boundaryBinding
  split
  · exact .ok trivial
  · dsimp only
    split
    · exact .ok trivial
    · exact .error ⟨offset, .notBoundary id, rfl⟩

theorem follows_loadBoundary (h : s.Behind more s') (direction : Direction) :
    Follows (Loading.Behind more) ((Build.ofExcept (loadBoundary features direction s)).run supply)
      ((Build.ofExcept (loadBoundary features direction s')).run fresh) := by
  have hbinding : boundaryBinding features s' = boundaryBinding features s := by
    funext offset id
    unfold boundaryBinding
    rw [h.numbering, ← Graph.binding?_anonymous s'.graph, ← h.graph, Graph.binding?_anonymous]
  simp only [loadBoundary, Build.ofExcept_bind, hbinding, h.cursor, Cursor.offset_extend]
  apply Follows.bind_read int32s_plain.steady s.cursor more
  intro ids cursor
  -- Whatever is refused from here on is a fault of the bytes.
  have hentries := Except.Ends.mapM (f := boundaryBinding features s s.cursor.offset)
    fun id (_ : id ∈ ids) => malformed_boundaryBinding s.cursor.offset id
  cases horder : ids.mapM (boundaryBinding features s s.cursor.offset) with
  | error e =>
    rw [horder] at hentries
    cases hentries with
    | error he => exact .malformed he
  | ok order =>
    cases hreorder : s.graph.reorder direction order with
    | error cause =>
      simp only [Build.run_bind_of_ok (Build.ofExcept_eq_ok_iff.mpr ⟨rfl, rfl⟩), hreorder]
      exact .malformed ⟨s.cursor.offset, .graph cause, rfl⟩
    | ok g =>
      obtain ⟨g', hreorder', hsame⟩ := Graph.blind_reorder direction order _ _ g h.graph hreorder
      simp only [Build.run_bind_of_ok (Build.ofExcept_eq_ok_iff.mpr ⟨rfl, rfl⟩), hreorder,
        hreorder']
      exact .ok ⟨rfl, h.numbering, hsame⟩

/-- Bytes alone and with more behind them are loaded in the same way, unless they are malformed
    alone. -/
theorem follows_load (bytes more : List UInt8) (supply fresh : GuidSupply) :
    Follows (Loading.Behind more) ((load bytes).run supply) ((load (bytes ++ more)).run fresh) := by
  apply Follows.bind_read steady_preamble (.start bytes) more
  intro preamble cursor
  have hstart : Loading.Behind more ⟨cursor, [], .empty⟩ ⟨cursor.extend more, [], .empty⟩ :=
    ⟨rfl, rfl, rfl⟩
  apply (follows_loadLayers hstart).bind
  intro s t s' t' h
  apply (follows_loadBoundary h .input).bind
  intro s₁ t₁ s₁' t₁' h₁
  exact follows_loadBoundary h₁ .output

/-! ### The end -/

/-- Bytes that are left are refused where the container ends. -/
theorem checkEnd_of_rest (h : s.cursor.rest ≠ []) :
    checkEnd s = .error (.format s.cursor.offset (.trailing s.cursor.rest.length)) := by
  unfold checkEnd
  rw [if_neg (by rwa [List.isEmpty_iff])]

variable {g : Graph}

/-- A container that is accepted is loaded up to its last byte. -/
theorem load_of_deserialize (h : (Graph.deserialize bytes).run supply = .ok g fresh) :
    ∃ s, (load bytes).run supply = .ok s fresh ∧ s.cursor.rest = [] ∧
      s.cursor.offset = bytes.length := by
  rw [deserialize_eq_load] at h
  obtain ⟨s, t, hload, hends⟩ := Build.bind_eq_ok_iff.mp h
  obtain ⟨hend, rfl⟩ := Build.ofExcept_eq_ok_iff.mp hends
  obtain ⟨-, hrest, -⟩ := checkEnd_eq_ok hend
  have hlength := ((ends_load bytes supply).post_of_ok hload).length
  rw [hrest, List.length_nil] at hlength
  exact ⟨s, hload, hrest, hlength⟩

/-- Without its last bytes the container is malformed. -/
theorem malformed_of_cut {front : List UInt8} {supply' : GuidSupply} (hmore : more ≠ [])
    (h : (Graph.deserialize (front ++ more)).run supply = .ok g supply') (fresh : GuidSupply) :
    ∃ offset fault fresh', offset ≤ front.length ∧
      (Graph.deserialize front).run fresh = .error (.format offset fault) fresh' := by
  obtain ⟨s', hload', hrest, -⟩ := load_of_deserialize h
  have hfollows := follows_load front more fresh supply
  rw [hload'] at hfollows
  cases hload : (load front).run fresh with
  | ok s t =>
    -- Both would be loaded, but then the bytes cut off would be left of the whole container.
    rw [hload] at hfollows
    obtain ⟨hbehind⟩ := hfollows
    rw [hbehind.cursor, Cursor.rest_extend, List.append_eq_nil_iff] at hrest
    exact absurd hrest.2 hmore
  | error e t =>
    have hends := ends_load front fresh
    rw [hload] at hfollows hends
    obtain ⟨offset, fault, rfl⟩ : e.Malformed := by
      cases hfollows with
      | malformed he => exact he
    refine ⟨offset, fault, t, hends.fails_of_error rfl, ?_⟩
    rw [deserialize_eq_load]
    exact Build.run_bind_error hload

/-- With more bytes behind it the container is malformed where it ends. -/
theorem malformed_of_trailing {supply' : GuidSupply}
    (h : (Graph.deserialize bytes).run supply = .ok g supply') (hmore : more ≠ [])
    (fresh : GuidSupply) :
    ∃ fresh', (Graph.deserialize (bytes ++ more)).run fresh =
      .error (.format bytes.length (.trailing more.length)) fresh' := by
  obtain ⟨s, hload, hrest, hoffset⟩ := load_of_deserialize h
  have hfollows := follows_load bytes more supply fresh
  rw [hload] at hfollows
  -- Loading does not look behind what it reads, so it ends as without the rest.
  cases hload' : (load (bytes ++ more)).run fresh with
  | error e t =>
    rw [hload'] at hfollows
    cases hfollows
  | ok s' t =>
    rw [hload'] at hfollows
    obtain ⟨hbehind⟩ := hfollows
    have hrest' : s'.cursor.rest = more := by
      rw [hbehind.cursor, Cursor.rest_extend, hrest, List.nil_append]
    have hoffset' : s'.cursor.offset = bytes.length := by
      rw [hbehind.cursor, Cursor.offset_extend, hoffset]
    have hend : checkEnd s' = .error (.format bytes.length (.trailing more.length)) := by
      rw [← hrest'] at hmore ⊢
      rw [checkEnd_of_rest hmore, hoffset']
    refine ⟨t, ?_⟩
    rw [deserialize_eq_load, Build.run_bind_of_ok hload', hend]
    rfl

end Container

namespace Graph

open Container

/-- What is left of an accepted container when bytes are cut off is malformed, at a place that is
    still there. An accepted container with bytes behind it is malformed where it ends. So an
    accepted container that begins with another one is this one. -/
theorem deserialize_prefix_free {bytes : List UInt8} {g : Graph} {supply supply' : GuidSupply}
    (h : (deserialize bytes).run supply = .ok g supply') (fresh : GuidSupply) :
    (∀ front, front <+: bytes → front ≠ bytes → ∃ offset fault fresh', offset ≤ front.length ∧
      (deserialize front).run fresh = .error (.format offset fault) fresh') ∧
    (∀ more, more ≠ [] → ∃ fresh', (deserialize (bytes ++ more)).run fresh =
      .error (.format bytes.length (.trailing more.length)) fresh') ∧
    ∀ other g' fresh', (deserialize other).run fresh = .ok g' fresh' → bytes <+: other →
      other = bytes := by
  refine ⟨?_, fun more hmore => malformed_of_trailing h hmore fresh, ?_⟩
  · intro front hfront hne
    obtain ⟨more, rfl⟩ := hfront
    have hmore : more ≠ [] := by
      rintro rfl
      exact hne (List.append_nil front).symm
    exact malformed_of_cut hmore h fresh
  · intro other g' fresh' hother hprefix
    obtain ⟨more, rfl⟩ := hprefix
    by_cases hmore : more = []
    · rw [hmore, List.append_nil]
    · obtain ⟨t, herror⟩ := malformed_of_trailing h hmore fresh
      rw [herror] at hother
      cases hother

theorem deserialize_prefix_free_oldDepthwise :
    (∃ offset fault supply, offset ≤ 100 ∧
      (deserialize (oldDepthwise.take 100)).run .initial = .error (.format offset fault) supply) ∧
    ∃ supply, (deserialize (oldDepthwise ++ [0, 7])).run .initial =
      .error (.format 319 (.trailing 2)) supply := by
  have haccepted : (match (deserialize oldDepthwise).run .initial with
      | .ok _ _ => true
      | .error _ _ => false) = true := by decide +kernel
  cases hrun : (deserialize oldDepthwise).run .initial with
  | error e supply =>
    rw [hrun] at haccepted
    cases haccepted
  | ok g supply =>
    obtain ⟨hcut, htrailing, -⟩ := deserialize_prefix_free hrun .initial
    have hlength : oldDepthwise.length = 319 := by decide +kernel
    have hfront : (oldDepthwise.take 100).length = 100 := by rw [List.length_take, hlength]; rfl
    have hne : oldDepthwise.take 100 ≠ oldDepthwise := by
      intro heq
      rw [heq, hlength] at hfront
      cases hfront
    have hcut := hcut _ (List.take_prefix 100 oldDepthwise) hne
    have htrailing := htrailing [0, 7] (List.cons_ne_nil 0 [7])
    rw [hfront] at hcut
    rw [hlength] at htrailing
    exact ⟨hcut, htrailing⟩

end Graph

end LayerGraph
