import LayerGraph.Proofs.Graph.Identities
import LayerGraph.Proofs.Lowering.InPlace
import LayerGraph.Proofs.Lowering.Run

/-! # Operators that fail leave no trace

  A caller may go on after an operator that cannot be lowered. The lowering that it keeps is then
  the one that it would have without the failed call, but for the identities of later layers, since
  the numbers of removed layers are not given away again. Main statement: a history of calls, some
  of which failed, and a new history of only those that succeeded have the same entries, and the
  same result in the end (`failures_leave_no_trace`).

  Two lowerings are compared that are the same without identities (`Same`). They are started,
  lowered and finished in the same way, one operator or boundary after the other. The history
  follows by induction on the calls: a call that succeeds does so in both lowerings, and one that
  fails leaves the first of them as it is.
-/

namespace LayerGraph

namespace Lowering

open LayerGraph.Graph

/-- The lowerings differ in the identities of their layers only. -/
structure Same (t t' : Lowering) : Prop where
  model : t.model = t'.model
  standIn : t.standIn = t'.standIn
  producers : t.producers = t'.producers
  graph : t.graph.anonymous = t'.graph.anonymous

variable {t t' : Lowering} {supply supply' fresh : GuidSupply} {index : Nat} {tensor : Int32}
variable {step : Step} {model : Model} {standIn : Bool} {site site' : Site}

theorem Same.length (h : Same t t') : t.graph.layers.length = t'.graph.layers.length := by
  rw [← length_anonymous, h.graph, length_anonymous]

theorem Same.producer? (h : Same t t') : t.producer? = t'.producer? := by
  funext tensor
  rw [Lowering.producer?, h.producers, Lowering.producer?]

/-! ### Operators -/

/-- What is read and written by a plan does not depend on identities. -/
theorem Same.sourcesOf (h : Same t t') (operator : Nat) (plan : Plan) :
    t.sourcesOf operator plan = t'.sourcesOf operator plan := by
  simp only [Lowering.sourcesOf, h.model, h.producer?]

theorem Same.checkOutputs (h : Same t t') (operator : Nat) (plan : Plan) :
    t.checkOutputs operator plan = t'.checkOutputs operator plan := by
  simp only [Lowering.checkOutputs, h.producer?]

/-- An operator that is lowered in one of them is lowered in the other one. -/
theorem Same.lower (h : Same t t') (hrun : (t.lower index).run supply = .ok step supply')
    (fresh : GuidSupply) :
    ∃ step' fresh', (t'.lower index).run fresh = .ok step' fresh' ∧
      Same step.lowering step'.lowering ∧ step.primary = step'.primary := by
  obtain ⟨plan, sources, constants, built, hplan, hsources, houtputs, hbuild, rfl⟩ :=
    lower_eq_ok_iff.mp hrun
  rw [h.model, h.standIn] at hplan
  rw [h.sourcesOf] at hsources
  rw [h.checkOutputs] at houtputs
  -- The layers go to the same positions.
  obtain ⟨g, happend, rfl⟩ := build_eq_ok_iff.mp hbuild
  rw [h.length] at happend
  obtain ⟨g', fresh', happend', hgraph⟩ := appendAll_of_anonymous h.graph happend fresh
  have hbuild' := build_eq_ok_iff.mpr ⟨g', happend', rfl⟩
  have hrun' := lower_eq_ok_iff.mpr
    ⟨plan, sources, constants, _, hplan, hsources, houtputs, hbuild', rfl⟩
  refine ⟨_, fresh', hrun', ⟨h.model, h.standIn, ?_, hgraph⟩, ?_⟩
  · show producedSlots plan constants t.graph.layers.length ++ t.producers = _
    rw [h.length, h.producers]
  · show primaryAt plan constants t.graph.layers.length = _
    rw [h.length]

/-! ### Boundaries -/

theorem lockstep_atBoundary {α : Type} {x x' : Build GraphError α} {direction : Direction}
    {r : α → GuidSupply → α → GuidSupply → Prop}
    (h : Build.Lockstep Eq r (x.run supply) (x'.run fresh)) :
    Build.Lockstep Eq r ((atBoundary direction tensor x).run supply)
      ((atBoundary direction tensor x').run fresh) := by
  unfold atBoundary
  rw [EStateM.run_adaptExcept, EStateM.run_adaptExcept]
  generalize x.run supply = y, x'.run fresh = y' at h
  cases h with
  | ok h => exact .ok h
  | error h => exact .error (by rw [h])

/-- A change of the graph that cannot fail ends in the same way. -/
theorem lockstep_ofExcept {change : Graph → Except GraphError Graph} {g g' h : Graph}
    (hblind : Blind change) (hsame : g.anonymous = g'.anonymous) (hchange : change g = .ok h) :
    Build.Lockstep Eq (fun h _ h' _ => h.anonymous = h'.anonymous)
      ((Build.ofExcept (change g)).run supply) ((Build.ofExcept (change g')).run fresh) := by
  obtain ⟨h', hchange', hsame'⟩ := hblind g g' h hsame hchange
  rw [hchange, hchange']
  exact .ok hsame'

/-- An input is made in both or refused by both. -/
theorem Same.lockstep_addInput (h : Same t t') (tensor : Int32) (supply fresh : GuidSupply) :
    Build.Lockstep Eq (fun t _ t' _ => Same t t')
      ((t.addInput tensor).run supply) ((t'.addInput tensor).run fresh) := by
  unfold addInput
  rw [h.model]
  dsimp only
  cases boundaryTensor? t'.model tensor with
  | none => exact .error rfl
  | some found =>
    obtain ⟨index, source⟩ := found
    dsimp only
    by_cases hdynamic : source.isDynamic = true
    · rw [if_pos hdynamic, if_pos hdynamic]
      exact .error rfl
    rw [if_neg hdynamic, if_neg hdynamic]
    cases source.info with
    | error cause => exact .error rfl
    | ok info =>
      simp only [pure_bind]
      refine (lockstep_atBoundary (lockstep_insert h.graph _ _ supply fresh)).bind ?_
      rintro ⟨layer, g⟩ u ⟨layer', g'⟩ u' ⟨hadded, rfl, rfl, hsame⟩
      -- The new layer has the slot that is described.
      have hslot : g.HasOutput ⟨t.graph.layers.length, 0⟩ := by
        refine ⟨_, by rw [hadded.getElem?, if_pos rfl], ?_⟩
        exact Nat.one_pos
      have hset : g.setInfo ⟨t.graph.layers.length, 0⟩ info = .ok _ :=
        setInfo_eq_ok_iff.mpr ⟨hslot, rfl⟩
      refine (lockstep_atBoundary
        (lockstep_ofExcept (blind_setInfo _ info) hsame hset)).bind ?_
      intro g₁ u g₁' u' hsame₁
      refine .ok ⟨rfl, h.standIn, ?_, hsame₁⟩
      rw [h.producers]

/-- So is an output. -/
theorem Valid.lockstep_addOutput (hvalid : Valid model standIn t supply) (h : Same t t')
    (tensor : Int32) (fresh : GuidSupply) :
    Build.Lockstep Eq (fun t _ t' _ => Same t t')
      ((t.addOutput tensor).run supply) ((t'.addOutput tensor).run fresh) := by
  unfold addOutput
  rw [h.model]
  dsimp only
  cases boundaryTensor? t'.model tensor with
  | none => exact .error rfl
  | some found =>
    obtain ⟨index, source⟩ := found
    dsimp only
    rw [← h.producer?]
    cases hproducer : t.producer? index with
    | none => exact .error rfl
    | some producer =>
      dsimp only
      refine (lockstep_atBoundary (lockstep_insert h.graph _ _ supply fresh)).bind ?_
      rintro ⟨layer, g⟩ u ⟨layer', g'⟩ u' ⟨hadded, rfl, rfl, hsame⟩
      -- The producer is there, and so is the slot that reads it.
      have hsource : t.graph.HasOutput producer :=
        hasOutput_iff_hasSlot.mpr (hvalid.available _ (mem_of_lookup_eq_some hproducer))
      obtain ⟨g₁, hconnect⟩ : ∃ g₁, g.connect producer ⟨t.graph.layers.length, 0⟩ = .ok g₁ := by
        rcases hvalid.grown.fill_cases (outputDraft_covers index source.name producer) hadded with
          ⟨g₁, hfill, -⟩ | ⟨hbad, -⟩
        · rw [← connectAll_singleton]
          exact ⟨g₁, hfill⟩
        · refine absurd ⟨⟨rfl, rfl⟩, ?_⟩ hbad
          exact List.forall_mem_singleton.mpr hsource
      refine (lockstep_atBoundary
        (lockstep_ofExcept (blind_connect producer _) hsame hconnect)).bind ?_
      intro g₁ u g₁' u' hsame₁
      exact .ok ⟨rfl, h.standIn, h.producers, hsame₁⟩

/-- A model is started in the same way with any numbers. -/
theorem lockstep_start (model : Model) (standIn : Bool) (supply fresh : GuidSupply) :
    Build.Lockstep Eq (fun t _ t' _ => Same t t')
      ((start model standIn).run supply) ((start model standIn).run fresh) := by
  refine Build.Lockstep.foldlM ?_ ⟨rfl, rfl, rfl, rfl⟩
  intro tensor _ t s t' s' h
  exact h.lockstep_addInput tensor s s'

/-- The result is the same, or the fault that keeps it from being one. -/
theorem Valid.lockstep_finish (hvalid : Valid model standIn t supply) (h : Same t t')
    (fresh : GuidSupply) :
    Build.Lockstep Eq (fun g _ g' _ => g.anonymous = g'.anonymous)
      (t.finish.run supply) (t'.finish.run fresh) := by
  unfold finish
  have houtputs : Build.Lockstep Eq (fun t s t' _ => Same t t' ∧ Valid model standIn t s)
      ((t.model.outputs.foldlM addOutput t).run supply)
      ((t.model.outputs.foldlM addOutput t').run fresh) := by
    refine Build.Lockstep.foldlM ?_ ⟨h, hvalid⟩
    rintro tensor - t s t' s' ⟨h, hvalid⟩
    refine (hvalid.lockstep_addOutput h tensor s').and_left fun t₁ s₁ hrun => ?_
    obtain ⟨_, _, _, -, -, -, -, hvalid₁⟩ := hvalid.addOutput_eq_ok hrun
    exact hvalid₁
  rw [← h.model]
  refine houtputs.bind ?_
  rintro t s t' s' ⟨h, hvalid⟩
  -- Nothing is missing in either graph.
  have hcomplete : t'.graph.Complete := by
    intro id c hc
    rw [← content?_anonymous, ← h.graph, content?_anonymous] at hc
    exact hvalid.complete id c hc
  rw [validate_eq_ok_iff.mpr hvalid.complete, validate_eq_ok_iff.mpr hcomplete]
  exact .ok h.graph

/-! ### Histories -/

/-- What a call that succeeded gave. -/
structure Entry where
  /-- The operator. -/
  index : Nat
  /-- Its primary layer. -/
  primary : LayerId
  /-- The layers that the call added, as they were after it, without their identities. -/
  added : List Layer
deriving DecidableEq

/-- A lowering that is kept from call to call. -/
structure History where
  /-- The lowering. -/
  site : Site
  /-- The calls that succeeded. -/
  entries : List Entry

namespace History

/-- The history of a new lowering. -/
def first (t : Lowering) (supply : GuidSupply) : History := ⟨⟨t, supply⟩, []⟩

/-- The entry of a call that changed a lowering. -/
def entry (before after : Site) (index : Nat) (primary : LayerId) : Entry :=
  ⟨index, primary,
    (after.lowering.graph.layers.drop before.lowering.graph.layers.length).map Layer.anonymous⟩

/-- Lowers an operator, and goes on with what is there when it fails. -/
def call (history : History) (index : Nat) : History :=
  match (InPlace.lower index).run history.site with
  | .ok primary site => ⟨site, history.entries ++ [entry history.site site index primary]⟩
  | .error _ site => { history with site := site }

/-- Lowers operators one after another. -/
def calls (history : History) (indices : List Nat) : History := indices.foldl call history

/-- The history of the given calls on a new lowering of a model, when its inputs can be made. -/
def over? (model : Model) (standIn : Bool) (supply : GuidSupply) (indices : List Nat) :
    Option History :=
  match (start model standIn).run supply with
  | .ok t supply => some ((first t supply).calls indices)
  | .error _ _ => none

variable {history history' : History} {indices : List Nat}

/-- A call adds an entry, or leaves the lowering and the entries as they are. -/
theorem call_cases (hvalid : Valid model standIn history.site.lowering history.site.supply)
    (index : Nat) :
    (∃ primary site, (InPlace.lower index).run history.site = .ok primary site ∧
      (history.site.lowering.lower index).run history.site.supply =
        .ok ⟨site.lowering, primary⟩ site.supply ∧
      history.call index = ⟨site, history.entries ++ [entry history.site site index primary]⟩ ∧
      Valid model standIn site.lowering site.supply) ∨
    (∃ e supply, history.call index = ⟨⟨history.site.lowering, supply⟩, history.entries⟩ ∧
      (InPlace.lower index).run history.site = .error e ⟨history.site.lowering, supply⟩ ∧
      Valid model standIn history.site.lowering supply) := by
  have hlower := InPlace.lower_cases hvalid.grown.sound index
  cases hrun : (InPlace.lower index).run history.site with
  | ok primary site =>
    rw [hrun] at hlower
    obtain ⟨_, _, _, _, -, -, -, -, hvalid'⟩ := hvalid.lower_eq_ok hlower
    refine .inl ⟨primary, site, rfl, hlower, ?_, hvalid'⟩
    rw [call, hrun]
  | error e site =>
    rw [hrun] at hlower
    obtain ⟨hrefused, hsite⟩ := hlower
    have hle := (lower_advances _ index).error _ _ _ hrefused
    obtain ⟨lowering, supply⟩ := site
    obtain rfl : lowering = history.site.lowering := hsite
    refine .inr ⟨e, supply, ?_, rfl, hvalid.later hle⟩
    rw [call, hrun]

/-! ### Histories and runs -/

/-- The run that makes a new lowering with every call where the history changes the one it keeps. -/
def run (history : History) : Run where
  lowering := history.site.lowering
  supply := history.site.supply
  lowered := history.entries.map fun entry => (entry.index, entry.primary)

/-- A call in place leaves what it leaves in the run. -/
theorem run_call (hvalid : Valid model standIn history.site.lowering history.site.supply)
    (index : Nat) : (history.call index).run = history.run.call index := by
  have hlower := InPlace.lower_cases hvalid.grown.sound index
  cases hrun : (InPlace.lower index).run history.site with
  | ok primary site =>
    rw [hrun] at hlower
    have hcall : history.run.call index =
        ⟨site.lowering, site.supply, history.run.lowered ++ [(index, primary)]⟩ := by
      rw [Run.call, run, hlower]
    rw [hcall, call, hrun, run, List.map_append]
    rfl
  | error e site =>
    rw [hrun] at hlower
    obtain ⟨hrefused, hsite⟩ := hlower
    have hcall : history.run.call index = { history.run with supply := site.supply } := by
      rw [Run.call, run, hrefused]
    rw [hcall, call, hrun, run, hsite]
    rfl

theorem valid_call (hvalid : Valid model standIn history.site.lowering history.site.supply)
    (index : Nat) :
    Valid model standIn (history.call index).site.lowering (history.call index).site.supply := by
  have hrun : Valid model standIn (history.run.call index).lowering
      (history.run.call index).supply := Run.valid_call hvalid index
  rw [← run_call hvalid] at hrun
  exact hrun

theorem run_calls (hvalid : Valid model standIn history.site.lowering history.site.supply)
    (indices : List Nat) : (history.calls indices).run = history.run.calls indices := by
  induction indices generalizing history with
  | nil => rfl
  | cons index indices ih =>
    show ((history.call index).calls indices).run = (history.run.call index).calls indices
    rw [ih (valid_call hvalid index), run_call hvalid]

theorem valid_calls (hvalid : Valid model standIn history.site.lowering history.site.supply)
    (indices : List Nat) :
    Valid model standIn (history.calls indices).site.lowering
      (history.calls indices).site.supply := by
  have hrun : Valid model standIn (history.run.calls indices).lowering
      (history.run.calls indices).supply := Run.valid_calls hvalid indices
  rw [← run_calls hvalid] at hrun
  exact hrun

/-- Histories and runs over a model are the same: both can be started or neither, and the same calls
    leave the same lowering, the same numbers and the same primary layers. -/
theorem run_over? (model : Model) (standIn : Bool) (supply : GuidSupply) (indices : List Nat) :
    Run.over? model standIn supply indices = (over? model standIn supply indices).map run := by
  unfold Run.over? over?
  cases hstart : (start model standIn).run supply with
  | error e s => rfl
  | ok t s =>
    have hvalid : Valid model standIn (first t s).site.lowering (first t s).site.supply :=
      valid_of_start hstart
    exact congrArg some (run_calls hvalid indices).symm

/-! ### Calls -/

/-- What every operator that is lowered keeps holds after the calls, since a call that fails changes
    nothing. By induction on the calls. -/
theorem calls_invariant {P : Lowering → Prop}
    (hlower : ∀ t supply index step supply', Valid model standIn t supply → P t →
      (t.lower index).run supply = .ok step supply' → P step.lowering)
    (hvalid : Valid model standIn history.site.lowering history.site.supply)
    (h : P history.site.lowering) (indices : List Nat) :
    P (history.calls indices).site.lowering := by
  induction indices generalizing history with
  | nil => exact h
  | cons index indices ih =>
    have hnext : P (history.call index).site.lowering := by
      rcases call_cases hvalid index with ⟨_, _, -, hrun, heq, -⟩ | ⟨_, _, heq, -, -⟩
      · rw [heq]
        exact hlower _ _ _ _ _ hvalid h hrun
      · rw [heq]
        exact h
    exact ih (valid_call hvalid index) hnext

/-- The same call gives the same entry when the lowering is the same. -/
theorem call_of_same (hvalid' : Valid model standIn history'.site.lowering history'.site.supply)
    (h : Same history.site.lowering history'.site.lowering) {primary : LayerId} {site : Site}
    (hrun : (history.site.lowering.lower index).run history.site.supply =
      .ok ⟨site.lowering, primary⟩ site.supply) :
    (history'.call index).entries =
        history'.entries ++ [entry history.site site index primary] ∧
      Same site.lowering (history'.call index).site.lowering := by
  obtain ⟨step', fresh', hrun', hsame, hprimary⟩ := h.lower hrun history'.site.supply
  rcases call_cases hvalid' index with
    ⟨primary', site', -, hlower, heq, -⟩ | ⟨e, fresh, -, hfailed, -⟩
  · rw [hlower] at hrun'
    cases hrun'
    have hentry : entry history'.site site' index primary' =
        entry history.site site index primary := by
      -- An entry shows the layers without their identities.
      have hlayers : site'.lowering.graph.anonymous.layers = site.lowering.graph.anonymous.layers :=
        congrArg Graph.layers hsame.graph.symm
      have hlength := h.length
      have hprimary : primary = primary' := hprimary
      rw [entry, entry, hprimary, List.map_drop, List.map_drop, hlength]
      show Entry.mk _ _ (List.drop _ site'.lowering.graph.anonymous.layers) = _
      rw [hlayers]
      rfl
    rw [heq, hentry]
    exact ⟨rfl, hsame⟩
  · -- In place, the call cannot fail where it succeeds.
    have hlower := InPlace.lower_cases hvalid'.grown.sound index
    rw [hfailed, hrun'] at hlower
    cases hlower.1

/-- The calls of a history that succeed can be made alone. By induction on the calls. -/
theorem calls_of_same (hvalid : Valid model standIn history.site.lowering history.site.supply)
    (hvalid' : Valid model standIn history'.site.lowering history'.site.supply)
    (h : Same history.site.lowering history'.site.lowering) (indices : List Nat) :
    ∃ entries, (history.calls indices).entries = history.entries ++ entries ∧
      (history'.calls (entries.map (·.index))).entries = history'.entries ++ entries ∧
      Same (history.calls indices).site.lowering
        (history'.calls (entries.map (·.index))).site.lowering := by
  induction indices generalizing history history' with
  | nil => exact ⟨[], (List.append_nil _).symm, (List.append_nil _).symm, h⟩
  | cons index indices ih =>
    rcases call_cases hvalid index with
      ⟨primary, site, -, hlower, heq, -⟩ | ⟨e, supply, heq, -, -⟩
    · -- The call is one of those that are made alone.
      obtain ⟨hentries, hsame⟩ := call_of_same hvalid' h hlower
      have hvalid₁ := valid_call hvalid index
      have hvalid₁' := valid_call hvalid' index
      have hnext : Same (history.call index).site.lowering
          (history'.call index).site.lowering := by
        rw [heq]
        exact hsame
      obtain ⟨entries, hcalls, halone, hsame'⟩ := ih hvalid₁ hvalid₁' hnext
      refine ⟨entry history.site site index primary :: entries, ?_, ?_, hsame'⟩
      · show ((history.call index).calls indices).entries = _
        rw [hcalls, heq, List.append_assoc, List.singleton_append]
      · show ((history'.call index).calls (entries.map (·.index))).entries = _
        rw [halone, hentries, List.append_assoc, List.singleton_append]
    · -- The call is left out, and nothing has changed.
      have hvalid₁ := valid_call hvalid index
      have hnext : Same (history.call index).site.lowering history'.site.lowering := by
        rw [heq]
        exact h
      obtain ⟨entries, hcalls, halone, hsame'⟩ := ih hvalid₁ hvalid' hnext
      refine ⟨entries, ?_, halone, hsame'⟩
      show ((history.call index).calls indices).entries = _
      rw [hcalls, heq]

theorem valid_first (hstart : (start model standIn).run supply = .ok t supply') :
    Valid model standIn (first t supply').site.lowering (first t supply').site.supply :=
  valid_of_start hstart

theorem exists_of_over? (h : over? model standIn supply indices = some history) :
    ∃ t s, (start model standIn).run supply = .ok t s ∧ history = (first t s).calls indices := by
  unfold over? at h
  split at h
  · next t s hstart => exact ⟨t, s, hstart, (Option.some.inj h).symm⟩
  · cases h

end History

/-- Whichever calls failed, the next one that fails leaves the lowering exactly as it is. And the
    calls that succeeded can be made alone on a new lowering of the model: they give the same
    primary layers, add the same layers, and leave the same producers, the same graph and the same
    result, but for the identities of layers. -/
theorem failures_leave_no_trace {history : History} {indices : List Nat}
    (h : History.over? model standIn supply indices = some history) (fresh : GuidSupply) :
    (∀ index e site, (InPlace.lower index).run history.site = .error e site →
      site.lowering = history.site.lowering) ∧
    ∃ alone, History.over? model standIn fresh (history.entries.map (·.index)) = some alone ∧
      alone.entries = history.entries ∧
      alone.site.lowering.producers = history.site.lowering.producers ∧
      alone.site.lowering.graph.anonymous = history.site.lowering.graph.anonymous ∧
      alone.site.lowering.graph.Coherent ∧ history.site.lowering.graph.Coherent ∧
      Build.Lockstep Eq (fun g _ g' _ => g.anonymous = g'.anonymous)
        (history.site.lowering.finish.run history.site.supply)
        (alone.site.lowering.finish.run alone.site.supply) := by
  obtain ⟨t, s, hstart, rfl⟩ := History.exists_of_over? h
  -- The new lowering is started in the same way.
  have hstarts := lockstep_start model standIn supply fresh
  rw [hstart] at hstarts
  cases hstart' : (start model standIn).run fresh with
  | error e s' =>
    rw [hstart'] at hstarts
    cases hstarts
  | ok t' s' =>
    rw [hstart'] at hstarts
    obtain ⟨hsame⟩ := hstarts
    have hfirst := History.valid_first hstart
    have hfirst' := History.valid_first hstart'
    obtain ⟨entries, hentries, halone, hsame⟩ :=
      History.calls_of_same hfirst hfirst' hsame indices
    have hvalid := History.valid_calls hfirst indices
    have hvalid' := History.valid_calls hfirst' (entries.map (·.index))
    have hentries : ((History.first t s).calls indices).entries = entries := hentries
    have halone : ((History.first t' s').calls (entries.map (·.index))).entries = entries := halone
    refine ⟨?_, _, ?_, ?_, hsame.producers.symm, hsame.graph.symm,
      hvalid'.grown.sound.coherent, hvalid.grown.sound.coherent, hvalid.lockstep_finish hsame _⟩
    · intro index e site hrun
      have hlower := InPlace.lower_cases hvalid.grown.sound index
      rw [hrun] at hlower
      exact hlower.2
    · rw [History.over?, hstart', hentries]
    · rw [halone, hentries]

/-- A model that adds a constant of one dimension to its input of two, with a fused activation. -/
def raisedConstant : Model where
  tensors := [
    { name := "x", shape := [1, 1], storage := .float32 },
    { name := "k", shape := [1], storage := .float32, data := some [0, 0, 128, 63] },
    { name := "y", shape := [1, 1], storage := .float32 }]
  operators := [
    { code := .add, inputs := [0, 1], outputs := [2], options := { fusedActivation := .relu } }]
  inputs := [0]
  outputs := [2]

theorem failures_leave_no_trace_raisedConstant :
    ∃ history alone, History.over? raisedConstant false .initial [0, 0, 7] = some history ∧
      History.over? raisedConstant false ⟨⟨100⟩⟩ [0] = some alone ∧
      alone.entries = history.entries ∧
      alone.site.lowering.graph.anonymous = history.site.lowering.graph.anonymous := by
  -- The second call would produce its output again, and there is no operator for the third one.
  have hindices : (History.over? raisedConstant false .initial [0, 0, 7]).map
      (fun history => history.entries.map (·.index)) = some [0] := by
    decide +kernel
  obtain ⟨history, hhistory, hindices⟩ := Option.map_eq_some_iff.mp hindices
  obtain ⟨-, alone, halone, hentries, -, hgraph, -⟩ := failures_leave_no_trace hhistory ⟨⟨100⟩⟩
  rw [hindices] at halone
  exact ⟨history, alone, hhistory, halone, hentries, hgraph⟩

end Lowering

end LayerGraph
