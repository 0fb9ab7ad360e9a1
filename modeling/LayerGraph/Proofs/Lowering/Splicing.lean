import LayerGraph.Proofs.Lowering.Acceptance
import LayerGraph.Proofs.Lowering.Fusion
import LayerGraph.Proofs.Lowering.Support

/-! # Fused activations are spliced in

  The function of an operator becomes a layer between the primary layer and whatever reads the
  result. Nothing may read around it. Main statement: the function changes neither which operators
  are accepted nor the rest of the plan, and in every history the layer of the function is the only
  one that reads the primary layer, while the layers of all later operators, and the outputs, read
  the layer of the function where they read the tensor (`fused_spliced`).

  A layer reads either a new layer or what produces a tensor (`Made.source_cases`). So it is enough
  that the primary layer produces no tensor. This holds when the operator was lowered, and no later
  step changes it (`Spliced.lower`).
-/

namespace LayerGraph

/-- The function is the one layer behind the primary layer, which writes one tensor. -/
structure Plan.Fuses (plan : Plan) (params : ActivationParams) (k : Nat) (info : TensorInfo) :
    Prop where
  tail : ∃ name, plan.tail = [⟨.activation params, name, [info], [info]⟩]
  written : plan.outputs = [k]
  described : plan.primary.outputs = [info]

/-! ### Reading one slot -/

namespace Graph

variable {g g' : Graph} {supply : GuidSupply} {drafts : List Draft} {p : OutputRef}
variable {slot : InputRef} {gain : List LayerContent} {id : LayerId} {kind : LayerKind}
variable {primary first : LayerId} {params : ActivationParams} {info : TensorInfo} {plan : Plan}
variable {k : Nat}

/-- Connections stay when layers are added. -/
theorem Extends.producer?_mono (h : Extends g gain g' supply) (hslot : g.producer? slot = some p) :
    g'.producer? slot = some p := by
  obtain ⟨l, hl, -⟩ := producer?_eq_some_iff.mp hslot
  have hlt : slot.layer < g.layers.length := (List.getElem?_eq_some_iff.mp hl).1
  rw [producer?_eq_content?, h.content?_of_lt hlt, ← producer?_eq_content?, hslot]

theorem Extends.kind?_mono (h : Extends g gain g' supply) (hkind : g.kind? id = some kind) :
    g'.kind? id = some kind := by
  obtain ⟨l, hl, -⟩ := Option.map_eq_some_iff.mp hkind
  rw [h.kind?_of_lt (List.getElem?_eq_some_iff.mp hl).1, hkind]

theorem Extends.info?_mono (h : Extends g gain g' supply) (hinfo : g.info? p = some info) :
    g'.info? p = some info := by
  have hlt : p.layer < g.layers.length := by
    rw [info?_eq_content?] at hinfo
    cases hc : g.content? p.layer with
    | none => simp [hc] at hinfo
    | some c => exact lt_of_content? hc
  rw [h.info?_of_lt hlt, hinfo]

/-- A slot is read by what read it before, unless a new layer reads it. -/
theorem Extends.producer?_of_avoided (h : Extends g (drafts.map Draft.content) g' supply)
    (havoided : ∀ d ∈ drafts, p ∉ d.sources) (hslot : g'.producer? slot = some p) :
    g.producer? slot = some p := by
  rcases Nat.lt_or_ge slot.layer g.layers.length with hlt | hge
  · rwa [producer?_eq_content?, ← h.content?_of_lt hlt, ← producer?_eq_content?]
  · obtain ⟨place, hplace⟩ := Nat.exists_eq_add_of_le hge
    have hcontent := h.content?_new place
    rw [← hplace, List.getElem?_map] at hcontent
    cases hd : drafts[place]? with
    | none =>
      rw [hd] at hcontent
      rw [producer?_eq_content?, hcontent] at hslot
      simp at hslot
    | some d =>
      rw [hd] at hcontent
      rw [producer?_of_draft hcontent] at hslot
      exact absurd (List.mem_of_getElem? hslot) (havoided d (List.mem_of_getElem? hd))

/-- The only consumer of a slot is the only slot that reads it. -/
theorem Coherent.consumers_eq_singleton_iff (hg : g.Coherent) :
    g.consumers p = [slot] ↔ ∀ other, g.producer? other = some p ↔ other = slot := by
  constructor
  · intro h other
    rw [hg.mirrored, h, List.mem_singleton]
  · intro h
    apply List.perm_singleton.mp
    rw [List.perm_ext_iff_of_nodup (hg.once p) (List.nodup_singleton slot)]
    intro other
    rw [← hg.mirrored, h, List.mem_singleton]

/-- The function stands behind the layer. It reads the first output of the layer, which nothing
    else reads, and both have the same descriptor. -/
structure FunctionBehind (g : Graph) (primary : LayerId) (params : ActivationParams)
    (info : TensorInfo) : Prop where
  kind : g.kind? (primary + 1) = some (.activation params)
  before : g.info? ⟨primary, 0⟩ = some info
  behind : g.info? ⟨primary + 1, 0⟩ = some info
  consumers : g.consumers ⟨primary, 0⟩ = [⟨primary + 1, 0⟩]

/-- It stays there when no new layer reads the one before it. -/
theorem FunctionBehind.extend (h : g.FunctionBehind primary params info) (hg : g.Coherent)
    (hextends : Extends g (drafts.map Draft.content) g' supply)
    (havoided : ∀ d ∈ drafts, ⟨primary, 0⟩ ∉ d.sources) :
    g'.FunctionBehind primary params info where
  kind := hextends.kind?_mono h.kind
  before := hextends.info?_mono h.before
  behind := hextends.info?_mono h.behind
  consumers := by
    have hold := hg.consumers_eq_singleton_iff.mp h.consumers
    rw [hextends.grown.sound.coherent.consumers_eq_singleton_iff]
    intro other
    constructor
    · intro hother
      exact (hold other).mp (hextends.producer?_of_avoided havoided hother)
    · intro hother
      exact hextends.producer?_mono ((hold other).mpr hother)

/-- Where a plan reads the tensor `k`, its layers read the slot `p`. Its reshapes are made from the
    position `first` on, and the primary layer is behind them. -/
structure ReadsFrom (g : Graph) (plan : Plan) (first : LayerId) (k : Nat) (p : OutputRef) :
    Prop where
  /-- A reshape of the tensor reads the slot, -/
  reshapes : ∀ r layer, plan.reshapes[r]? = some (k, layer) →
    g.kind? (first + r) = some layer.kind ∧ g.producer? ⟨first + r, 0⟩ = some p
  /-- and feeds the primary layer; -/
  reshaped : ∀ index r, plan.inputs[index]? = some (.reshape r) →
    g.producer? ⟨first + plan.reshapes.length, index⟩ = some ⟨first + r, 0⟩
  /-- the other slots of the primary layer read the slot themselves. -/
  direct : ∀ index, plan.inputs[index]? = some (.tensor k) →
    g.producer? ⟨first + plan.reshapes.length, index⟩ = some p

theorem ReadsFrom.extend (h : g.ReadsFrom plan first k p) (hextends : Extends g gain g' supply) :
    g'.ReadsFrom plan first k p where
  reshapes := by
    intro r layer hr
    obtain ⟨hkind, hread⟩ := h.reshapes r layer hr
    exact ⟨hextends.kind?_mono hkind, hextends.producer?_mono hread⟩
  reshaped := fun index r hindex => hextends.producer?_mono (h.reshaped index r hindex)
  direct := fun index hindex => hextends.producer?_mono (h.direct index hindex)

end Graph

namespace Lowering

open LayerGraph.Graph

variable {model : Model} {standIn : Bool} {t t' : Lowering} {supply supply' : GuidSupply}
variable {index k : Nat} {op : Operation} {plan : Plan} {sources : List (Nat × OutputRef)}
variable {constants : List PendingConstant} {step : Step} {primary : LayerId}
variable {params : ActivationParams} {info : TensorInfo} {d : Draft} {p : OutputRef}

/-! ### What the layers of an operator read -/

/-- What is known of a tensor that a plan reads is the slot of a new constant, or produced it
    before. -/
theorem Made.known_cases (h : Made t op plan sources constants step supply')
    (hk : k ∈ plan.consumed) :
    t.graph.layers.length ≤ (((knownSlots sources constants t.graph.layers.length).lookup
        k).getD ⟨0, 0⟩).layer ∨
      t.producer? k =
        some (((knownSlots sources constants t.graph.layers.length).lookup k).getD ⟨0, 0⟩) := by
  obtain ⟨q, hknown, hproducer⟩ :=
    h.sourced.exists_slot plan.nodup_consumed hk t.graph.layers.length
  rw [hknown, Option.getD_some]
  rw [List.lookup_append, Option.or_eq_some_iff] at hproducer
  rcases hproducer with hmade | ⟨-, hold⟩
  · obtain ⟨place, c, -, -, rfl⟩ := mem_constantSlots_iff.mp (mem_of_lookup_eq_some hmade)
    exact .inl (Nat.le_add_right _ _)
  · exact .inr hold

/-- A layer that is made for an operator reads a new layer, or what produced a tensor before. -/
theorem Made.source_cases (h : Made t op plan sources constants step supply')
    (hd : d ∈ stepDrafts plan sources constants t.graph.layers.length) (hp : p ∈ d.sources) :
    t.graph.layers.length ≤ p.layer ∨ ∃ k, t.producer? k = some p := by
  have hfirst : t.graph.layers.length ≤ t.graph.layers.length + constants.length :=
    Nat.le_add_right _ _
  rw [stepDrafts, planDrafts, List.mem_append, List.mem_append, List.mem_cons] at hd
  rcases hd with hconstant | hreshape | rfl | htail
  · -- A constant reads nothing.
    obtain ⟨c, -, rfl⟩ := List.mem_map.mp hconstant
    cases hp
  · obtain ⟨entry, hentry, rfl⟩ := List.mem_map.mp hreshape
    rw [List.mem_singleton.mp hp]
    have hk := Plan.mem_consumed_iff.mpr (.inl ⟨entry, hentry, rfl⟩)
    exact (h.known_cases hk).imp id fun hold => ⟨entry.1, hold⟩
  · obtain ⟨source, hsource, rfl⟩ := List.mem_map.mp hp
    cases source with
    | tensor k =>
      have hk := Plan.mem_consumed_iff.mpr (.inr hsource)
      exact (h.known_cases hk).imp id fun hold => ⟨k, hold⟩
    | reshape r =>
      rw [slotAt_reshape (h.planned.covered.slots r hsource)]
      exact .inl (hfirst.trans (Nat.le_add_right _ _))
  · -- A layer behind the primary one reads the layer before it.
    obtain ⟨place, hplace⟩ := List.mem_iff_getElem?.mp htail
    rw [getElem?_chainDrafts, Option.map_eq_some_iff] at hplace
    obtain ⟨layer, -, rfl⟩ := hplace
    rw [List.mem_singleton.mp hp, Nat.add_assoc]
    exact .inl (hfirst.trans (Nat.le_add_right _ _))

/-- What produces a tensor did so before, or is a new layer. -/
theorem Made.producer?_cases (h : Made t op plan sources constants step supply')
    (hk : step.lowering.producer? k = some p) :
    t.producer? k = some p ∨ t.graph.layers.length ≤ p.layer := by
  rcases h.producer?_eq_some_iff.mp hk with hold | ⟨hlast, -⟩ | ⟨-, place, c, -, -, rfl⟩
  · exact .inl hold
  · rw [hlast]
    dsimp only [primaryAt]
    exact .inr (by omega)
  · exact .inr (Nat.le_add_right _ _)

/-- The layers of an operator read what produces a tensor that the operator does not write. -/
theorem Made.readsFrom (h : Made t op plan sources constants step supply')
    (hvalid : Valid model standIn t supply) (hk : k ∉ plan.outputs)
    (hproducer : step.lowering.producer? k = some p) :
    step.lowering.graph.ReadsFrom plan (t.graph.layers.length + constants.length) k p := by
  have hreads {slot : InputRef} (hread : step.lowering.ReadsTensor slot k) :
      step.lowering.graph.producer? slot = some p := by
    obtain ⟨q, hslot, hq⟩ := hread
    rw [hslot, ← hq, hproducer]
  constructor
  case reshapes =>
    intro r layer hr
    refine ⟨kind?_of_draft (h.content?_reshape hr), hreads ?_⟩
    exact (h.readsTensor_iff hvalid (Plan.mem_consumed_of_reshape hr)
      (h.producer?_reshape hr)).mpr hk
  case reshaped =>
    intro index r hindex
    rw [h.producer?_primary, hindex, Option.map_some,
      slotAt_reshape (h.planned.covered.slots r (List.mem_of_getElem? hindex))]
  case direct =>
    intro index hindex
    apply hreads
    apply (h.readsTensor_iff hvalid (Plan.mem_consumed_of_input hindex) ?_).mpr hk
    rw [h.producer?_primary, hindex]
    rfl

/-! ### The result of one operator -/

/-- The function stands behind the layer, which produces no tensor. The tensor `k` is produced by
    the function. -/
structure Spliced (t : Lowering) (primary : LayerId) (k : Nat) (params : ActivationParams)
    (info : TensorInfo) : Prop where
  function : t.graph.FunctionBehind primary params info
  hidden : ∀ tensor, t.producer? tensor ≠ some ⟨primary, 0⟩
  produced : t.producer? k = some ⟨primary + 1, 0⟩

/-- The primary layer is there already, since the function behind it produces a tensor. -/
theorem Spliced.not_new (h : Spliced t primary k params info)
    (hvalid : Valid model standIn t supply) : ¬ t.graph.layers.length ≤ primary := by
  have hlt : primary + 1 < t.graph.layers.length :=
    hvalid.lt_of_produced (mem_of_lookup_eq_some h.produced)
  exact Nat.not_le_of_lt (Nat.lt_of_succ_lt hlt)

/-- The layers of an operator that is lowered later do not read the primary layer. -/
theorem Spliced.avoided (h : Spliced t primary k params info)
    (hvalid : Valid model standIn t supply)
    (hmade : Made t op plan sources constants step supply')
    (hd : d ∈ stepDrafts plan sources constants t.graph.layers.length) :
    ⟨primary, 0⟩ ∉ d.sources := by
  intro hmem
  rcases hmade.source_cases hd hmem with hge | ⟨tensor, hproducer⟩
  · exact h.not_new hvalid hge
  · exact h.hidden tensor hproducer

/-- What was spliced in stays so when another operator is lowered. -/
theorem Spliced.lower (h : Spliced t primary k params info)
    (hvalid : Valid model standIn t supply)
    (hmade : Made t op plan sources constants step supply') :
    Spliced step.lowering primary k params info where
  function := h.function.extend hvalid.grown.sound.coherent hmade.extension
    fun _ hd => h.avoided hvalid hmade hd
  hidden := by
    intro tensor hproducer
    rcases hmade.producer?_cases hproducer with hold | hge
    · exact h.hidden tensor hold
    · exact absurd hge (h.not_new hvalid)
  produced := hmade.producer?_mono h.produced

/-- The layer of the function is made behind the primary layer, and reads it. -/
theorem Made.content?_function (h : Made t op plan sources constants step supply')
    (hplan : plan.Fuses params k info) :
    ∃ name, step.lowering.graph.content? (step.primary + 1) =
      some ((⟨.activation params, name, [info], [info]⟩ : PlannedLayer).draft
        [⟨step.primary, 0⟩]).content := by
  obtain ⟨name, htail⟩ := hplan.tail
  have hlayer : (plan.primary :: plan.tail)[1]? =
      some ⟨.activation params, name, [info], [info]⟩ := by
    rw [htail]
    rfl
  obtain ⟨slots, hcontent, hslots⟩ := h.content?_behind hlayer
  rw [hslots 0 rfl] at hcontent
  rw [h.primary]
  exact ⟨name, hcontent⟩

/-- Nothing is made behind it. -/
theorem Made.length_of_fuses (h : Made t op plan sources constants step supply')
    (hplan : plan.Fuses params k info) :
    step.lowering.graph.layers.length = step.primary + 2 := by
  obtain ⟨name, htail⟩ := hplan.tail
  rw [h.extension.length, List.length_map, length_stepDrafts, h.primary, Plan.layers, htail,
    List.length_append, List.length_map]
  dsimp only [primaryAt, List.length_cons, List.length_nil]
  omega

theorem Made.functionBehind (h : Made t op plan sources constants step supply')
    (hplan : plan.Fuses params k info) :
    step.lowering.graph.FunctionBehind step.primary params info := by
  obtain ⟨name, hfunction⟩ := h.content?_function hplan
  have hprimary := h.content?_primary
  constructor
  case kind => exact kind?_of_draft hfunction
  case before =>
    rw [h.primary, primaryAt, info?_of_draft (p := ⟨_, 0⟩) hprimary]
    show plan.primary.outputs[0]? = some info
    rw [hplan.described]
    rfl
  case behind => exact info?_of_draft (p := ⟨_, 0⟩) hfunction
  case consumers =>
    have hgrown := h.extension.grown
    rw [hgrown.sound.coherent.consumers_eq_singleton_iff]
    intro other
    constructor
    · -- A layer that reads the primary layer stands behind it, so it is the last one.
      intro hread
      have hbehind : step.primary < other.layer := hgrown.forward _ _ ⟨0, other.index, hread⟩
      have hlast : other.layer < step.lowering.graph.layers.length :=
        (hgrown.sound.coherent.linked.ends_exist hread).2.lt
      rw [h.length_of_fuses hplan] at hlast
      have hlayer : other.layer = step.primary + 1 :=
        Nat.le_antisymm (Nat.le_of_lt_succ hlast) hbehind
      rw [← hlayer] at hfunction
      rw [producer?_of_draft hfunction] at hread
      have hindex : other.index = 0 := Nat.lt_one_iff.mp (List.getElem?_eq_some_iff.mp hread).1
      obtain ⟨layer, index⟩ := other
      cases hlayer
      cases hindex
      rfl
    · rintro rfl
      rw [producer?_of_draft hfunction]
      rfl

/-- The function of an operator is spliced in when the operator is lowered. -/
theorem Made.spliced (h : Made t op plan sources constants step supply')
    (hvalid : Valid model standIn t supply) (hplan : plan.Fuses params k info) :
    Spliced step.lowering step.primary k params info where
  function := h.functionBehind hplan
  hidden := by
    have hfirst : t.graph.layers.length + constants.length ≤ step.primary := by
      rw [h.primary]
      exact Nat.le_add_right _ _
    obtain ⟨name, htail⟩ := hplan.tail
    intro tensor hproducer
    rcases h.producer?_eq_some_iff.mp hproducer with hold | ⟨hlast, -⟩ | ⟨-, place, c, hc, -, hnew⟩
    · -- What produced a tensor before is an older layer.
      have hlt : step.primary < t.graph.layers.length :=
        hvalid.lt_of_produced (mem_of_lookup_eq_some hold)
      exact Nat.not_le_of_lt hlt ((Nat.le_add_right _ _).trans hfirst)
    · -- What the operator writes is produced by the function.
      rw [h.primary, htail] at hlast
      exact absurd hlast (Nat.ne_of_lt (Nat.lt_succ_self _))
    · -- The constants are in front of the primary layer.
      have hplace : step.primary = t.graph.layers.length + place := congrArg OutputRef.layer hnew
      have hlt : place < constants.length := (List.getElem?_eq_some_iff.mp hc).1
      rw [hplace] at hfirst
      omega
  produced := by
    obtain ⟨name, htail⟩ := hplan.tail
    rw [h.producer?_eq_some_iff, h.primary, htail, hplan.written]
    exact .inr (.inl ⟨rfl, rfl⟩)

/-! ### Histories -/

variable {history : History} {later : List Entry} {i : Nat} {entry : Entry}

/-- The operators that were lowered later read the slot `p` where they read the tensor `k`. -/
def ReadBy (model : Model) (standIn : Bool) (g : Graph) (later : List Entry) (k : Nat)
    (p : OutputRef) : Prop :=
  ∀ next ∈ later, ∃ plan first, Plan.ofOperator model next.index standIn = .ok plan ∧
    next.primary = first + plan.reshapes.length ∧ g.ReadsFrom plan first k p

theorem ReadBy.extend {g g' : Graph} {gain : List LayerContent}
    (h : ReadBy model standIn g later k p) (hextends : Extends g gain g' supply) :
    ReadBy model standIn g' later k p := by
  intro next hnext
  obtain ⟨plan, first, hplan, hprimary, hreads⟩ := h next hnext
  exact ⟨plan, first, hplan, hprimary, hreads.extend hextends⟩

/-- The operator of a history with the function: what became of it, and of the operators that were
    lowered later. -/
structure Woven (model : Model) (standIn : Bool) (t : Lowering) (entry : Entry)
    (later : List Entry) (k : Nat) (params : ActivationParams) (info : TensorInfo) : Prop where
  spliced : Spliced t entry.primary k params info
  readers : ReadBy model standIn t.graph later k ⟨entry.primary + 1, 0⟩

/-- One more operator is lowered. -/
theorem Woven.lower (h : Woven model standIn t entry later k params info)
    (hvalid : Valid model standIn t supply)
    (hplan : Plan.ofOperator model index standIn = .ok plan)
    (hmade : Made t op plan sources constants step supply') (added : List Layer) :
    Woven model standIn step.lowering entry (later ++ [⟨index, step.primary, added⟩]) k params
      info where
  spliced := h.spliced.lower hvalid hmade
  readers := by
    have hproduced := h.spliced.produced
    -- The tensor is produced already, so the operator does not write it.
    have hk : k ∉ plan.outputs := by
      intro hmem
      rw [hmade.fresh k hmem] at hproduced
      cases hproduced
    intro next hnext
    rcases List.mem_append.mp hnext with hold | hnew
    · exact h.readers.extend hmade.extension next hold
    · rw [List.mem_singleton.mp hnew]
      exact ⟨plan, _, hplan, hmade.primary,
        hmade.readsFrom hvalid hk (hmade.producer?_mono hproduced)⟩

/-- Every entry of the operator is woven in. -/
def AllWoven (model : Model) (standIn : Bool) (index : Nat) (params : ActivationParams)
    (history : History) : Prop :=
  ∀ earlier entry later, history.entries = earlier ++ entry :: later → entry.index = index →
    ∃ plan k info, Plan.ofOperator model index standIn = .ok plan ∧ plan.Fuses params k info ∧
      Woven model standIn history.site.lowering entry later k params info

/-- By cases of the call: a new entry is the last one of the history, so an entry of the operator
    is either the new one, with nothing behind it, or an old one. -/
theorem AllWoven.call (h : AllWoven model standIn index params history)
    (hvalid : Valid model standIn history.site.lowering history.site.supply)
    (hfuses : ∀ plan, Plan.ofOperator model index standIn = .ok plan →
      ∃ k info, plan.Fuses params k info) (called : Nat) :
    AllWoven model standIn index params (history.call called) := by
  rcases History.call_cases hvalid called with
    ⟨primary, site, -, hlower, heq, -⟩ | ⟨e, supply, heq, -, -⟩
  · rw [heq]
    intro earlier entry later hentries hindex
    obtain ⟨op, plan, sources, constants, -, hplan, -, hmade, -⟩ := hvalid.lower_eq_ok hlower
    rcases List.eq_nil_or_concat' later with rfl | ⟨before, last, rfl⟩
    · obtain ⟨-, hlast⟩ := List.append_inj' hentries rfl
      rw [List.cons.injEq] at hlast
      obtain ⟨rfl, -⟩ := hlast
      obtain rfl : called = index := hindex
      obtain ⟨k, info, hfused⟩ := hfuses plan hplan
      exact ⟨plan, k, info, hplan, hfused, hmade.spliced hvalid hfused, List.forall_mem_nil _⟩
    · rw [← List.cons_append, ← List.append_assoc] at hentries
      obtain ⟨hold, hlast⟩ := List.append_inj' hentries rfl
      rw [List.cons.injEq] at hlast
      obtain ⟨rfl, -⟩ := hlast
      obtain ⟨plan', k, info, hplan', hfused, hwoven⟩ := h earlier entry before hold hindex
      exact ⟨plan', k, info, hplan', hfused, hwoven.lower hvalid hplan hmade _⟩
  · rw [heq]
    exact h

theorem AllWoven.calls (h : AllWoven model standIn index params history)
    (hvalid : Valid model standIn history.site.lowering history.site.supply)
    (hfuses : ∀ plan, Plan.ofOperator model index standIn = .ok plan →
      ∃ k info, plan.Fuses params k info) (indices : List Nat) :
    AllWoven model standIn index params (history.calls indices) := by
  induction indices generalizing history with
  | nil => exact h
  | cons called indices ih =>
    exact ih (h.call hvalid hfuses called) (History.valid_call hvalid called)

/-! ### Outputs -/

variable {tensor : Int32} {tensors : List Int32} {first : LayerId}

/-- The layers from the position `first` on are the outputs for the tensors, and an output for the
    tensor `k` reads the slot `p`. -/
def OutputsRead (model : Model) (g : Graph) (first : LayerId) (tensors : List Int32) (k : Nat)
    (p : OutputRef) : Prop :=
  ∀ (place : Nat) (tensor : Int32) (source : ModelTensor), tensors[place]? = some tensor →
    boundaryTensor? model tensor = some (k, source) →
      g.kind? (first + place) = some (.output (bindingOf k)) ∧
        g.producer? ⟨first + place, 0⟩ = some p

/-- An output reads what produces its tensor, which is not the primary layer. -/
theorem Woven.addOutput (h : Woven model standIn t entry later k params info)
    (hvalid : Valid model standIn t supply)
    (hrun : (t.addOutput tensor).run supply = .ok t' supply') :
    Woven model standIn t' entry later k params info := by
  obtain ⟨index, source, producer, -, hproducer, hextends, hproducers, -⟩ :=
    hvalid.addOutput_eq_ok hrun
  have hsame (tensor : Nat) : t'.producer? tensor = t.producer? tensor := by
    rw [producer?, producer?, hproducers]
  have hfunction : t'.graph.FunctionBehind entry.primary params info := by
    rw [← List.map_singleton] at hextends
    apply h.spliced.function.extend hvalid.grown.sound.coherent hextends
    rw [List.forall_mem_singleton]
    intro hmem
    exact h.spliced.hidden index (List.mem_singleton.mp hmem ▸ hproducer)
  refine ⟨⟨hfunction, ?_, ?_⟩, h.readers.extend hextends⟩
  · intro tensor
    rw [hsame]
    exact h.spliced.hidden tensor
  · rw [hsame]
    exact h.spliced.produced

/-- One more output is added behind the others. -/
theorem OutputsRead.addOutput (h : OutputsRead model t.graph first tensors k p)
    (hvalid : Valid model standIn t supply) (hproducer : t.producer? k = some p)
    (hlength : t.graph.layers.length = first + tensors.length)
    (hrun : (t.addOutput tensor).run supply = .ok t' supply') :
    OutputsRead model t'.graph first (tensors ++ [tensor]) k p ∧
      t'.graph.layers.length = first + (tensors ++ [tensor]).length := by
  obtain ⟨index, source, producer, hfound, hindex, hextends, -, -⟩ :=
    hvalid.addOutput_eq_ok hrun
  constructor
  · intro place tensor' source' hplace hfound'
    by_cases hlt : place < tensors.length
    · rw [List.getElem?_append_left hlt] at hplace
      obtain ⟨hkind, hread⟩ := h place tensor' source' hplace hfound'
      exact ⟨hextends.kind?_mono hkind, hextends.producer?_mono hread⟩
    · -- It is the new one, which stands at the end of the graph.
      obtain ⟨rfl, rfl⟩ : place = tensors.length ∧ tensor' = tensor := by
        obtain ⟨hbound, hlast⟩ := List.getElem?_eq_some_iff.mp hplace
        rw [List.length_append, List.length_singleton] at hbound
        obtain rfl : place = tensors.length := by
          omega
        exact ⟨rfl, by simpa using hlast.symm⟩
      rw [hfound', Option.some.injEq, Prod.mk.injEq] at hfound
      obtain ⟨rfl, -⟩ := hfound
      rw [hproducer, Option.some.injEq] at hindex
      have hcontent := hextends.content?_new 0
      rw [Nat.add_zero, hlength] at hcontent
      refine ⟨kind?_of_draft hcontent, ?_⟩
      rw [producer?_of_draft hcontent, hindex]
      rfl
  · rw [hextends.length, hlength, List.length_append, List.length_singleton,
      List.length_singleton, Nat.add_assoc]

/-- The graph that is finished has the outputs behind the layers that were there. -/
theorem Woven.finish {g : Graph} (h : Woven model standIn t entry later k params info)
    (hvalid : Valid model standIn t supply) (hrun : t.finish.run supply = .ok g supply') :
    g.FunctionBehind entry.primary params info ∧
      ReadBy model standIn g later k ⟨entry.primary + 1, 0⟩ ∧
      OutputsRead model g t.graph.layers.length model.outputs k ⟨entry.primary + 1, 0⟩ := by
  obtain ⟨t', houtputs, -, rfl⟩ := finish_eq_ok_iff.mp hrun
  rw [hvalid.sameModel] at houtputs
  have hall : Woven model standIn t' entry later k params info ∧
      OutputsRead model t'.graph t.graph.layers.length model.outputs k ⟨entry.primary + 1, 0⟩ ∧
      t'.graph.layers.length = t.graph.layers.length + model.outputs.length := by
    refine hvalid.addOutputs_prefix (P := fun done t' =>
      Woven model standIn t' entry later k params info ∧
      OutputsRead model t'.graph t.graph.layers.length done k ⟨entry.primary + 1, 0⟩ ∧
      t'.graph.layers.length = t.graph.layers.length + done.length) ?_ ?_ houtputs
    · intro done t₁ s₁ tensor t₂ s₂ hvalid₁ hdone hstep
      obtain ⟨hwoven, hread, hlength⟩ := hdone
      refine ⟨hwoven.addOutput hvalid₁ hstep, ?_⟩
      exact hread.addOutput hvalid₁ hwoven.spliced.produced hlength hstep
    · refine ⟨h, ?_, rfl⟩
      intro place tensor source hplace
      cases hplace
  obtain ⟨hwoven, hread, -⟩ := hall
  exact ⟨hwoven.spliced.function, hwoven.readers, hread⟩

/-! ### The model with the function and the model without it -/

variable {operator : ModelOperator} {f : FusedActivation} {suffix : String}

/-- The plan with the function reads and writes the tensors of the plan without it. -/
theorem similar_activated (plan : Plan) (params : ActivationParams) (suffix : String) :
    plan.Similar (plan.activated params suffix) where
  consumed := rfl
  outputs := rfl
  counted := id

/-- Plans of two models that differ in the option are similar if those of the operator are. -/
theorem twins_of_similar {f' : FusedActivation}
    (h : ∀ plan, Plan.ofOperator (model.withActivation index f) index standIn = .ok plan →
      ∃ plan', Plan.ofOperator (model.withActivation index f') index standIn = .ok plan' ∧
        plan.Similar plan') :
    (model.withActivation index f).Twins (model.withActivation index f') standIn where
  tensors := rfl
  inputs := rfl
  plans := by
    intro i plan hplan
    by_cases hi : i = index
    · rw [hi] at hplan ⊢
      exact h plan hplan
    · rw [Plan.ofOperator_beside f standIn hi] at hplan
      rw [Plan.ofOperator_beside f' standIn hi]
      exact ⟨plan, hplan, rfl, rfl, id⟩

theorem twins_withActivation (hoperator : model.operators[index]? = some operator)
    (hcode : operator.code ∈ OperatorCode.fusing)
    (hf : Operation.fusedLayer? f = .ok (some (params, suffix))) (standIn : Bool) :
    (model.withActivation index .none).Twins (model.withActivation index f) standIn ∧
      (model.withActivation index f).Twins (model.withActivation index .none) standIn := by
  obtain ⟨-, heq⟩ := Plan.ofOperator_withActivation hoperator hcode hf standIn
  constructor
  · apply twins_of_similar
    intro plan hplan
    rw [heq, hplan]
    exact ⟨_, rfl, similar_activated plan params suffix⟩
  · apply twins_of_similar
    intro plan hplan
    rw [heq] at hplan
    obtain ⟨base, hbase, rfl⟩ := Except.map_eq_ok_iff.mp hplan
    exact ⟨base, hbase, rfl, rfl, id⟩

theorem fuses_withActivation (hoperator : model.operators[index]? = some operator)
    (hcode : operator.code ∈ OperatorCode.fusing)
    (hf : Operation.fusedLayer? f = .ok (some (params, suffix))) (standIn : Bool) (plan : Plan)
    (hplan : Plan.ofOperator (model.withActivation index f) index standIn = .ok plan) :
    ∃ k info, plan.Fuses params k info := by
  obtain ⟨hbare, heq⟩ := Plan.ofOperator_withActivation hoperator hcode hf standIn
  rw [heq] at hplan
  obtain ⟨base, hbase, rfl⟩ := Except.map_eq_ok_iff.mp hplan
  obtain ⟨k, info, hk, hinfo⟩ := (hbare base hbase).written
  exact ⟨k, info, ⟨_, by rw [Plan.activated, hinfo]⟩, hk, hinfo⟩

/-- An operator that may have a function behind its result is planned without it first, as one
    primary layer that writes one tensor. With the function it is planned in the same way and has
    one more layer, with the descriptor of the primary layer on both sides, or is refused with the
    same error. Of the same calls, the same ones succeed. In every history that lowers the
    operator, the layer of the function is the only consumer of the primary layer. Wherever a later
    operator reads the tensor, in a slot of its primary layer or in a reshape in front of it, it
    reads the layer of the function; and when the graph is finished, the outputs for the tensor do
    so too. -/
theorem fused_spliced (hoperator : model.operators[index]? = some operator)
    (hcode : operator.code ∈ OperatorCode.fusing) (hf : f ∈ FusedActivation.functions)
    (standIn : Bool) :
    ∃ params suffix, Operation.fusedLayer? f = .ok (some (params, suffix)) ∧
      (Plan.ofOperator (model.withActivation index .none) index standIn).Yields Plan.Bare ∧
      Plan.ofOperator (model.withActivation index f) index standIn =
        (Plan.ofOperator (model.withActivation index .none) index standIn).map
          (·.activated params suffix) ∧
      (∀ supply indices,
        (History.over? (model.withActivation index f) standIn supply indices).map
            (·.entries.map (·.index)) =
          (History.over? (model.withActivation index .none) standIn supply indices).map
            (·.entries.map (·.index))) ∧
      ∀ supply indices history,
        History.over? (model.withActivation index f) standIn supply indices = some history →
        ∀ earlier entry later, history.entries = earlier ++ entry :: later →
          entry.index = index →
          ∃ plan k info,
            Plan.ofOperator (model.withActivation index f) index standIn = .ok plan ∧
            plan.Fuses params k info ∧
            Woven (model.withActivation index f) standIn history.site.lowering entry later k
              params info ∧
            ∀ g s, history.site.lowering.finish.run history.site.supply = .ok g s →
              g.FunctionBehind entry.primary params info ∧
              ReadBy (model.withActivation index f) standIn g later k ⟨entry.primary + 1, 0⟩ ∧
              OutputsRead (model.withActivation index f) g
                history.site.lowering.graph.layers.length model.outputs k
                ⟨entry.primary + 1, 0⟩ := by
  obtain ⟨params, suffix, hfused⟩ := Operation.exists_fusedLayer? hf
  obtain ⟨hbare, heq⟩ := Plan.ofOperator_withActivation hoperator hcode hfused standIn
  obtain ⟨htwins, htwins'⟩ := twins_withActivation hoperator hcode hfused standIn
  refine ⟨params, suffix, hfused, hbare, heq, ?_, ?_⟩
  · intro supply indices
    exact accepted_of_twins htwins htwins' supply indices
  · intro supply indices history hover earlier entry later hentries hindex
    obtain ⟨t, s, hstart, rfl⟩ := History.exists_of_over? hover
    have hfirst := History.valid_first hstart
    have hnone : AllWoven (model.withActivation index f) standIn index params
        (History.first t s) := by
      intro earlier entry later hentries
      exact absurd hentries (by simp [History.first])
    have hall := hnone.calls hfirst (fuses_withActivation hoperator hcode hfused standIn) indices
    obtain ⟨plan, k, info, hplan, hfuses, hwoven⟩ := hall earlier entry later hentries hindex
    refine ⟨plan, k, info, hplan, hfuses, hwoven, ?_⟩
    intro g s' hrun
    exact hwoven.finish (History.valid_calls hfirst indices) hrun

/-- A model that doubles a tensor of one dimension, adds one of two dimensions to the result, and
    gives both results. -/
def doubledSum : Model where
  tensors := [
    { name := "a", shape := [1], storage := .float32 },
    { name := "b", shape := [1, 1], storage := .float32 },
    { name := "y", shape := [1], storage := .float32 },
    { name := "z", shape := [1, 1], storage := .float32 }]
  operators := [
    { code := .add, inputs := [0, 0], outputs := [2] },
    { code := .add, inputs := [2, 1], outputs := [3] }]
  inputs := [0, 1]
  outputs := [2, 3]

/-- With a function on the first sum, the reshape for the second sum and the first output read the
    function. -/
theorem fused_spliced_doubledSum :
    ∃ history g s,
      History.over? (doubledSum.withActivation 0 .relu) false .initial [0, 1] = some history ∧
      history.entries.map (·.primary) = [2, 5] ∧
      history.site.lowering.finish.run history.site.supply = .ok g s ∧
      g.consumers ⟨2, 0⟩ = [⟨3, 0⟩] ∧ g.producer? ⟨4, 0⟩ = some ⟨3, 0⟩ ∧
      g.kind? 6 = some (.output (bindingOf 2)) ∧ g.producer? ⟨6, 0⟩ = some ⟨3, 0⟩ ∧
      (History.over? (doubledSum.withActivation 0 .none) false .initial [0, 1]).map
        (·.entries.map (·.index)) = some [0, 1] := by
  have hstate : (History.over? (doubledSum.withActivation 0 .relu) false .initial [0, 1]).map
      (fun history => (history.entries.map (fun entry => (entry.index, entry.primary)),
        history.site.lowering.graph.layers.length,
        match history.site.lowering.finish.run history.site.supply with
        | .ok _ _ => true
        | .error _ _ => false)) = some ([(0, 2), (1, 5)], 6, true) := by
    decide +kernel
  have hfirst : (Plan.ofOperator (doubledSum.withActivation 0 .relu) 0 false).map
      (·.outputs) = .ok [2] := by
    decide +kernel
  have hsecond : (Plan.ofOperator (doubledSum.withActivation 0 .relu) 1 false).map
      (·.reshapes.map (·.1)) = .ok [2] := by
    decide +kernel
  obtain ⟨history, hover, hstate⟩ := Option.map_eq_some_iff.mp hstate
  rw [Prod.mk.injEq, Prod.mk.injEq] at hstate
  obtain ⟨hentries, hlength, hfinish⟩ := hstate
  obtain ⟨first, second, hboth⟩ : ∃ first second, history.entries = [first, second] := by
    have hcount := congrArg List.length hentries
    rw [List.length_map] at hcount
    exact List.length_eq_two.mp hcount
  rw [hboth, List.map_cons, List.map_cons, List.map_nil] at hentries
  simp only [List.cons.injEq, Prod.mk.injEq, and_true] at hentries
  obtain ⟨⟨hindex, hprimary⟩, hindex', hprimary'⟩ := hentries
  have hoperator : doubledSum.operators[0]? =
      some { code := .add, inputs := [0, 0], outputs := [2] } := rfl
  have hf : FusedActivation.relu ∈ FusedActivation.functions := by decide
  obtain ⟨params, suffix, -, -, -, haccepted, hspliced⟩ :=
    fused_spliced hoperator (by decide) hf false
  obtain ⟨plan, k, info, hplan, hfuses, -, hfinished⟩ :=
    hspliced .initial [0, 1] history hover [] first [second] hboth hindex
  obtain rfl : k = 2 := by
    rw [hplan] at hfirst
    have houtputs : plan.outputs = [2] := Except.ok.inj hfirst
    rw [hfuses.written] at houtputs
    exact List.singleton_inj.mp houtputs
  cases hrun : history.site.lowering.finish.run history.site.supply with
  | error e s =>
    rw [hrun] at hfinish
    cases hfinish
  | ok g s =>
    obtain ⟨hfunction, hreaders, houtputs⟩ := hfinished g s hrun
    rw [hprimary] at hfunction hreaders houtputs
    refine ⟨history, g, s, hover, ?_, hrun, hfunction.consumers, ?_, ?_⟩
    · rw [hboth, ← hprimary, ← hprimary']
      rfl
    · obtain ⟨plan', start, hplan', hplace, hreads⟩ := hreaders second (List.mem_singleton_self _)
      rw [hindex'] at hplan'
      rw [hplan'] at hsecond
      have hreshapes : plan'.reshapes.map (·.1) = [2] := Except.ok.inj hsecond
      obtain ⟨entry, hentry, htensor⟩ := List.map_eq_singleton_iff.mp hreshapes
      rw [hentry, hprimary'] at hplace
      obtain rfl : start = 4 := (Nat.succ.inj hplace).symm
      obtain ⟨k, layer⟩ := entry
      cases htensor
      exact (hreads.reshapes 0 layer (by rw [hentry]; rfl)).2
    · rw [hlength] at houtputs
      obtain ⟨hkind, hread⟩ := houtputs 0 2 _ rfl rfl
      refine ⟨hkind, hread, ?_⟩
      rw [← haccepted, hover, Option.map_some, hboth, List.map_cons, List.map_cons, hindex,
        hindex', List.map_nil]

end Lowering

end LayerGraph
