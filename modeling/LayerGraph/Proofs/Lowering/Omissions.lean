import LayerGraph.Proofs.Lowering.Roles

/-! # Inputs that are left out

  An operator lists minus one in the place of an input that it leaves out. Only an optional input
  may be left out, and the place of every other one says what it is. But the entries are dropped
  before anything looks at roles, so a plan is the same with them and without, and so is a refusal
  (`Plan.ofOperator_withInputs`).

  Main statement: the inputs play their roles by the places that they have among those that are
  present. These are the places at which they are listed if and only if nothing is left out before
  an input that is present. No other list is refused for its gaps. In such a list an input moves up
  and plays the role of one that is left out (`Plan.roles_of_inputs`).
-/

namespace LayerGraph

/-! ### Lists with gaps -/

namespace Listing

/-- The inputs that are present. -/
def present (inputs : List Int32) : List Int32 := inputs.filter (· != -1)

/-- The tensor that is listed at a place, when none is left out there. -/
def tensor? (inputs : List Int32) (k : Nat) : Option Nat :=
  (inputs[k]?.filter (· != -1)).map (·.toInt.toNat)

/-- Nothing is left out before an input that is present. -/
def Gapless (inputs : List Int32) : Prop :=
  ∀ (i j : Nat) (t : Int32), i < j → inputs[i]? = some (-1) → inputs[j]? = some t → t = -1

variable {inputs rest : List Int32} {t : Int32} {i j k : Nat}

theorem tensor?_of_omitted (h : inputs[k]? = some (-1)) : tensor? inputs k = none := by
  rw [tensor?, h]
  rfl

theorem tensor?_of_present (h : inputs[k]? = some t) (ht : t ≠ -1) :
    tensor? inputs k = some t.toInt.toNat := by
  rw [tensor?, h, Option.filter_some, if_pos (bne_iff_ne.mpr ht), Option.map_some]

/-- An input in front makes no difference to gaps. -/
theorem gapless_cons_iff (ht : t ≠ -1) : Gapless (t :: rest) ↔ Gapless rest := by
  constructor
  · intro h i j t' hij hi hj
    exact h (i + 1) (j + 1) t' (Nat.succ_lt_succ hij) hi hj
  · intro h i j t' hij hi hj
    cases i with
    | zero => exact absurd (Option.some.inj hi) ht
    | succ i =>
      cases j with
      | zero => exact absurd hij (Nat.not_lt_zero _)
      | succ j => exact h i j t' (Nat.lt_of_succ_lt_succ hij) hi hj

/-- When the first input is left out, none may be present. -/
theorem gapless_omitted_iff : Gapless (-1 :: rest) ↔ present rest = [] := by
  have hnone : present rest = [] ↔ ∀ t ∈ rest, t = -1 := by
    rw [present, List.filter_eq_nil_iff]
    exact forall₂_congr fun t _ => by simp
  rw [hnone]
  constructor
  · intro h t ht
    obtain ⟨j, hj⟩ := List.mem_iff_getElem?.mp ht
    exact h 0 (j + 1) t (Nat.succ_pos j) rfl hj
  · intro h i j t hij _ hj
    obtain ⟨j, rfl⟩ := Nat.exists_eq_add_one_of_ne_zero (Nat.ne_zero_of_lt hij)
    exact h t (List.mem_of_getElem? hj)

theorem present_cons_of_ne (ht : t ≠ -1) : present (t :: rest) = t :: present rest :=
  List.filter_cons_of_pos (bne_iff_ne.mpr ht)

theorem present_omitted : present (-1 :: rest) = present rest :=
  List.filter_cons_of_neg (by decide)

/-- Without gaps, the inputs that are present are where they are listed. -/
theorem Gapless.getElem?_present (h : Gapless inputs) (k : Nat) :
    (present inputs)[k]?.map (·.toInt.toNat) = tensor? inputs k := by
  induction inputs generalizing k with
  | nil => rfl
  | cons t rest ih =>
    by_cases ht : t = -1
    · subst ht
      -- Nothing is present behind the first gap, so all places behind it are left out as well.
      have hnone := gapless_omitted_iff.mp h
      rw [present_omitted, hnone]
      cases hk : ((-1 : Int32) :: rest)[k]? with
      | none => rw [tensor?, hk]; rfl
      | some t =>
        cases k with
        | zero =>
          cases hk
          rfl
        | succ k =>
          rw [h 0 (k + 1) t (Nat.succ_pos k) rfl hk] at hk
          rw [tensor?_of_omitted hk]
          rfl
    · rw [present_cons_of_ne ht]
      cases k with
      | zero => exact (tensor?_of_present rfl ht).symm
      | succ k => exact ih ((gapless_cons_iff ht).mp h) k

/-- In a list with gaps, an input is among those that are present where the list has left one out. -/
theorem exists_moved_up (h : ¬ Gapless inputs) : ∃ (i j : Nat) (t : Int32), i < j ∧
    inputs[i]? = some (-1) ∧
    inputs[j]? = some t ∧ t ≠ -1 ∧ (present inputs)[i]? = some t := by
  induction inputs with
  | nil => exact absurd (fun i j t _ hi _ => by cases hi) h
  | cons t rest ih =>
    by_cases ht : t = -1
    · subst ht
      -- The first input that is present moves up to the front.
      rw [gapless_omitted_iff] at h
      obtain ⟨first, others, hfirst⟩ := List.exists_cons_of_ne_nil h
      have hmem : first ∈ present rest := by rw [hfirst]; exact List.mem_cons_self
      obtain ⟨hrest, hne⟩ := List.mem_filter.mp hmem
      obtain ⟨j, hj⟩ := List.mem_iff_getElem?.mp hrest
      refine ⟨0, j + 1, first, Nat.succ_pos j, rfl, hj, bne_iff_ne.mp hne, ?_⟩
      rw [present_omitted, hfirst]
      rfl
    · rw [gapless_cons_iff ht] at h
      obtain ⟨i, j, t', hij, hi, hj, hne, hmoved⟩ := ih h
      refine ⟨i + 1, j + 1, t', Nat.succ_lt_succ hij, hi, hj, hne, ?_⟩
      rw [present_cons_of_ne ht]
      exact hmoved

end Listing

/-! ### Operators with other lists -/

/-- The model in which the operator at a position lists other inputs. -/
def Model.withInputs (model : Model) (index : Nat) (inputs : List Int32) : Model :=
  { model with
    operators := model.operators.modify index fun operator => { operator with inputs := inputs } }

namespace Operation

variable {op : Operation} {model : Model} {index : Nat} {operator : ModelOperator}
variable {inputs : List Int32} {plan : Plan} {s : Signature} {standIn : Bool}

/-- The operation of an operator that lists other inputs. -/
def withInputs (op : Operation) (inputs : List Int32) : Operation :=
  { op with
    model := op.model.withInputs op.index inputs
    operator := { op.operator with inputs := inputs } }

/-- Only the inputs that are present are looked for. -/
theorem ofModel_withInputs (hoperator : model.operators[index]? = some operator)
    (hpresent : Listing.present inputs = Listing.present operator.inputs) :
    ofModel (model.withInputs index inputs) index =
      (ofModel model index).map (·.withInputs inputs) := by
  have hfound : (model.withInputs index inputs).operators[index]? =
      some { operator with inputs := inputs } := by
    rw [Model.withInputs, List.getElem?_modify_eq, hoperator]
    rfl
  unfold ofModel
  rw [hfound, hoperator]
  show (Listing.present inputs).mapM (resolve model index) >>= _ = Except.map _ (_ >>= _)
  rw [hpresent, Except.map_bind]
  -- The tables of tensors are the same, so everything is found in both and refused in both alike.
  apply bind_congr
  intro found
  rw [Except.map_bind]
  apply bind_congr
  intro outputs
  have hdynamic : isDynamic (model.withInputs index inputs) = isDynamic model := rfl
  dsimp only
  rw [hdynamic]
  cases (found ++ outputs).find? (isDynamic model) <;> rfl

/-- A plan looks at the tensors that were found, and not at the list they come from. -/
theorem plan_withInputs : (op.withInputs inputs).plan standIn = op.plan standIn := rfl

/-- The tensors of an operation are the inputs that are present. -/
theorem inputs_of_ofModel (hop : ofModel model index = .ok op) :
    op.inputs = (Listing.present op.operator.inputs).map (·.toInt.toNat) := by
  obtain ⟨operator, found, outputs, -, hfound, -, -, rfl⟩ := ofModel_eq_ok_iff.mp hop
  have hpairs := Except.mapM_eq_ok_iff.mp hfound
  -- A tensor that is found is the one whose number is listed.
  have hsame : List.Forall₂ (fun (t : Int32) k => t.toInt.toNat = k)
      (Listing.present operator.inputs) found := by
    refine hpairs.imp fun t k hk => ?_
    unfold resolve at hk
    split at hk
    · exact Except.ok.inj hk
    · cases hk
  rw [← List.forall₂_map_left_iff, List.forall₂_eq_eq_eq] at hsame
  exact hsame.symm

/-- When the roles are played by the tensors of the operation in order, they are played by those
    listed at their places only if there are no gaps. -/
theorem gapless_of_assigned (horder : op.InOrder s plan)
    (htensors : op.inputs = (Listing.present inputs).map (·.toInt.toNat))
    (hlisted : op.Assigned s (Listing.tensor? inputs) plan) : Listing.Gapless inputs := by
  by_contra hgaps
  obtain ⟨i, j, t, hij, hi, hj, ht, hmoved⟩ := Listing.exists_moved_up hgaps
  have hnone := Listing.tensor?_of_omitted hi
  cases s with
  | fixed required optional =>
    have hlate : required.length ≤ i := by
      by_contra hlt
      obtain ⟨t, ht⟩ := hlisted.required i (Nat.lt_of_not_le hlt)
      rw [hnone] at ht
      cases ht
    -- At most one role can be left out, so none is behind it for the input that follows.
    obtain ⟨role, hrole⟩ := hlisted.known j _ (Listing.tensor?_of_present hj ht)
    have hroles := (List.getElem?_eq_some_iff.mp hrole).1
    rw [List.length_append] at hroles
    have hone : optional.toList.length ≤ 1 := by cases optional <;> simp
    omega
  | operands least =>
    have hread := horder.plays i (.operand i) rfl
    have hleft := hlisted.plays i (.operand i) rfl
    rw [htensors, List.getElem?_map, hmoved] at hread
    rw [hnone] at hleft
    cases hleft.symm.trans hread

end Operation

namespace Plan

open Operation

variable {model : Model} {index : Nat} {operator : ModelOperator} {inputs : List Int32}

/-- An operator is planned or refused without regard to the inputs that it leaves out. -/
theorem ofOperator_withInputs (hoperator : model.operators[index]? = some operator)
    (hpresent : Listing.present inputs = Listing.present operator.inputs) (standIn : Bool) :
    Plan.ofOperator (model.withInputs index inputs) index standIn =
      Plan.ofOperator model index standIn := by
  unfold Plan.ofOperator
  rw [ofModel_withInputs hoperator hpresent]
  cases ofModel model index with
  | error e => rfl
  | ok op => exact plan_withInputs

/-- Leaving out inputs never changes whether an operator is planned, nor its plan: it is that of
    the inputs that are present. In a plan, the roles of the operator are played by these inputs in
    order. They are played by the inputs listed at their places, and left out where none is, if and
    only if no input is left out before one that is present. Otherwise an input listed behind plays
    the role of an input that is left out. -/
theorem roles_of_inputs (standIn : Bool) (hoperator : model.operators[index]? = some operator) :
    (∀ inputs, Listing.present inputs = Listing.present operator.inputs →
      Plan.ofOperator (model.withInputs index inputs) index standIn =
        Plan.ofOperator model index standIn) ∧
    ∀ plan, Plan.ofOperator model index standIn = .ok plan → ∃ op, ofModel model index = .ok op ∧
      op.Assigned operator.code.signature
        (fun k => (Listing.present operator.inputs)[k]?.map (·.toInt.toNat)) plan ∧
      (op.Assigned operator.code.signature (Listing.tensor? operator.inputs) plan ↔
        Listing.Gapless operator.inputs) ∧
      (¬ Listing.Gapless operator.inputs → ∃ i j t role, i < j ∧
        operator.inputs[i]? = some (-1) ∧ operator.inputs[j]? = some t ∧ t ≠ -1 ∧
        operator.code.signature.role? i = some role ∧
        op.Plays plan plan.primary.kind role (some t.toInt.toNat)) := by
  refine ⟨fun inputs hpresent => ofOperator_withInputs hoperator hpresent standIn, ?_⟩
  intro plan h
  obtain ⟨op, hop, hplan⟩ := Except.bind_eq_ok_iff.mp h
  obtain rfl : operator = op.operator :=
    Option.some.inj (hoperator.symm.trans (operator_of_ofModel hop))
  have hinputs := inputs_of_ofModel hop
  have horder := plan_inOrder plan hplan
  have hpresent : op.Assigned op.operator.code.signature
      (fun k => (Listing.present op.operator.inputs)[k]?.map (·.toInt.toNat)) plan := by
    simp only [InOrder, hinputs, List.getElem?_map] at horder
    exact horder
  refine ⟨op, hop, hpresent, ⟨gapless_of_assigned horder hinputs, ?listed⟩, ?moved⟩
  case listed =>
    intro hgapless
    rwa [funext hgapless.getElem?_present] at hpresent
  case moved =>
    intro hgaps
    obtain ⟨i, j, t, hij, hi, hj, ht, hmoved⟩ := Listing.exists_moved_up hgaps
    have htensor : (Listing.present op.operator.inputs)[i]?.map (·.toInt.toNat) =
        some t.toInt.toNat := by
      rw [hmoved, Option.map_some]
    obtain ⟨role, hrole⟩ := hpresent.known i _ htensor
    have hplays := hpresent.plays i role hrole
    rw [htensor] at hplays
    exact ⟨i, j, t, role, hij, hi, hj, ht, hrole, hplays⟩

/-- A layer of one output that leaves its weights out and has biases, and one that leaves out its
    biases. -/
def leftOut : Model where
  tensors := [
    { name := "x", shape := [1, 3], storage := .float32 },
    { name := "b", shape := [1, 3], storage := .float32
      data := some [0, 0, 128, 63, 0, 0, 0, 64, 0, 0, 64, 64] },
    { name := "y", shape := [1, 1], storage := .float32 }]
  operators := [
    { code := .fullyConnected, inputs := [0, -1, 1], outputs := [2] },
    { code := .fullyConnected, inputs := [0, 1, -1], outputs := [2] }]
  inputs := [0]
  outputs := [2]

/-- The biases are taken for the weights that are left out, as if they were listed in their place. -/
theorem roles_of_inputs_leftOut :
    Plan.ofOperator (leftOut.withInputs 0 [0, 1, -1]) 0 false =
      Plan.ofOperator leftOut 0 false ∧
    (∃ plan op, Plan.ofOperator leftOut 0 false = .ok plan ∧ ofModel leftOut 0 = .ok op ∧
      ¬ op.Assigned OperatorCode.fullyConnected.signature (Listing.tensor? [0, -1, 1]) plan ∧
      op.Fills plan 1 .weights plan.primary.kind) ∧
    ∃ plan op, Plan.ofOperator leftOut 1 false = .ok plan ∧ ofModel leftOut 1 = .ok op ∧
      op.Assigned OperatorCode.fullyConnected.signature (Listing.tensor? [0, 1, -1]) plan := by
  have hplanned (index : Nat) (hindex : index < 2) :
      ∃ plan, Plan.ofOperator leftOut index false = .ok plan := by
    have hall : ∀ index < 2, (Plan.ofOperator leftOut index false).toBool = true := by
      decide +kernel
    have hok := hall index hindex
    cases hplan : Plan.ofOperator leftOut index false with
    | ok plan => exact ⟨plan, rfl⟩
    | error e =>
      rw [hplan] at hok
      cases hok
  obtain ⟨before, hbefore⟩ := hplanned 0 (by decide)
  obtain ⟨behind, hbehind⟩ := hplanned 1 (by decide)
  have hgaps : ¬ Listing.Gapless [0, -1, 1] := fun h => by
    have hnot := h 1 2 1 (by decide) rfl rfl
    revert hnot
    decide
  have hgapless : Listing.Gapless [0, 1, -1] := by
    rw [Listing.gapless_cons_iff (by decide), Listing.gapless_cons_iff (by decide),
      Listing.gapless_omitted_iff]
    rfl
  refine ⟨(roles_of_inputs false rfl).1 [0, 1, -1] rfl, ⟨before, ?_⟩, behind, ?_⟩
  · obtain ⟨op, hop, hpresent, hlisted, -⟩ := (roles_of_inputs false rfl).2 before hbefore
    exact ⟨op, hbefore, hop, fun h => hgaps (hlisted.mp h), hpresent.plays 1 .weights rfl⟩
  · obtain ⟨op, hop, -, hlisted, -⟩ := (roles_of_inputs false rfl).2 behind hbehind
    exact ⟨op, hbehind, hop, hlisted.mpr hgapless⟩

end Plan

end LayerGraph
