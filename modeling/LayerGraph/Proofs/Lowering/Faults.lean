import LayerGraph.Lowering.Assembly
import LayerGraph.Proofs.Numeric.Overflow

/-! # Whose fault it is

  What is wrong with an operator is found out before a layer is made. All that is refused when its
  tensors are looked up, their values read and the parameters of a layer computed is the operator
  (`Blames`), and so it is when the plan is checked for what it reads and writes. Errors of a graph
  never come from there.

  There is one thing else that can stop a plan. Three kinds of operators have sizes added up or a
  zero point taken away, and the result need not fit (`MayOverflow`). Otherwise an operator is
  rejected for its own fault (`Rejects`).
-/

namespace LayerGraph

/-- The error is a fault of the operator at a position. -/
def LoweringError.Blames (index : Nat) : LoweringError → Prop
  | .unknownOperator operator => operator = index
  | .arity operator _ _ _ _ => operator = index
  | .invalidTensor operator _ _ => operator = index
  | .unsupportedOperator operator _ _ => operator = index
  | .dynamicShape operator _ => operator = index
  | .overflow _ => False
  | .graph _ _ => False
  | .invalidBoundary _ _ _ => False
  | .incomplete _ => False

/-- The numbers that an operator may be too large for: where joined tensors or parts of given sizes
    start, and a pad value behind its zero point. -/
inductive Operation.MayOverflow (op : Operation) : Overflow → Prop
  | joined (hcode : op.operator.code = .concatenation) : MayOverflow op .add
  | parts (hcode : op.operator.code = .splitV) : MayOverflow op .add
  | padded (hcode : op.operator.code = .padV2) : MayOverflow op .subtract

/-- The error is a fault of the operator, or a number that does not fit where it may not. -/
def Operation.Rejects (op : Operation) : LoweringError → Prop
  | .overflow operation => op.MayOverflow operation
  | e => e.Blames op.index

theorem LoweringError.Blames.rejects {op : Operation} {e : LoweringError}
    (h : e.Blames op.index) : op.Rejects e := by
  cases e with
  | overflow => exact h.elim
  | _ => exact h

/-! ### Computations that refuse -/

namespace Planning

variable {α β : Type} {index : Nat} {x : Planning α} {p : LoweringError → Prop}

/-- Whatever is refused is refused with such an error. -/
def Refuses (x : Planning α) (p : LoweringError → Prop) : Prop := ∀ e, x = .error e → p e

/-- Whatever is refused is the fault of the operator at a position. -/
abbrev Blames (x : Planning α) (index : Nat) : Prop := Refuses x (LoweringError.Blames index)

theorem refuses_ok (a : α) : Refuses (.ok a) p := by
  intro e h
  cases h

theorem refuses_error {e : LoweringError} (h : p e) : Refuses (.error e : Planning α) p := by
  intro e' he
  cases he
  exact h

theorem Refuses.bind {f : α → Planning β} (hx : Refuses x p) (hf : ∀ a, Refuses (f a) p) :
    Refuses (x >>= f) p := by
  intro e h
  cases hrun : x with
  | error e' =>
    rw [hrun] at h
    cases h
    exact hx _ hrun
  | ok a =>
    rw [hrun] at h
    exact hf a e h

theorem Refuses.check {c : Prop} [Decidable c] {e : LoweringError} {f : β → Planning α}
    (he : p e) (hx : Refuses x p) :
    Refuses (if c then (.error e : Planning β) >>= f else x) p := by
  split
  · exact refuses_error he
  · exact hx

/-- A sequence stops for a number that does not fit where a part does that may. -/
theorem Blames.bind_eq_overflow_iff {x : Planning β} {f : β → Planning α} {operation : Overflow}
    (hx : x.Blames index) :
    x >>= f = .error (.overflow operation) ↔
      ∃ b, x = .ok b ∧ f b = .error (.overflow operation) := by
  rw [Except.bind_eq_error_iff]
  exact or_iff_right fun h => (hx _ h).elim

theorem refuses_mapM {f : β → Planning α} (hf : ∀ b, Refuses (f b) p) (items : List β) :
    Refuses (items.mapM f) p := by
  induction items with
  | nil => exact refuses_ok []
  | cons b items ih =>
    rw [List.mapM_cons]
    exact .bind (hf b) fun a => .bind ih fun rest => refuses_ok (a :: rest)

theorem refuses_foldlM {f : α → β → Planning α} (hf : ∀ a b, Refuses (f a b) p)
    (items : List β) (a : α) : Refuses (items.foldlM f a) p := by
  induction items generalizing a with
  | nil => exact refuses_ok a
  | cons b items ih =>
    rw [List.foldlM_cons]
    exact .bind (hf a b) ih

end Planning

namespace Operation

open Planning

variable {op : Operation} {α : Type} {t : Nat} {kind : LayerKind} {name : String}

theorem invalid_blames {fault : TensorFault} : (op.invalid t fault : Planning α).Blames op.index :=
  refuses_error rfl

theorem unsupported_blames {reason : Unsupported} :
    (op.unsupported reason : Planning α).Blames op.index :=
  refuses_error rfl

/-- Numbers that do not fit are refused where they may not. -/
theorem mapError_refuses {x : Except Overflow α} (hx : ∀ e, x = .error e → op.MayOverflow e) :
    Refuses (x.mapError LoweringError.overflow) op.Rejects := by
  intro e he
  obtain ⟨operation, hoverflow, rfl⟩ := Except.mapError_eq_error_iff.mp he
  exact hx operation hoverflow

/-! ### Tensors and their values -/

theorem checkArity_blames {inputs outputs : Arity} :
    (op.checkArity inputs outputs).Blames op.index := by
  unfold checkArity
  refine .check rfl ?_
  split
  · exact refuses_error rfl
  · exact refuses_ok ()

theorem info_blames : (op.info t).Blames op.index := by
  unfold info
  split
  · exact refuses_ok _
  · exact invalid_blames

theorem dims_blames : (op.dims t).Blames op.index := by
  unfold dims
  refine .bind info_blames fun info => ?_
  split
  · exact refuses_ok _
  · exact invalid_blames

theorem dims4_blames : (op.dims4 t).Blames op.index := by
  unfold dims4
  refine .bind dims_blames fun dims => ?_
  split
  · exact refuses_ok _
  · exact invalid_blames

theorem elementCount_blames : (op.elementCount t).Blames op.index := by
  unfold elementCount
  refine .bind info_blames fun info => ?_
  split
  · exact refuses_ok _
  · exact invalid_blames

theorem constant_blames : (op.constant t).Blames op.index := by
  unfold constant
  split
  · refine .bind info_blames fun info => ?_
    split
    · exact refuses_ok _
    · exact invalid_blames
  · exact invalid_blames

theorem optionalConstant_blames {role : Nat} : (op.optionalConstant role).Blames op.index := by
  unfold optionalConstant
  split
  · rw [map_eq_pure_bind]
    exact .bind constant_blames fun c => refuses_ok _
  · exact refuses_ok _

theorem ints_blames : (op.ints t).Blames op.index := by
  unfold ints
  refine .bind constant_blames fun c => ?_
  split
  · exact refuses_ok _
  · exact invalid_blames

theorem scalar_blames : (op.scalar t).Blames op.index := by
  unfold scalar
  refine .bind ints_blames fun values => ?_
  split
  · exact refuses_ok _
  · exact invalid_blames

theorem sizesOf_blames {values : List Int} : (op.sizesOf t values).Blames op.index := by
  unfold sizesOf
  refine refuses_mapM (fun v => ?_) values
  split
  · exact refuses_ok _
  · exact invalid_blames

theorem sizes_blames : (op.sizes t).Blames op.index := by
  unfold sizes
  exact .bind ints_blames fun values => sizesOf_blames

theorem signed_blames : (op.signed t).Blames op.index := by
  unfold signed
  refine .bind ints_blames fun values => refuses_mapM (fun v => ?_) values
  split
  · exact refuses_ok _
  · exact invalid_blames

theorem pairs_blames : (op.pairs t).Blames op.index := by
  unfold pairs
  exact .bind sizes_blames fun values => .check rfl (refuses_ok _)

theorem axis_blames {axis : Int} {rank : Nat} : (op.axis t axis rank).Blames op.index := by
  unfold Operation.axis
  split
  · exact refuses_ok _
  · exact invalid_blames

theorem axesOf_blames {axes : List Int} {rank : Nat} :
    (op.axesOf t axes rank).Blames op.index := by
  unfold axesOf
  exact .bind (refuses_mapM (fun a => axis_blames) axes) fun named => refuses_ok _

theorem axes_blames {axes : Nat} : (op.axes t axes).Blames op.index := by
  unfold Operation.axes
  exact .bind dims_blames fun dims => .bind ints_blames fun values =>
    .bind axesOf_blames fun named => refuses_ok _

/-! ### Layers and their parameters -/

theorem layer_blames {connected : List Nat} : (op.layer kind name connected).Blames op.index := by
  unfold layer
  exact .bind (refuses_mapM (fun t => info_blames) connected) fun inputs =>
    .bind (refuses_mapM (fun t => info_blames) op.outputs) fun outputs => refuses_ok _

theorem fuse_blames {plan : Plan} : (op.fuse plan).Blames op.index := by
  unfold fuse
  split
  · exact unsupported_blames
  · exact refuses_ok _
  · exact refuses_ok _

theorem paddingOf_blames {size : UInt32} {w : Window} :
    (op.paddingOf t size w).Blames op.index := by
  unfold paddingOf
  split
  · exact refuses_ok _
  · exact invalid_blames

theorem marginsOf_blames {image : Dims4} {rows columns : Window} :
    (op.marginsOf t image rows columns).Blames op.index := by
  unfold marginsOf
  exact .bind paddingOf_blames fun pads => .bind paddingOf_blames fun pads' => refuses_ok _

theorem convolutionParams_blames {image kernel : Dims4} :
    (op.convolutionParams image kernel).Blames op.index := by
  unfold convolutionParams
  exact .bind marginsOf_blames fun margins => refuses_ok _

theorem requestedShape_blames : op.requestedShape.Blames op.index := by
  unfold requestedShape
  split
  · exact refuses_ok _
  · split
    · exact ints_blames
    · exact .bind dims_blames fun dims => refuses_ok _

theorem joinedSize_blames {rank axis : Nat} : (op.joinedSize rank axis t).Blames op.index := by
  unfold joinedSize
  exact .bind dims_blames fun dims => .check rfl (refuses_ok _)

theorem boxSize_blames {size : Int} {start dim : UInt32} :
    (op.boxSize t size start dim).Blames op.index := by
  unfold boxSize
  split
  · exact refuses_ok _
  · split
    · exact refuses_ok _
    · exact invalid_blames

theorem dequantized_eq_error {info : TensorInfo} {stored : Int} {operation : Overflow}
    (h : dequantized info stored = .error operation) : operation = .subtract := by
  unfold dequantized at h
  rcases Except.bind_eq_error_iff.mp h with hdifference | ⟨_, -, h⟩
  · exact (subtractInt32_eq_error_iff.mp hdifference).2.symm
  · cases h

theorem firstValue?_eq_error {c : Constant} {operation : Overflow}
    (h : firstValue? c = .error operation) : operation = .subtract := by
  have hbyte {f : UInt8 → Except Overflow Binary32} {byte : Option UInt8}
      (hf : ∀ b, f b = .error operation → operation = .subtract)
      (h : byte.mapM f = .error operation) : operation = .subtract := by
    cases byte with
    | none => cases h
    | some b =>
      rcases Except.bind_eq_error_iff.mp h with hb | ⟨_, -, h⟩
      · exact hf b hb
      · cases h
  unfold firstValue? at h
  split at h
  -- Only stored integers have a zero point taken away.
  case h_6 | h_7 | h_8 => exact hbyte (fun _ => dequantized_eq_error) h
  all_goals cases h

/-- A pad value is refused for a fault of the operator, unless it is given and the zero point cannot
    be taken away from it. -/
theorem padValue_refuses {info : TensorInfo} {mode : PaddingMode} {given : Bool}
    (hcode : given = true → op.operator.code = .padV2) :
    (op.padValue info mode given).Refuses op.Rejects := by
  unfold padValue
  split
  · next hgiven =>
    refine .bind (fun e he => (constant_blames e he).rejects) fun c => ?_
    have hvalue : ∀ e, firstValue? c = .error e → op.MayOverflow e := by
      intro e he
      rw [firstValue?_eq_error he]
      exact .padded (hcode hgiven)
    refine .bind (mapError_refuses hvalue) fun value => ?_
    split
    · exact refuses_ok _
    · exact refuses_error rfl
  · split
    · exact refuses_ok _
    · exact refuses_ok _

/-! ### Finding the operator -/

theorem resolve_blames {model : Model} {index : Nat} {tensor : Int32} :
    (resolve model index tensor).Blames index := by
  unfold resolve
  split
  · exact refuses_ok _
  · exact refuses_error rfl

theorem ofModel_blames {model : Model} {index : Nat} : (ofModel model index).Blames index := by
  unfold ofModel
  split
  · refine .bind (refuses_mapM (fun t => resolve_blames) _) fun inputs => ?_
    refine .bind (refuses_mapM (fun t => resolve_blames) _) fun outputs => ?_
    split
    · exact refuses_error rfl
    · exact refuses_ok _
  · exact refuses_error rfl

end Operation

open Planning

/-! ### What a plan reads and writes -/

namespace Lowering

variable {t : Lowering} {index tensor : Nat} {plan : Plan} {model : Model}

/-- Only a tensor of the operator is refused then. -/
theorem pendingConstant_refuses : (pendingConstant model index tensor).Refuses
    fun e => ∃ tensor fault, e = .invalidTensor index tensor fault := by
  unfold pendingConstant
  dsimp only
  split
  · split
    · split
      · refine .bind (refuses_ok _) fun info => ?_
        split
        · exact refuses_ok _
        · exact refuses_error ⟨_, _, rfl⟩
      · exact refuses_error ⟨_, _, rfl⟩
    · exact refuses_error ⟨_, _, rfl⟩
  · exact refuses_error ⟨_, _, rfl⟩

theorem sourcesOf_refuses : (t.sourcesOf index plan).Refuses
    fun e => ∃ tensor fault, e = .invalidTensor index tensor fault := by
  unfold sourcesOf
  refine refuses_foldlM (fun found tensor => ?_) _ _
  dsimp only
  split
  · exact refuses_ok _
  · exact .bind pendingConstant_refuses fun c => refuses_ok _

theorem checkOutputs_refuses : (t.checkOutputs index plan).Refuses
    fun e => ∃ tensor fault, e = .invalidTensor index tensor fault := by
  unfold checkOutputs
  dsimp only
  split
  · exact refuses_error ⟨_, _, rfl⟩
  · split
    · exact refuses_error ⟨_, _, rfl⟩
    · exact refuses_ok ()

end Lowering

end LayerGraph
