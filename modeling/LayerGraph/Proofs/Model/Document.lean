import LayerGraph.Proofs.Json.Records
import LayerGraph.Model.Document

/-! # Models survive their documents

  A model that was read from a document and is written again is read as the same model, with one
  exception: a number beyond the range of single precision is read as an infinity, which is written
  as null, and no field for a number reads null. So a model is read back exactly when the numbers
  in it are real (`Model.parse?_text`).

  Operator codes need a fact of their own. The text of a code is read as the code only if it has the
  known meaning of its name where there is one, which codes that were read do (`Named`).
-/

namespace LayerGraph

open Json (Recovers Record)

/-! ### Named values -/

theorem StorageType.ofName?_name (a : StorageType) : Choice.ofName? (Choice.name a) = some a := by
  cases a <;> decide

theorem PaddingRule.ofName?_name (a : PaddingRule) : Choice.ofName? (Choice.name a) = some a := by
  cases a <;> decide

theorem FusedActivation.ofName?_name (a : FusedActivation) :
    Choice.ofName? (Choice.name a) = some a := by
  cases a <;> decide

theorem MirrorMode.ofName?_name (a : MirrorMode) : Choice.ofName? (Choice.name a) = some a := by
  cases a <;> decide

namespace OperatorCode

/-- The known operators have the names they are known by. -/
theorem ofKnown?_name : ∀ entry ∈ known, ofKnown? entry.1.name = some entry.1 := by
  decide +kernel

/-- A code is what its name stands for. -/
def Named (code : OperatorCode) : Prop := ofName code.name = code

theorem named_of_ofKnown? {text : String} {code : OperatorCode} (h : ofKnown? text = some code) :
    code.Named := by
  obtain ⟨entry, hentry, rfl⟩ := Option.map_eq_some_iff.mp h
  rw [Named, ofName, ofKnown?_name entry (List.mem_of_find?_eq_some hentry), Option.getD_some]

theorem named_ofName (text : String) : (ofName text).Named := by
  cases hknown : ofKnown? text with
  | none =>
    have hother : ofName text = other text := by rw [ofName, hknown, Option.getD_none]
    rw [hother, Named]
    exact hother
  | some code =>
    rw [ofName, hknown, Option.getD_some]
    exact named_of_ofKnown? hknown

/-- Codes that were read are such, in both forms. -/
theorem named_of_ofJson? {json : Json} {code : OperatorCode} (h : ofJson? json = some code) :
    code.Named := by
  unfold ofJson? at h
  split at h
  · obtain ⟨text, -, rfl⟩ := Option.map_eq_some_iff.mp h
    exact named_ofName text
  · obtain ⟨text, -, hknown⟩ := Option.bind_eq_some_iff.mp h
    exact named_of_ofKnown? hknown

theorem Named.ofJson?_ofString {code : OperatorCode} (h : code.Named) :
    ofJson? (Json.ofString code.name) = some code := by
  show some (ofName code.name) = some code
  rw [h]

end OperatorCode

/-! ### Quantizations -/

namespace ModelQuantization

/-- The scales are real numbers. -/
def Finite (q : ModelQuantization) : Prop := ∀ s ∈ q.scales, s.isFinite = true

theorem recovers (q : ModelQuantization) : Recovers (ofJson? q.toJson) q q.Finite := by
  unfold toJson ofJson?
  refine Record.recovers_ofMembers (.refl _) (by decide) fun record h => ?_
  have hscales := Json.recovers_list fun s (_ : s ∈ q.scales) => Json.recovers_binary32 s
  rw [h.required_eq (h.mem 0 rfl), h.withDefault_eq (h.mem 1 rfl), h.withDefault_eq (h.mem 2 rfl),
    Json.list?_ofList Json.int64?_ofInt, Json.uint32?_ofUInt32]
  exact .congr (.bind hscales (.of_eq_some rfl)) (iff_of_eq (and_true _))

theorem printable_toJson (q : ModelQuantization) : q.toJson.Printable := by
  apply Json.printable_ofMembers
  simp only [List.forall_mem_cons, List.not_mem_nil, false_imp_iff, implies_true, and_true]
  exact ⟨Json.printable_ofList Json.printable_ofBinary32 _,
    Json.printable_ofList (fun _ => Json.printable_ofInt _) _, Json.printable_ofInt _⟩

end ModelQuantization

/-! ### Operators -/

namespace OperatorOptions

/-- The numbers among the options are real. -/
structure Finite (o : OperatorOptions) : Prop where
  alpha : o.alpha.isFinite = true
  beta : o.beta.isFinite = true
  bias : o.bias.isFinite = true

theorem nullable?_newShape (shape : Option (List Int32)) :
    Json.nullable? (Json.list? Json.int32?) (shape.elim .null (Json.ofList Json.ofInt32)) =
      some shape := by
  cases shape with
  | none => rfl
  | some dims =>
    show (Json.list? Json.int32? (Json.ofList Json.ofInt32 dims)).map some = some (some dims)
    rw [Json.list?_ofList Json.int32?_ofInt32, Option.map_some]

theorem recovers (o : OperatorOptions) : Recovers (ofJson? o.toJson) o o.Finite := by
  unfold toJson ofJson?
  refine Record.recovers_ofMembers (.refl _) (by decide +kernel) fun record h => ?_
  -- Every field but three is read back whatever it is.
  simp only [Option.bind_eq_bind, Option.bind_some, Option.pure_def,
    h.withDefault_eq (h.mem 0 rfl), h.withDefault_eq (h.mem 1 rfl),
    h.withDefault_eq (h.mem 2 rfl), h.withDefault_eq (h.mem 3 rfl),
    h.withDefault_eq (h.mem 4 rfl), h.withDefault_eq (h.mem 5 rfl),
    h.withDefault_eq (h.mem 6 rfl), h.withDefault_eq (h.mem 7 rfl),
    h.withDefault_eq (h.mem 8 rfl), h.withDefault_eq (h.mem 9 rfl),
    h.withDefault_eq (h.mem 10 rfl), h.withDefault_eq (h.mem 11 rfl),
    h.withDefault_eq (h.mem 12 rfl), h.withDefault_eq (h.mem 13 rfl),
    h.withDefault_eq (h.mem 14 rfl), h.withDefault_eq (h.mem 15 rfl),
    h.withDefault_eq (h.mem 16 rfl), h.withDefault_eq (h.mem 17 rfl),
    h.withDefault_eq (h.mem 18 rfl), h.withDefault_eq (h.mem 19 rfl),
    h.withDefault_eq (h.mem 20 rfl), h.withDefault_eq (h.mem 21 rfl),
    h.withDefault_eq (h.mem 22 rfl), h.withDefault_eq (h.mem 23 rfl),
    h.withDefault_eq (h.mem 24 rfl), h.withDefault_eq (h.mem 25 rfl),
    Json.choice?_ofChoice PaddingRule.ofName?_name,
    Json.choice?_ofChoice FusedActivation.ofName?_name,
    Json.choice?_ofChoice MirrorMode.ofName?_name, Json.uint32?_ofUInt32, Json.int32?_ofInt32,
    Json.list?_ofList Json.int32?_ofInt32, nullable?_newShape, Json.bool?]
  refine .congr (.bind (Json.recovers_binary32 _) <| .bind (Json.recovers_binary32 _) <|
    .bind (Json.recovers_binary32 _) (.of_eq_some rfl)) ?_
  exact ⟨fun ⟨halpha, hbeta, hbias, _⟩ => ⟨halpha, hbeta, hbias⟩,
    fun ⟨halpha, hbeta, hbias⟩ => ⟨halpha, hbeta, hbias, trivial⟩⟩

theorem printable_toJson (o : OperatorOptions) : o.toJson.Printable := by
  have hshape : (o.newShape.elim .null (Json.ofList Json.ofInt32)).Printable := by
    cases o.newShape with
    | none => exact .null
    | some dims => exact Json.printable_ofList (fun _ => Json.printable_ofInt _) dims
  apply Json.printable_ofMembers
  simp only [List.forall_mem_cons, Json.printable_ofChoice, Json.ofUInt32, Json.ofInt32,
    Json.printable_ofInt, Json.printable_ofBinary32, Json.Printable.bool, hshape, true_and]
  exact ⟨Json.printable_ofList (fun _ => Json.printable_ofInt _) _,
    fun member hmember => absurd hmember List.not_mem_nil⟩

end OperatorOptions

namespace ModelOperator

theorem recovers {op : ModelOperator} (h : op.code.Named) :
    Recovers (ofJson? op.toJson) op op.options.Finite := by
  unfold toJson ofJson?
  refine Record.recovers_ofMembers (.refl _) (by decide) fun record hrecord => ?_
  rw [hrecord.required_eq (hrecord.mem 0 rfl), hrecord.required_eq (hrecord.mem 1 rfl),
    hrecord.required_eq (hrecord.mem 2 rfl), hrecord.withDefault_eq (hrecord.mem 3 rfl),
    h.ofJson?_ofString, Json.list?_ofList Json.int32?_ofInt32,
    Json.list?_ofList Json.int32?_ofInt32]
  simp only [Option.bind_eq_bind, Option.bind_some]
  exact .congr (.bind op.options.recovers (.of_eq_some rfl)) (iff_of_eq (and_true _))

theorem printable_toJson (op : ModelOperator) : op.toJson.Printable := by
  apply Json.printable_ofMembers
  simp only [List.forall_mem_cons, List.not_mem_nil, false_imp_iff, implies_true, and_true]
  exact ⟨Json.printable_ofString _, Json.printable_ofList (fun _ => Json.printable_ofInt _) _,
    Json.printable_ofList (fun _ => Json.printable_ofInt _) _, op.options.printable_toJson⟩

/-- Operators that were read have codes that can be read. -/
theorem named_of_ofJson? {json : Json} {op : ModelOperator} (h : ofJson? json = some op) :
    op.code.Named := by
  simp only [ofJson?, Option.bind_eq_bind, Option.bind_eq_some_iff, Option.pure_def,
    Option.some.injEq] at h
  obtain ⟨record, -, code, hcode, inputs, -, outputs, -, options, -, rfl⟩ := h
  obtain ⟨value, -, hread⟩ := Option.bind_eq_some_iff.mp hcode
  exact OperatorCode.named_of_ofJson? hread

end ModelOperator

/-! ### Tensors -/

namespace ModelTensor

/-- Quantized tensors have real scales. -/
def Finite (t : ModelTensor) : Prop := ∀ q ∈ t.quantization, q.Finite

theorem recovers (t : ModelTensor) : Recovers (ofJson? t.toJson) t t.Finite := by
  unfold toJson ofJson?
  refine Record.recovers_ofMembers ?fields (by decide) fun record h => ?_
  case fields =>
    simp only [List.map_append, List.map_cons, List.map_nil, Json.map_fst_optionalMember]
    cases t.signature.isSome <;> cases t.data.isSome <;> cases t.quantization.isSome <;> decide
  have hsignature := h.recovers_optional "shape_signature" (Json.ofList Json.ofInt32) t.signature
    (fun member hmember => by simp [hmember])
    (fun hnone => by simp [Json.map_fst_optionalMember, hnone]) nofun
    fun dims => .of_eq_some (Json.list?_ofList Json.int32?_ofInt32 dims)
  have hdata := h.recovers_optional "data" (Json.ofList fun b : UInt8 => Json.ofInt b.toNat) t.data
    (fun member hmember => by simp [hmember])
    (fun hnone => by simp [Json.map_fst_optionalMember, hnone]) nofun
    fun bytes => .of_eq_some (Json.list?_ofList Json.uint8?_ofInt bytes)
  have hquantization := h.recovers_optional "quantization" ModelQuantization.toJson t.quantization
    (fun member hmember => by simp [hmember])
    (fun hnone => by simp [Json.map_fst_optionalMember, hnone]) nofun ModelQuantization.recovers
  have hname : record.required "name" Json.text? = (Json.ofString t.name).text? :=
    h.required_eq (by simp) _
  have hshape : record.required "shape" (Json.list? Json.int32?) =
      Json.list? Json.int32? (Json.ofList Json.ofInt32 t.shape) := h.required_eq (by simp) _
  have hstorage : record.required "type" Json.choice? =
      ((Json.ofChoice t.storage).choice? : Option StorageType) := h.required_eq (by simp) _
  rw [hname, hshape, hstorage, hsignature.some_of fun _ _ => trivial,
    hdata.some_of fun _ _ => trivial, Json.list?_ofList Json.int32?_ofInt32,
    Json.choice?_ofChoice StorageType.ofName?_name]
  simp only [Json.text?, Json.ofString, Option.bind_eq_bind, Option.bind_some]
  exact .congr (.bind hquantization (.of_eq_some rfl)) (iff_of_eq (and_true _))

theorem printable_toJson (t : ModelTensor) : t.toJson.Printable := by
  have hints (dims : List Int32) : (Json.ofList Json.ofInt32 dims).Printable :=
    Json.printable_ofList (fun _ => Json.printable_ofInt _) dims
  have hbytes (bytes : List UInt8) :
      (Json.ofList (fun b : UInt8 => Json.ofInt b.toNat) bytes).Printable :=
    Json.printable_ofList (fun _ => Json.printable_ofInt _) bytes
  apply Json.printable_ofMembers
  simp only [List.forall_mem_append, List.forall_mem_cons, List.not_mem_nil, false_imp_iff,
    implies_true, and_true]
  exact ⟨⟨⟨⟨⟨Json.printable_ofString _, hints _⟩, Json.printable_optionalMember hints⟩,
    Json.printable_ofChoice _⟩, Json.printable_optionalMember hbytes⟩,
    Json.printable_optionalMember ModelQuantization.printable_toJson⟩

end ModelTensor

/-! ### Models -/

namespace Model

/-- All the numbers in the model are real. -/
structure Finite (m : Model) : Prop where
  tensors : ∀ t ∈ m.tensors, t.Finite
  operators : ∀ op ∈ m.operators, op.options.Finite

theorem recovers {m : Model} (h : ∀ op ∈ m.operators, op.code.Named) :
    Recovers (ofJson? m.toJson) m m.Finite := by
  unfold toJson ofJson?
  refine Record.recovers_ofMembers (.refl _) (by decide) fun record hrecord => ?_
  have htensors := Json.recovers_list fun t (_ : t ∈ m.tensors) => t.recovers
  have hoperators := Json.recovers_list fun op hop => ModelOperator.recovers (h op hop)
  rw [hrecord.required_eq (hrecord.mem 0 rfl), hrecord.required_eq (hrecord.mem 1 rfl),
    hrecord.required_eq (hrecord.mem 2 rfl), hrecord.required_eq (hrecord.mem 3 rfl),
    Json.list?_ofList Json.int32?_ofInt32, Json.list?_ofList Json.int32?_ofInt32]
  refine .congr (.bind htensors <| .bind hoperators (.of_eq_some rfl)) ?_
  exact ⟨fun ⟨htensors, hoperators, _⟩ => ⟨htensors, hoperators⟩,
    fun ⟨htensors, hoperators⟩ => ⟨htensors, hoperators, trivial⟩⟩

theorem printable_toJson (m : Model) : m.toJson.Printable := by
  apply Json.printable_ofMembers
  simp only [List.forall_mem_cons, List.not_mem_nil, false_imp_iff, implies_true, and_true]
  exact ⟨Json.printable_ofList ModelTensor.printable_toJson _,
    Json.printable_ofList ModelOperator.printable_toJson _,
    Json.printable_ofList (fun _ => Json.printable_ofInt _) _,
    Json.printable_ofList (fun _ => Json.printable_ofInt _) _⟩

/-- Models that were read have operators that can be read. -/
theorem named_of_ofJson? {json : Json} {m : Model} (h : ofJson? json = some m) :
    ∀ op ∈ m.operators, op.code.Named := by
  simp only [ofJson?, Option.bind_eq_bind, Option.bind_eq_some_iff, Option.pure_def,
    Option.some.injEq] at h
  obtain ⟨record, -, tensors, -, operators, hoperators, inputs, -, outputs, -, rfl⟩ := h
  obtain ⟨value, -, hlist⟩ := Option.bind_eq_some_iff.mp hoperators
  intro op hop
  obtain ⟨item, hitem⟩ := Json.exists_of_list? hlist hop
  exact ModelOperator.named_of_ofJson? hitem

/-- A model that was read is read again from the text it is written as, unless a number in it is
    not real: then the text has no model. -/
theorem parse?_text {s : String} {m : Model} (h : parse? s = some m) :
    (m.Finite → parse? m.text = some m) ∧ (¬ m.Finite → parse? m.text = none) := by
  obtain ⟨json, -, hread⟩ := Option.bind_eq_some_iff.mp h
  have htext : parse? m.text = ofJson? m.toJson := by
    rw [parse?, text, Json.parse?_pretty m.printable_toJson, Option.bind_some]
  have hrecovers := recovers (named_of_ofJson? hread)
  rw [htext]
  exact ⟨hrecovers.some_of, hrecovers.none_of⟩

/-- A sum with a factor that is no real number. -/
def unboundedSum : ModelOperator :=
  { code := .add, inputs := [0, 0], outputs := [1], options := { beta := .infinity false } }

/-- A factor beyond single precision is read, but not from the text it is written as. -/
theorem parse?_text_unboundedSum :
    ∃ m, parse? "[[],[[\"ADD\",[0,0],[1],\x7b\"beta\":1e39\x7d]],[0],[1]]" = some m ∧
      ¬ m.Finite ∧ parse? m.text = none := by
  have hread : parse? "[[],[[\"ADD\",[0,0],[1],\x7b\"beta\":1e39\x7d]],[0],[1]]" =
      some ⟨[], [unboundedSum], [0], [1]⟩ := by
    decide +kernel
  have hfinite : ¬ Finite ⟨[], [unboundedSum], [0], [1]⟩ := fun h =>
    absurd (h.operators unboundedSum List.mem_cons_self).beta (by decide +kernel)
  exact ⟨_, hread, hfinite, (parse?_text hread).2 hfinite⟩

end Model

end LayerGraph
