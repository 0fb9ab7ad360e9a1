import LayerGraph.Container.Kinds
import LayerGraph.Proofs.Container.Parameters
import LayerGraph.Proofs.Tensor.DepthwiseLayout

/-! # Laws of the bodies of kinds

  A body is read by its tag, in one of a few ways (`BodyReader`). Main statements: the body of a
  storable kind is read as this kind (`takes_body`), and what is read from bytes of whatever origin
  is storable and has a body of the same size (`BodyReader.yields`).

  Old depthwise weights are the exception. They are moved while they are read, which keeps their
  size, but their scales stay at an axis that may have another size now. So the kind is storable
  only if its weights happen to be consistent (`yields_oldDepthwise`).
-/

namespace LayerGraph

/-! ### Storable kinds -/

namespace LayerKind

/-- A splitter has as many sizes as origins. -/
def EvenParts : LayerKind → Prop
  | splitter p => p.sizes.length = p.origins.length
  | _ => True

/-- The weights of a depthwise convolution are consistent. -/
def DepthwiseConsistent : LayerKind → Prop
  | depthwiseConvolution _ weights _ => weights.info.Consistent
  | _ => True

instance (kind : LayerKind) : Decidable kind.DepthwiseConsistent := by
  unfold DepthwiseConsistent
  split <;> infer_instance

/-- A kind whose body can be read back. -/
structure Storable (kind : LayerKind) : Prop where
  constants : ∀ t ∈ kind.constants, t.info.Consistent
  evenParts : kind.EvenParts

instance (kind : LayerKind) : Decidable kind.EvenParts := by
  unfold EvenParts
  split <;> infer_instance

instance (kind : LayerKind) : Decidable kind.Storable :=
  decidable_of_iff ((∀ t ∈ kind.constants, t.info.Consistent) ∧ kind.EvenParts)
    ⟨fun h => ⟨h.1, h.2⟩, fun h => ⟨h.constants, h.evenParts⟩⟩

/-- The body of the kind has so many bytes. -/
def BodyFits (kind : LayerKind) (n : Nat) : Prop :=
  ∃ bytes, kind.writeBody = .ok bytes ∧ bytes.length = n

end LayerKind

namespace Codec

variable {α : Type} {size : Nat}

theorem weighted_lawful {params : Codec α} (h : params.Plain size) :
    (weighted params).Lawful
      (fun (_, weights, biases) => weights.info.Consistent ∧ ∀ t ∈ biases, t.info.Consistent)
      (size + 24) :=
  (Lawful.seq h (constant_lawful.seq constant_lawful.optional)).congr fun _ => by simp

theorem statistics_lawful :
    statistics.Lawful (fun (_, m, v, b, g) => m.info.Consistent ∧ v.info.Consistent ∧
      b.info.Consistent ∧ g.info.Consistent) 97 :=
  (Lawful.seq batchNormalization_plain (constant_lawful.seq (constant_lawful.seq
    (constant_lawful.seq constant_lawful)))).congr fun _ => by simp

theorem weighted_strict {params : Codec α} (h : params.Plain size) :
    (weighted params).Strict
      (fun (_, weights, biases) => weights.info.Scaled ∧ ∀ t ∈ biases, t.info.Scaled)
      (fun (_, weights, biases) => weights.info.Consistent ∧ ∀ t ∈ biases, t.info.Consistent) :=
  (Strict.seq h (Plain.strict)
    (Strict.seq constant_lawful constant_strict constant_strict.optional)).congr
    (fun _ => by simp) (fun _ => by simp)

theorem statistics_strict : statistics.Strict
    (fun (_, m, v, b, g) => m.info.Scaled ∧ v.info.Scaled ∧ b.info.Scaled ∧ g.info.Scaled)
    (fun (_, m, v, b, g) => m.info.Consistent ∧ v.info.Consistent ∧ b.info.Consistent ∧
      g.info.Consistent) :=
  (Strict.seq batchNormalization_plain (Plain.strict)
    (Strict.seq constant_lawful constant_strict (Strict.seq constant_lawful constant_strict
      (Strict.seq constant_lawful constant_strict constant_strict)))).congr
    (fun _ => by simp) (fun _ => by simp)

end Codec

open Codec

variable {α : Type} {size n : Nat} {firstInput : Option TensorInfo} {bytes : List UInt8}

/-! ### From kinds to bodies -/

theorem takes_params {c : Codec α} {good : α → Prop} (h : c.Lawful good size) {a : α} (ha : good a)
    (hwrite : c.write a = .ok bytes) (kind : α → LayerKind) :
    (readParams c kind).Takes bytes (kind a) := (h.takes ha hwrite).map

theorem takes_weighted {params : Codec α} (h : params.Plain size) {p : α} {weights : Constant}
    {biases : Option Constant} (kind : α → Constant → Option Constant → LayerKind)
    (hconstants : ∀ t ∈ weights :: biases.toList, t.info.Consistent)
    (hwrite : (weighted params).write (p, weights, biases) = .ok bytes) :
    (readWeighted params kind).Takes bytes (kind p weights biases) := by
  obtain ⟨hweights, hbiases⟩ := List.forall_mem_cons.mp hconstants
  exact ((weighted_lawful h).takes ⟨hweights, by simpa using hbiases⟩ hwrite).map

theorem takes_depthwise {p : ConvolutionParams} {weights : Constant} {biases : Option Constant}
    (hconstants : ∀ t ∈ weights :: biases.toList, t.info.Consistent)
    (hwrite : (weighted convolution).write (p, weights, biases) = .ok bytes) :
    (readDepthwise false firstInput).Takes bytes (.depthwiseConvolution p weights biases) := by
  obtain ⟨hweights, hbiases⟩ := List.forall_mem_cons.mp hconstants
  obtain ⟨xs, rest, hxs, hrest, rfl⟩ := seq_write_eq_ok_iff.mp hwrite
  obtain ⟨ys, zs, hys, hzs, rfl⟩ := seq_write_eq_ok_iff.mp hrest
  refine (convolution_plain.takes trivial hxs).bind ?_
  refine (constant_lawful.takes hweights hys).bind ?_
  exact (constant_lawful.optional.takes (by simpa using hbiases) hzs).map

/-- The body of a storable kind is read by its tag as this kind. -/
theorem takes_body {kind : LayerKind} (hkind : kind.Storable)
    (hwrite : kind.writeBody = .ok bytes) (firstInput : Option TensorInfo) :
    ∃ body, readBody? false firstInput kind.tag = some body ∧ body.Takes bytes kind := by
  have hconstants := hkind.constants
  -- What stands behind the tag restricts constants and the parts of a splitter only.
  cases kind with
  | input b => exact ⟨_, rfl, takes_params int32_plain trivial hwrite .input⟩
  | output b => exact ⟨_, rfl, takes_params int32_plain trivial hwrite .output⟩
  | activation p => exact ⟨_, rfl, takes_params activation_plain trivial hwrite .activation⟩
  | argMinMax p => exact ⟨_, rfl, takes_params argMinMax_plain trivial hwrite .argMinMax⟩
  | batchNormalization p m v b g =>
    have hgood : m.info.Consistent ∧ v.info.Consistent ∧ b.info.Consistent ∧ g.info.Consistent := by
      simpa [LayerKind.constants] using hconstants
    exact ⟨_, rfl, takes_params statistics_lawful hgood hwrite
      fun (p, m, v, b, g) => .batchNormalization p m v b g⟩
  | batchToSpace p => exact ⟨_, rfl, takes_params blockBatch_plain trivial hwrite .batchToSpace⟩
  | comparison op => exact ⟨_, rfl, takes_params choice_plain trivial hwrite .comparison⟩
  | concat p => exact ⟨_, rfl, takes_params concat_plain trivial hwrite .concat⟩
  | constant t =>
    exact ⟨_, rfl, takes_params constant_lawful (hconstants t (by simp [LayerKind.constants]))
      hwrite .constant⟩
  | convolution p w b =>
    exact ⟨_, rfl, takes_weighted convolution_plain .convolution hconstants hwrite⟩
  | depthToSpace p => exact ⟨_, rfl, takes_params blockDepth_plain trivial hwrite .depthToSpace⟩
  | depthwiseConvolution p w b => exact ⟨_, rfl, takes_depthwise hconstants hwrite⟩
  | elementwiseUnary op =>
    exact ⟨_, rfl, takes_params choice_plain trivial hwrite .elementwiseUnary⟩
  | fill value => exact ⟨_, rfl, takes_params binary32_plain trivial hwrite .fill⟩
  | fullyConnected p w b =>
    exact ⟨_, rfl, takes_weighted fullyConnected_plain .fullyConnected hconstants hwrite⟩
  | gather axis => exact ⟨_, rfl, takes_params int32_plain trivial hwrite .gather⟩
  | instanceNormalization p =>
    exact ⟨_, rfl, takes_params instanceNormalization_plain trivial hwrite .instanceNormalization⟩
  | l2Normalization p =>
    exact ⟨_, rfl, takes_params l2Normalization_plain trivial hwrite .l2Normalization⟩
  | logicalBinary op => exact ⟨_, rfl, takes_params choice_plain trivial hwrite .logicalBinary⟩
  | logSoftmax p => exact ⟨_, rfl, takes_params softmax_plain trivial hwrite .logSoftmax⟩
  | mean p => exact ⟨_, rfl, takes_params mean_plain trivial hwrite .mean⟩
  | normalization p =>
    exact ⟨_, rfl, takes_params normalization_plain trivial hwrite .normalization⟩
  | pad p => exact ⟨_, rfl, takes_params pad_plain trivial hwrite .pad⟩
  | permute p => exact ⟨_, rfl, takes_params permutation_plain trivial hwrite .permute⟩
  | pooling p => exact ⟨_, rfl, takes_params pooling_plain trivial hwrite .pooling⟩
  | reduce p => exact ⟨_, rfl, takes_params reduce_plain trivial hwrite .reduce⟩
  | reshape target => exact ⟨_, rfl, takes_params uint32s_plain trivial hwrite .reshape⟩
  | resize p => exact ⟨_, rfl, takes_params resize_plain trivial hwrite .resize⟩
  | slice p => exact ⟨_, rfl, takes_params slice_plain trivial hwrite .slice⟩
  | softmax p => exact ⟨_, rfl, takes_params softmax_plain trivial hwrite .softmax⟩
  | spaceToBatch p => exact ⟨_, rfl, takes_params blockBatch_plain trivial hwrite .spaceToBatch⟩
  | spaceToDepth p => exact ⟨_, rfl, takes_params blockDepth_plain trivial hwrite .spaceToDepth⟩
  | splitter p => exact ⟨_, rfl, takes_params splitter_lawful hkind.evenParts hwrite .splitter⟩
  | stack p => exact ⟨_, rfl, takes_params stack_plain trivial hwrite .stack⟩
  | standIn p => exact ⟨_, rfl, takes_params standIn_plain trivial hwrite .standIn⟩
  | stridedSlice p => exact ⟨_, rfl, takes_params stridedSlice_plain trivial hwrite .stridedSlice⟩
  | transpose p => exact ⟨_, rfl, takes_params permutation_plain trivial hwrite .transpose⟩
  | transposeConvolution p w b =>
    exact ⟨_, rfl,
      takes_weighted transposeConvolution_plain .transposeConvolution hconstants hwrite⟩
  | addition | cast | dequantize | division | floor | maximum | minimum | multiplication | prelu
  | quantize | rank | subtraction =>
    cases hwrite
    exact ⟨_, rfl, Read.Takes.pure⟩

/-! ### Bodies that are refused -/

theorem refuses_params {c : Codec α} {fair good : α → Prop} (h : c.Strict fair good) {a : α}
    (hfair : fair a) (hbad : ¬ good a) (hwrite : c.write a = .ok bytes) (kind : α → LayerKind) :
    (readParams c kind).Refuses bytes := (h hfair hbad hwrite).bind

theorem refuses_weighted {params : Codec α} (h : params.Plain size) {p : α} {weights : Constant}
    {biases : Option Constant} (kind : α → Constant → Option Constant → LayerKind)
    (hfair : ∀ t ∈ weights :: biases.toList, t.info.Scaled)
    (hbad : ¬ ∀ t ∈ weights :: biases.toList, t.info.Consistent)
    (hwrite : (weighted params).write (p, weights, biases) = .ok bytes) :
    (readWeighted params kind).Refuses bytes := by
  rw [List.forall_mem_cons] at hfair hbad
  exact (weighted_strict h (by simpa using hfair) (by simpa using hbad) hwrite).bind

theorem refuses_depthwise {p : ConvolutionParams} {weights : Constant} {biases : Option Constant}
    (hfair : ∀ t ∈ weights :: biases.toList, t.info.Scaled)
    (hbad : ¬ ∀ t ∈ weights :: biases.toList, t.info.Consistent)
    (hwrite : (weighted convolution).write (p, weights, biases) = .ok bytes) :
    (readDepthwise false firstInput).Refuses bytes := by
  rw [List.forall_mem_cons] at hfair hbad
  obtain ⟨xs, rest, hxs, hrest, rfl⟩ := seq_write_eq_ok_iff.mp hwrite
  obtain ⟨ys, zs, hys, hzs, rfl⟩ := seq_write_eq_ok_iff.mp hrest
  refine (convolution_plain.takes trivial hxs).bind_refuses ?_
  by_cases hweights : weights.info.Consistent
  · refine (constant_lawful.takes hweights hys).bind_refuses ?_
    have hbiases : ¬ ∀ t ∈ biases, t.info.Consistent := by simpa [hweights] using hbad
    exact (constant_strict.optional (by simpa using hfair.2) hbiases hzs).bind
  · exact (constant_strict hfair.1 hweights hys).bind.append

/-- The body of a kind with a constant that is not consistent is refused. -/
theorem refuses_body {kind : LayerKind} (hfair : ∀ t ∈ kind.constants, t.info.Scaled)
    (hbad : ¬ ∀ t ∈ kind.constants, t.info.Consistent) (hwrite : kind.writeBody = .ok bytes)
    (firstInput : Option TensorInfo) :
    ∃ body, readBody? false firstInput kind.tag = some body ∧ body.Refuses bytes := by
  cases kind with
  | batchNormalization p m v b g =>
    exact ⟨_, rfl, refuses_params statistics_strict (by simpa [LayerKind.constants] using hfair)
      (by simpa [LayerKind.constants] using hbad) hwrite
      fun (p, m, v, b, g) => .batchNormalization p m v b g⟩
  | constant t =>
    exact ⟨_, rfl, refuses_params constant_strict (hfair t (by simp [LayerKind.constants]))
      (by simpa [LayerKind.constants] using hbad) hwrite .constant⟩
  | convolution p w b =>
    exact ⟨_, rfl, refuses_weighted convolution_plain .convolution hfair hbad hwrite⟩
  | depthwiseConvolution p w b => exact ⟨_, rfl, refuses_depthwise hfair hbad hwrite⟩
  | fullyConnected p w b =>
    exact ⟨_, rfl, refuses_weighted fullyConnected_plain .fullyConnected hfair hbad hwrite⟩
  | transposeConvolution p w b =>
    exact ⟨_, rfl, refuses_weighted transposeConvolution_plain .transposeConvolution hfair hbad
      hwrite⟩
  | _ => exact absurd (by simp [LayerKind.constants]) hbad

/-! ### How bodies are read -/

/-- The ways in which a body is read: it is empty, has only parameters, has weights behind them, or
    is that of a depthwise convolution. -/
inductive BodyReader (oldLayout : Bool) (firstInput : Option TensorInfo) : Read LayerKind → Prop
  | empty {kind : LayerKind}
      (hkind : kind.constants = [] ∧ kind.EvenParts ∧ kind.writeBody = .ok []) :
      BodyReader oldLayout firstInput (pure kind)
  | params {α : Type} {size : Nat} {c : Codec α} {good : α → Prop} (h : c.Lawful good size)
      {kind : α → LayerKind} (hkind : ∀ a, good a → (kind a).Storable)
      (hwrite : ∀ a, (kind a).writeBody = c.write a) :
      BodyReader oldLayout firstInput (readParams c kind)
  | weighted {α : Type} {size : Nat} {params : Codec α} (h : params.Plain size)
      {kind : α → Constant → Option Constant → LayerKind}
      (hkind : ∀ p w b, (kind p w b).constants = w :: b.toList ∧ (kind p w b).EvenParts ∧
        (kind p w b).writeBody = (Codec.weighted params).write (p, w, b)) :
      BodyReader oldLayout firstInput (readWeighted params kind)
  | depthwise : BodyReader oldLayout firstInput (readDepthwise oldLayout firstInput)

variable {oldLayout : Bool} {body : Read LayerKind}

/-- Kinds without constants and without parts. -/
theorem BodyReader.plain {c : Codec α} (h : c.Plain size) {kind : α → LayerKind}
    (hkind : ∀ a, (kind a).constants = [] ∧ (kind a).EvenParts ∧
      (kind a).writeBody = c.write a) : BodyReader oldLayout firstInput (readParams c kind) :=
  .params h (fun a _ => ⟨by simp [(hkind a).1], (hkind a).2.1⟩) fun a => (hkind a).2.2

/-- What stands behind a tag is read in one of these ways. -/
theorem bodyReader_of_tag {tag : UInt16}
    (hbody : readBody? oldLayout firstInput tag = some body) :
    BodyReader oldLayout firstInput body := by
  -- One case for each tag, in the order of the tags.
  unfold readBody? at hbody
  split at hbody
  all_goals cases hbody
  · exact .plain int32_plain fun _ => ⟨rfl, trivial, rfl⟩
  · exact .plain int32_plain fun _ => ⟨rfl, trivial, rfl⟩
  · exact .plain activation_plain fun _ => ⟨rfl, trivial, rfl⟩
  · exact .empty ⟨rfl, trivial, rfl⟩
  · exact .plain argMinMax_plain fun _ => ⟨rfl, trivial, rfl⟩
  · refine .params statistics_lawful ?_ (fun _ => rfl)
    rintro ⟨p, m, v, b, g⟩ h
    exact ⟨by simpa [LayerKind.constants] using h, trivial⟩
  · exact .plain blockBatch_plain fun _ => ⟨rfl, trivial, rfl⟩
  · exact .empty ⟨rfl, trivial, rfl⟩
  · exact .plain choice_plain fun _ => ⟨rfl, trivial, rfl⟩
  · exact .plain concat_plain fun _ => ⟨rfl, trivial, rfl⟩
  · refine .params constant_lawful (fun t ht => ⟨?_, trivial⟩) (fun _ => rfl)
    simpa [LayerKind.constants] using ht
  · exact .weighted convolution_plain fun _ _ _ => ⟨rfl, trivial, rfl⟩
  · exact .plain blockDepth_plain fun _ => ⟨rfl, trivial, rfl⟩
  · exact .depthwise
  · exact .empty ⟨rfl, trivial, rfl⟩
  · exact .empty ⟨rfl, trivial, rfl⟩
  · exact .plain choice_plain fun _ => ⟨rfl, trivial, rfl⟩
  · exact .plain binary32_plain fun _ => ⟨rfl, trivial, rfl⟩
  · exact .empty ⟨rfl, trivial, rfl⟩
  · exact .weighted fullyConnected_plain fun _ _ _ => ⟨rfl, trivial, rfl⟩
  · exact .plain int32_plain fun _ => ⟨rfl, trivial, rfl⟩
  · exact .plain instanceNormalization_plain fun _ => ⟨rfl, trivial, rfl⟩
  · exact .plain l2Normalization_plain fun _ => ⟨rfl, trivial, rfl⟩
  · exact .plain choice_plain fun _ => ⟨rfl, trivial, rfl⟩
  · exact .plain softmax_plain fun _ => ⟨rfl, trivial, rfl⟩
  · exact .empty ⟨rfl, trivial, rfl⟩
  · exact .plain mean_plain fun _ => ⟨rfl, trivial, rfl⟩
  · exact .empty ⟨rfl, trivial, rfl⟩
  · exact .empty ⟨rfl, trivial, rfl⟩
  · exact .plain normalization_plain fun _ => ⟨rfl, trivial, rfl⟩
  · exact .plain pad_plain fun _ => ⟨rfl, trivial, rfl⟩
  · exact .plain permutation_plain fun _ => ⟨rfl, trivial, rfl⟩
  · exact .plain pooling_plain fun _ => ⟨rfl, trivial, rfl⟩
  · exact .empty ⟨rfl, trivial, rfl⟩
  · exact .empty ⟨rfl, trivial, rfl⟩
  · exact .empty ⟨rfl, trivial, rfl⟩
  · exact .plain reduce_plain fun _ => ⟨rfl, trivial, rfl⟩
  · exact .plain uint32s_plain fun _ => ⟨rfl, trivial, rfl⟩
  · exact .plain resize_plain fun _ => ⟨rfl, trivial, rfl⟩
  · exact .plain slice_plain fun _ => ⟨rfl, trivial, rfl⟩
  · exact .plain softmax_plain fun _ => ⟨rfl, trivial, rfl⟩
  · exact .plain blockBatch_plain fun _ => ⟨rfl, trivial, rfl⟩
  · exact .plain blockDepth_plain fun _ => ⟨rfl, trivial, rfl⟩
  · exact .params splitter_lawful (fun p hp => ⟨nofun, hp⟩) (fun _ => rfl)
  · exact .plain stack_plain fun _ => ⟨rfl, trivial, rfl⟩
  · exact .plain standIn_plain fun _ => ⟨rfl, trivial, rfl⟩
  · exact .plain stridedSlice_plain fun _ => ⟨rfl, trivial, rfl⟩
  · exact .empty ⟨rfl, trivial, rfl⟩
  · exact .plain permutation_plain fun _ => ⟨rfl, trivial, rfl⟩
  · exact .weighted transposeConvolution_plain fun _ _ _ => ⟨rfl, trivial, rfl⟩

/-! ### From bodies to kinds -/

/-- A kind that is storable and has a body of so many bytes. -/
def LayerKind.StoredIn (kind : LayerKind) (n : Nat) : Prop := kind.Storable ∧ kind.BodyFits n

theorem yields_params {c : Codec α} {good : α → Prop} (h : c.Lawful good size)
    {kind : α → LayerKind} (hkind : ∀ a, good a → (kind a).Storable)
    (hwrite : ∀ a, (kind a).writeBody = c.write a) :
    (readParams c kind).Yields LayerKind.StoredIn := by
  refine Read.Yields.map (h.yields.mono ?_)
  rintro a n ⟨ha, hfits⟩
  refine ⟨hkind a ha, ?_⟩
  rw [LayerKind.BodyFits, hwrite]
  exact hfits

theorem yields_weighted {params : Codec α} (h : params.Plain size)
    {kind : α → Constant → Option Constant → LayerKind}
    (hkind : ∀ p w b, (kind p w b).constants = w :: b.toList ∧ (kind p w b).EvenParts ∧
      (kind p w b).writeBody = (weighted params).write (p, w, b)) :
    (readWeighted params kind).Yields LayerKind.StoredIn := by
  refine Read.Yields.map ((weighted_lawful h).yields.mono ?_)
  rintro ⟨p, w, b⟩ n ⟨⟨hw, hb⟩, hfits⟩
  obtain ⟨hconstants, hparts, hwrite⟩ := hkind p w b
  refine ⟨⟨?_, hparts⟩, ?_⟩
  · rw [hconstants, List.forall_mem_cons]
    exact ⟨hw, by simpa using hb⟩
  · rw [LayerKind.BodyFits, hwrite]
    exact hfits

theorem yields_depthwise :
    (readDepthwise false firstInput).Yields LayerKind.StoredIn := by
  refine convolution_plain.yields.bind ?_
  rintro p i ⟨-, hp⟩
  refine constant_lawful.yields.bind ?_
  rintro w j ⟨hw, hwfits⟩
  refine Read.Yields.map (constant_lawful.optional.yields.mono ?_)
  rintro b k ⟨hb, hbfits⟩
  refine ⟨⟨?_, trivial⟩, ?_⟩
  · rw [LayerKind.constants, List.forall_mem_cons]
    exact ⟨hw, by simpa using hb⟩
  · exact seq_fits_iff.mpr ⟨_, _, hp, seq_fits_iff.mpr ⟨_, _, hwfits, hbfits, rfl⟩, rfl⟩

/-! ### Old depthwise weights -/

/-- A kind that was read from a body of so many bytes. -/
structure LayerKind.LoadedIn (oldLayout : Bool) (kind : LayerKind) (n : Nat) : Prop where
  scaled : ∀ t ∈ kind.constants, t.info.Scaled
  evenParts : kind.EvenParts
  /-- Only depthwise weights in the old layout may end up with scales that do not agree. -/
  consistent : kind.DepthwiseConsistent ∨ oldLayout = false →
    ∀ t ∈ kind.constants, t.info.Consistent
  body : kind.BodyFits n

theorem LayerKind.StoredIn.loadedIn {kind : LayerKind} (h : kind.StoredIn n) (oldLayout : Bool) :
    kind.LoadedIn oldLayout n where
  scaled t ht := (h.1.constants t ht).scaled
  evenParts := h.1.evenParts
  consistent _ := h.1.constants
  body := h.2

/-- Moved weights have as many bytes as before. -/
theorem fits_depthwiseToMihw {stored weights : Constant} {channels : UInt32}
    (hmove : stored.depthwiseToMihw channels = .ok weights) (hfits : constant.Fits stored n) :
    constant.Fits weights n := by
  obtain ⟨rows, columns, c, hshape, hinfo, hlength⟩ := Constant.depthwiseToMihw_eq_ok hmove
  obtain ⟨head, hhead, hcount, rfl⟩ := constant_fits_iff.mp hfits
  have htype : weights.elementType = stored.elementType := by
    rw [Constant.elementType, hinfo]
    rfl
  have hparts := info_fits_iff.mp hhead
  rw [hshape] at hparts
  refine constant_fits_iff.mpr ⟨head, ?_, ?_, by rw [hlength]⟩
  · rw [hinfo, info_fits_iff]
    exact hparts
  · rw [Constant.cellCount, hlength, htype]
    exact hcount

/-- Moved weights have the scales that they had before. -/
theorem scaled_depthwiseToMihw {stored weights : Constant} {channels : UInt32}
    (hmove : stored.depthwiseToMihw channels = .ok weights) (h : stored.info.Consistent) :
    weights.info.Scaled := by
  obtain ⟨rows, columns, c, -, hinfo, -⟩ := Constant.depthwiseToMihw_eq_ok hmove
  rw [hinfo]
  exact h.scaled

theorem yields_oldDepthwise : (readDepthwise true firstInput).Yields (LayerKind.LoadedIn true) := by
  have hweights (layout : DataLayout) : (readOldDepthwiseWeights layout firstInput).Yields
      fun weights n => weights.info.Scaled ∧ constant.Fits weights n := by
    refine Read.Yields.offset fun start => constant_lawful.yields.bind ?_
    rintro stored n ⟨hstored, hfits⟩
    split
    · split
      · next weights hmove =>
        exact .pure ⟨scaled_depthwiseToMihw hmove hstored, fits_depthwiseToMihw hmove hfits⟩
      · exact .refuse
    · exact .refuse
  refine convolution_plain.yields.bind ?_
  rintro p i ⟨-, hp⟩
  refine (hweights p.layout).bind ?_
  rintro w j ⟨hscaled, hwfits⟩
  refine Read.Yields.map (constant_lawful.optional.yields.mono ?_)
  rintro b k ⟨hb, hbfits⟩
  have hbiases : ∀ t ∈ b.toList, t.info.Consistent := by simpa using hb
  refine ⟨?_, trivial, ?_, ?_⟩
  · exact List.forall_mem_cons.mpr ⟨hscaled, fun t ht => (hbiases t ht).scaled⟩
  · -- The scales of moved weights may disagree with their shape, which this layout allows.
    rintro (hw | hold)
    · exact List.forall_mem_cons.mpr ⟨hw, hbiases⟩
    · cases hold
  · exact seq_fits_iff.mpr ⟨_, _, hp, seq_fits_iff.mpr ⟨_, _, hwfits, hbfits, rfl⟩, rfl⟩

/-- What is read in one of the ways has a body of the same size. -/
theorem BodyReader.yields (h : BodyReader oldLayout firstInput body) :
    body.Yields (LayerKind.LoadedIn oldLayout) := by
  have hnew {body : Read LayerKind} (h : body.Yields LayerKind.StoredIn) :
      body.Yields (LayerKind.LoadedIn oldLayout) := h.mono fun _ _ h => h.loadedIn oldLayout
  cases h with
  | empty hkind =>
    exact hnew (.pure ⟨⟨by simp [hkind.1], hkind.2.1⟩, [], hkind.2.2, rfl⟩)
  | params h hkind hwrite => exact hnew (yields_params h hkind hwrite)
  | weighted h hkind => exact hnew (yields_weighted h hkind)
  | depthwise =>
    cases oldLayout with
    | false => exact hnew yields_depthwise
    | true => exact yields_oldDepthwise

/-! ### Places in bodies, and bytes behind them -/

theorem stays_oldWeights (layout : DataLayout) (firstInput : Option TensorInfo)
    (bytes : List UInt8) :
    (readOldDepthwiseWeights layout firstInput).StaysIn bytes fun _ => True := by
  refine Read.StaysIn.offset fun start hstart => (constant_lawful.stays bytes).bind fun _ _ => ?_
  split
  · split
    · exact .pure trivial
    · exact .refuse hstart
  · exact .refuse hstart

theorem stays_depthwise (oldLayout : Bool) (firstInput : Option TensorInfo) (bytes : List UInt8) :
    (readDepthwise oldLayout firstInput).StaysIn bytes fun _ => True := by
  refine (convolution_plain.stays bytes).bind fun p _ => ?_
  have hbiases (w : Constant) := (constant_lawful.optional.stays bytes).map
    (f := fun b => LayerKind.depthwiseConvolution p w b) (q := fun _ => True)
  cases oldLayout with
  | false => exact (constant_lawful.stays bytes).bind fun w _ => hbiases w
  | true => exact (stays_oldWeights p.layout firstInput bytes).bind fun w _ => hbiases w

/-- However a body is read, no place outside the bytes is come to. -/
theorem BodyReader.stays (h : BodyReader oldLayout firstInput body) (bytes : List UInt8) :
    body.StaysIn bytes fun _ => True := by
  cases h with
  | empty => exact .pure trivial
  | params h => exact (h.stays bytes).map
  | weighted h => exact ((weighted_lawful h).stays bytes).map
  | depthwise => exact stays_depthwise oldLayout firstInput bytes

theorem steady_depthwise (oldLayout : Bool) (firstInput : Option TensorInfo) :
    (readDepthwise oldLayout firstInput).Steady := by
  refine convolution_plain.steady.bind fun p => ?_
  have hbiases (w : Constant) := constant_lawful.optional.steady.map
    (f := fun b => LayerKind.depthwiseConvolution p w b)
  cases oldLayout with
  | false => exact constant_lawful.steady.bind fun w => hbiases w
  | true =>
    have hweights : (readOldDepthwiseWeights p.layout firstInput).Steady := by
      refine Read.Steady.offset fun start => constant_lawful.steady.bind fun stored => ?_
      split
      · split
        · exact .pure
        · exact .refuse
      · exact .refuse
    exact hweights.bind fun w => hbiases w

/-- However a body is read, bytes behind it do not matter. -/
theorem BodyReader.steady (h : BodyReader oldLayout firstInput body) : body.Steady := by
  cases h with
  | empty => exact .pure
  | params h => exact h.steady.map
  | weighted h => exact (weighted_lawful h).steady.map
  | depthwise => exact steady_depthwise oldLayout firstInput

/-! ### Bodies at another place -/

theorem parallel_depthwise (oldLayout : Bool) (firstInput : Option TensorInfo) :
    Read.Parallel Eq (readDepthwise oldLayout firstInput) (readDepthwise oldLayout firstInput) := by
  refine convolution_plain.parallel.bind_eq fun p => ?_
  have hbiases (w : Constant) := constant_lawful.optional.parallel.map
    (f := fun b => LayerKind.depthwiseConvolution p w b)
  cases oldLayout with
  | false => exact constant_lawful.parallel.bind_eq fun w => hbiases w
  | true =>
    have hweights : Read.Parallel Eq (readOldDepthwiseWeights p.layout firstInput)
        (readOldDepthwiseWeights p.layout firstInput) := by
      refine Read.Parallel.offset fun start start' => ?_
      refine constant_lawful.parallel.bind_eq fun stored => ?_
      cases inputChannels? p.layout firstInput with
      | none => exact .refuse
      | some channels =>
        dsimp only
        cases stored.depthwiseToMihw channels with
        | ok weights => exact .pure rfl
        | error cause => exact .refuse
    exact hweights.bind_eq fun w => hbiases w

/-- However a body is read, its place does not matter. -/
theorem BodyReader.parallel (h : BodyReader oldLayout firstInput body) :
    Read.Parallel Eq body body := by
  cases h with
  | empty => exact .pure rfl
  | params h => exact h.parallel.map
  | weighted h => exact (weighted_lawful h).parallel.map
  | depthwise => exact parallel_depthwise oldLayout firstInput

end LayerGraph
