import LayerGraph.Proofs.Outcome
import LayerGraph.Quantize.Counterpart

/-! # Quantized kinds

  The counterpart of a layer has the same operation with the same parameters. Only the constants
  that the layer owns are stored in another way, each over the range of its own values, and a bias
  at the scale of the products that it is added to (`QuantizedKind`). So the counterpart has the
  slots of the layer.

  A kind or a constant may be refused, for one of the reasons of `QuantizationError.Refusal`, and
  the program may stop where a constant is stored (`Quantizer.Setting.Fails`).
-/

namespace LayerGraph

/-- The reasons that lie in what is quantized: a kind without a quantized form, a range or a scale
    that is no use, or a constant. The others say that a graph was not what it should be. -/
inductive QuantizationError.Refusal : QuantizationError → Prop
  | unimplemented (layer : LayerGuid) (name kind : String) :
      Refusal (.unimplemented layer name kind)
  | missingRange (layer : LayerGuid) (slot : Nat) : Refusal (.missingRange layer slot)
  | invalidRange (min max : Binary32) : Refusal (.invalidRange min max)
  | invalidBiasScale (inputScale weightScale : Binary32) :
      Refusal (.invalidBiasScale inputScale weightScale)
  | tensor (cause : TensorError) : Refusal (.tensor cause)

/-- The program stops, and no error is returned. -/
def QuantizationError.Stops (e : QuantizationError) : Prop := ∃ operation, e = .overflow operation

/-- How quantizing fails: something is refused, or the program stops where a constant of the graph
    is stored. -/
inductive Quantizer.Setting.Fails (s : Quantizer.Setting) (e : QuantizationError) : Prop
  | refused (h : e.Refusal)
  | stopped (h : e.Stops) {l : Layer} {t : Constant} (hl : l ∈ s.graph.layers)
      (ht : t ∈ l.kind.constants) (hstored : s.options.scheme.quantizeConstant t = .error e)

/-- The computation gives an answer with the property `post`, or fails as quantizing does. -/
abbrev Settles {α : Type} (s : Quantizer.Setting) (post : α → Prop)
    (x : Except QuantizationError α) : Prop :=
  Except.Ends s.Fails post x

variable {s : Quantizer.Setting}

/-! ### Constants -/

theorem settles_tensor {α : Type} (x : Except TensorError α) :
    Settles s (fun _ => True) (x.mapError QuantizationError.tensor) :=
  Except.Ends.mapError (fun cause => .refused (.tensor cause)) fun _ _ => trivial

theorem settles_compute (scheme : Scheme) (min max : Binary64) :
    Settles s (fun _ => True) (scheme.compute min max) := by
  unfold Scheme.compute
  split
  · exact .ok trivial
  · exact .error (.refused (.invalidRange _ _))

/-- Only a sum that does not fit stops the storing of a constant. -/
theorem refusal_of_quantizeConstant {scheme : Scheme} {t : Constant} {e : QuantizationError}
    (h : scheme.quantizeConstant t = .error e) :
    e.Refusal ∨ e.Stops := by
  have htensor {α : Type} {x : Except TensorError α} (hx : x.mapError .tensor = .error e) :
      e.Refusal := by
    obtain ⟨cause, -, rfl⟩ := Except.mapError_eq_error_iff.mp hx
    exact .tensor cause
  unfold Scheme.quantizeConstant at h
  split at h
  · obtain h | ⟨values, -, h⟩ := Except.bind_eq_error_iff.mp h
    · exact .inl (htensor h)
    obtain h | ⟨extent, -, h⟩ := Except.bind_eq_error_iff.mp h
    · exact .inl (htensor h)
    obtain h | ⟨parameters, -, h⟩ := Except.bind_eq_error_iff.mp h
    · unfold Scheme.compute at h
      split at h
      · cases h
      · cases h
        exact .inl (.invalidRange _ _)
    obtain h | ⟨stored, -, h⟩ := Except.bind_eq_error_iff.mp h
    · obtain ⟨operation, -, rfl⟩ := Except.mapError_eq_error_iff.mp h
      exact .inr ⟨operation, rfl⟩
    · exact .inl (htensor h)
  · cases h

theorem settles_quantizeConstant {l : Layer} {t : Constant} (hl : l ∈ s.graph.layers)
    (ht : t ∈ l.kind.constants) :
    Settles s (fun _ => True) (s.options.scheme.quantizeConstant t) := by
  cases h : s.options.scheme.quantizeConstant t with
  | ok t' => exact .ok trivial
  | error e =>
    obtain hrefused | hstops := refusal_of_quantizeConstant h
    · exact .error (.refused hrefused)
    · exact .error (.stopped hstops hl ht h)

theorem settles_quantizeBias (bias : Constant) (inputScale weightScale : Binary32) :
    Settles s (fun _ => True) (quantizeBias bias inputScale weightScale) := by
  unfold quantizeBias
  split
  · dsimp only
    split
    · exact .error (.refused (.invalidBiasScale _ _))
    · refine (settles_tensor _).bind fun values _ _ => ?_
      exact settles_tensor _
  · exact .ok trivial

/-! ### Kinds -/

/-- Scale of what the first of some slots carries. -/
def Graph.firstScale (g : Graph) (sources : List OutputRef) : Binary32 :=
  ((sources.head?.bind g.info?).map (·.scale)).getD .zero

/-- Weights and a bias in their quantized form. The weights come first, since the scale of the bias
    is the product of the scale of the inputs and that of the weights. -/
structure QuantizedWeights (scheme : Scheme) (inputScale : Binary32) (weights : Constant)
    (biases : Option Constant) (weights' : Constant) (biases' : Option Constant) : Prop where
  weights : scheme.quantizeConstant weights = .ok weights'
  biases : biases.mapM (quantizeBias · inputScale weights'.info.scale) = .ok biases'

/-- The second kind is the first one with its constants in their quantized form, where the first
    input is read at the given scale. -/
inductive QuantizedKind (scheme : Scheme) (inputScale : Binary32) : LayerKind → LayerKind → Prop
  | constant {t t' : Constant} (h : scheme.quantizeConstant t = .ok t') :
      QuantizedKind scheme inputScale (.constant t) (.constant t')
  | batchNormalization {params : BatchNormalizationParams}
      {mean variance beta gamma mean' variance' beta' gamma' : Constant}
      (hmean : scheme.quantizeConstant mean = .ok mean')
      (hvariance : scheme.quantizeConstant variance = .ok variance')
      (hbeta : scheme.quantizeConstant beta = .ok beta')
      (hgamma : scheme.quantizeConstant gamma = .ok gamma') :
      QuantizedKind scheme inputScale (.batchNormalization params mean variance beta gamma)
        (.batchNormalization params mean' variance' beta' gamma')
  | convolution {params : ConvolutionParams} {weights weights' : Constant}
      {biases biases' : Option Constant}
      (h : QuantizedWeights scheme inputScale weights biases weights' biases') :
      QuantizedKind scheme inputScale (.convolution params weights biases)
        (.convolution params weights' biases')
  | depthwiseConvolution {params : ConvolutionParams} {weights weights' : Constant}
      {biases biases' : Option Constant}
      (h : QuantizedWeights scheme inputScale weights biases weights' biases') :
      QuantizedKind scheme inputScale (.depthwiseConvolution params weights biases)
        (.depthwiseConvolution params weights' biases')
  | fullyConnected {params : FullyConnectedParams} {weights weights' : Constant}
      {biases biases' : Option Constant}
      (h : QuantizedWeights scheme inputScale weights biases weights' biases') :
      QuantizedKind scheme inputScale (.fullyConnected params weights biases)
        (.fullyConnected params weights' biases')
  | transposeConvolution {params : TransposeConvolutionParams} {weights weights' : Constant}
      {biases biases' : Option Constant}
      (h : QuantizedWeights scheme inputScale weights biases weights' biases') :
      QuantizedKind scheme inputScale (.transposeConvolution params weights biases)
        (.transposeConvolution params weights' biases')
  | plain {kind : LayerKind} (hinterior : kind.binding? = none) (hconstants : kind.constants = []) :
      QuantizedKind scheme inputScale kind kind

namespace QuantizedKind

variable {scheme : Scheme} {inputScale : Binary32} {kind kind' : LayerKind}

theorem inputCount (h : QuantizedKind scheme inputScale kind kind') :
    kind'.inputCount = kind.inputCount := by
  cases h <;> rfl

theorem outputCount (h : QuantizedKind scheme inputScale kind kind') :
    kind'.outputCount = kind.outputCount := by
  cases h <;> rfl

/-- Neither kind is that of a boundary. -/
theorem binding? (h : QuantizedKind scheme inputScale kind kind') :
    kind.binding? = none ∧ kind'.binding? = none := by
  cases h with
  | plain hinterior => exact ⟨hinterior, hinterior⟩
  | _ => exact ⟨rfl, rfl⟩

end QuantizedKind

namespace Quantizer

variable {p : Progress} {l : Layer} {inputs : List OutputRef}

/-- Only a layer that reads something has a scale of its first input. -/
theorem inputScale_eq_ok (h : inputs ≠ []) :
    inputScale p l inputs = .ok (p.target.firstScale inputs) := by
  cases inputs with
  | nil => exact absurd rfl h
  | cons first rest => rfl

theorem settles_quantizedWeights {weights : Constant} (h : inputs ≠ []) (hl : l ∈ s.graph.layers)
    (hweights : weights ∈ l.kind.constants) (biases : Option Constant) :
    Settles s (fun quantized => QuantizedWeights s.options.scheme (p.target.firstScale inputs)
      weights biases quantized.1 quantized.2) (quantizedWeights s p l inputs weights biases) := by
  unfold quantizedWeights
  refine (settles_quantizeConstant hl hweights).bind fun weights' hweights _ => ?_
  cases biases with
  | none => exact .ok ⟨hweights, rfl⟩
  | some bias =>
    rw [inputScale_eq_ok h]
    refine (settles_quantizeBias bias _ weights'.info.scale).bind fun bias' hbias _ => ?_
    refine .ok ⟨hweights, ?_⟩
    show some <$> quantizeBias bias _ _ = _
    rw [hbias]
    rfl

/-- The kind of a counterpart is the quantized kind, unless the kind has no quantized form or a
    constant is refused. -/
theorem settles_quantizedKind (hl : l ∈ s.graph.layers)
    (hinputs : inputs.length = l.kind.inputCount) :
    Settles s (QuantizedKind s.options.scheme (p.target.firstScale inputs) l.kind)
      (quantizedKind s p l inputs) := by
  unfold quantizedKind
  have hstored {t : Constant} (ht : t ∈ l.kind.constants) := settles_quantizeConstant hl ht
  have hweighed {weights : Constant} (hread : inputs ≠ []) (ht : weights ∈ l.kind.constants)
      (biases : Option Constant) :=
    settles_quantizedWeights (p := p) hread hl ht biases
  generalize l.kind = kind at hinputs hstored hweighed ⊢
  -- A layer with weights has one input, whose scale the bias takes.
  have hreads (hone : kind.inputCount = 1) : inputs ≠ [] := by
    intro hnil
    rw [hnil, hone] at hinputs
    cases hinputs
  cases kind with
  | constant tensor =>
    refine (hstored (by simp [LayerKind.constants])).bind fun tensor' htensor _ => ?_
    exact .ok (.constant htensor)
  | convolution params weights biases =>
    refine (hweighed (hreads rfl) (by simp [LayerKind.constants]) biases).bind ?_
    intro quantized _ h
    exact .ok (.convolution h)
  | depthwiseConvolution params weights biases =>
    refine (hweighed (hreads rfl) (by simp [LayerKind.constants]) biases).bind ?_
    intro quantized _ h
    exact .ok (.depthwiseConvolution h)
  | fullyConnected params weights biases =>
    refine (hweighed (hreads rfl) (by simp [LayerKind.constants]) biases).bind ?_
    intro quantized _ h
    exact .ok (.fullyConnected h)
  | transposeConvolution params weights biases =>
    refine (hweighed (hreads rfl) (by simp [LayerKind.constants]) biases).bind ?_
    intro quantized _ h
    exact .ok (.transposeConvolution h)
  | batchNormalization params mean variance beta gamma =>
    refine (hstored (by simp [LayerKind.constants])).bind fun mean' hmean _ => ?_
    refine (hstored (by simp [LayerKind.constants])).bind fun variance' hvariance _ => ?_
    refine (hstored (by simp [LayerKind.constants])).bind fun beta' hbeta _ => ?_
    refine (hstored (by simp [LayerKind.constants])).bind fun gamma' hgamma _ => ?_
    exact .ok (.batchNormalization hmean hvariance hbeta hgamma)
  | input | output | cast | dequantize | logicalBinary | quantize | rank | standIn =>
    exact .error (.refused (.unimplemented _ _ _))
  | _ => exact .ok (.plain rfl rfl)

end Quantizer

end LayerGraph
