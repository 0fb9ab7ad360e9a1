import LayerGraph.Tensor.DepthwiseLayout
import LayerGraph.Proofs.Outcome

/-! # Consistent descriptors

  A descriptor with an axis has at least two scales, the axis is one of its dimensions, and there
  is a scale for each index along it as far as the size of the dimension is known. Setting the
  scales of a descriptor checks this; changing its shape does not.
-/

namespace LayerGraph

namespace TensorInfo

/-- The scales of a descriptor agree with its shape. -/
def Consistent (info : TensorInfo) : Prop :=
  match info.quantization with
  | .perTensor _ _ => True
  | .perAxis scales _ axis =>
    2 ≤ scales.length ∧ axis.toNat < info.shape.rank ∧
      ∀ dim ∈ info.shape.dim? axis.toNat, dim.toNat = scales.length

instance (info : TensorInfo) : Decidable info.Consistent := by
  unfold Consistent
  split <;> infer_instance

variable {info info' : TensorInfo} {scales : List Binary32} {offset : Int32} {axis : UInt32}

/-- A descriptor with an axis has several scales, whether or not they agree with its shape. -/
def Scaled (info : TensorInfo) : Prop :=
  match info.quantization with
  | .perTensor _ _ => True
  | .perAxis scales _ _ => 2 ≤ scales.length

theorem Consistent.scaled (h : info.Consistent) : info.Scaled := by
  obtain ⟨shape, elementType, quantization, isConstant⟩ := info
  cases quantization with
  | perTensor scale offset => exact trivial
  | perAxis scales offset axis => exact h.1

/-- A new shape keeps the scales. -/
@[simp] theorem scaled_withShape {shape : Shape} : (info.withShape shape).Scaled ↔ info.Scaled :=
  Iff.rfl

/-- A consistent descriptor has one scale and no axis, or several scales along one of its
    dimensions, as many as the dimension has indices if its size is known. -/
theorem consistent_iff :
    info.Consistent ↔
      (info.quantization.scales.length = 1 ∧ info.quantization.axis? = none) ∨
      (2 ≤ info.quantization.scales.length ∧ ∃ axis, info.quantization.axis? = some axis ∧
        axis.toNat < info.shape.rank ∧
        ∀ dim, info.shape.dim? axis.toNat = some dim →
          dim.toNat = info.quantization.scales.length) := by
  obtain ⟨shape, elementType, quantization, isConstant⟩ := info
  cases quantization with
  | perTensor scale offset => simp [Consistent, Quantization.scales, Quantization.axis?]
  | perAxis scales offset axis => simp [Consistent, Quantization.scales, Quantization.axis?]

/-- One scale agrees with any shape. -/
theorem consistent_of_axis_eq_none (h : info.quantization.axis? = none) : info.Consistent := by
  unfold Consistent
  split
  · exact trivial
  · next hq => simp [hq, Quantization.axis?] at h

/-- Scales are set along an axis when they agree with the shape. -/
theorem withPerAxis_eq_ok_iff :
    info.withPerAxis scales offset axis = .ok info' ↔
      info' = { info with quantization := .perAxis scales offset axis } ∧ info'.Consistent := by
  have hcheck : info.withPerAxis scales offset axis =
      .ok { info with quantization := .perAxis scales offset axis } ↔
      ({ info with quantization := .perAxis scales offset axis } : TensorInfo).Consistent := by
    unfold withPerAxis Consistent
    rcases scales with _ | ⟨a, _ | ⟨b, rest⟩⟩
    · simp
    · simp
    · cases hdim : info.shape.dim? axis.toNat <;> grind
  constructor
  · intro h
    have heq : info' = { info with quantization := .perAxis scales offset axis } := by
      unfold withPerAxis at h
      grind
    subst heq
    exact ⟨rfl, hcheck.mp h⟩
  · rintro ⟨rfl, h⟩
    exact hcheck.mpr h

@[simp] theorem consistent_withConstant {isConstant : Bool} :
    (info.withConstant isConstant).Consistent ↔ info.Consistent := Iff.rfl

end TensorInfo

namespace Constant

/-- A constant is made of a descriptor and as many bytes as it asks for. -/
theorem ofBytes_eq_ok_iff {info : TensorInfo} {data : List UInt8} {t : Constant} :
    Constant.ofBytes info data = .ok t ↔
      info.byteCount = .ok data.length ∧ t.info = info.withConstant true ∧ t.data = data := by
  unfold Constant.ofBytes
  split
  · next e h => simp [h]
  · next expected h =>
    split
    · next hs =>
      subst hs
      obtain ⟨info', data', hcount, hconst⟩ := t
      simp only [h, true_and, Except.ok.injEq]
      constructor
      · intro heq
        cases heq
        exact ⟨rfl, rfl⟩
      · rintro ⟨rfl, rfl⟩
        rfl
    · next hs => simp [h, hs]

/-- A constant is made of its own parts. -/
theorem ofBytes_self (t : Constant) : Constant.ofBytes t.info t.data = .ok t := by
  have hinfo : t.info = t.info.withConstant true := by
    obtain ⟨⟨shape, elementType, quantization, isConstant⟩, data, hcount, hconst⟩ := t
    cases hconst
    rfl
  exact ofBytes_eq_ok_iff.mpr ⟨t.byteCount_eq, hinfo, rfl⟩

/-- There are as many bytes as elements of the width of the type. -/
theorem length_data (t : Constant) :
    ∃ count, t.info.elementCount = .ok count ∧ t.data.length = count * t.elementType.size := by
  have h := t.byteCount_eq
  unfold TensorInfo.byteCount at h
  obtain ⟨count, hcount, h⟩ := Except.bind_eq_ok_iff.mp h
  split at h
  · exact ⟨count, hcount, (Except.pure_eq_ok_iff.mp h).symm⟩
  · cases h

/-- There are as many bytes as cells of the width of the element type. -/
theorem cellCount_mul_size (t : Constant) : t.cellCount * t.elementType.size = t.data.length := by
  obtain ⟨count, -, hlength⟩ := t.length_data
  have hpos : 0 < t.elementType.size := by
    cases t.elementType <;> decide
  rw [cellCount, hlength, Nat.mul_div_cancel count hpos]

end Constant

end LayerGraph
