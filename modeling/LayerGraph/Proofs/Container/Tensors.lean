import LayerGraph.Container.Tensors
import LayerGraph.Proofs.Container.Codec
import LayerGraph.Proofs.Tensor.Consistency

/-! # Laws of the codecs of tensors

  A descriptor can be read back when it is consistent, and what is read is consistent. Its size
  in bytes depends on the number of its dimensions and of its scales alone (`info_fits_iff`), so
  flags, known sizes and element types may change without a change of the size.
-/

namespace LayerGraph

namespace Codec

variable {n : Nat}

theorem elementType_plain : elementType.Plain 1 :=
  tagged_plain fun t => by cases t <;> rfl

theorem elementType_fits (t : ElementType) : elementType.Fits t 1 := ⟨[_], rfl, rfl⟩

/-! ### Dimensions -/

theorem dim_fits (size : Option UInt32) : dim.Fits size 5 :=
  seq_fits_iff.mpr ⟨1, 4, bool_fits _, uint32_fits _, rfl⟩

/-- A size that is not known may be read from other bytes than are written for it. -/
theorem dim_plain : dim.Plain 5 := by
  refine Lawful.imap (bool_plain.seq uint32_plain) (fun size => by cases size <;> rfl) ?_
  rintro ⟨known, size⟩ n - hfits
  obtain ⟨i, j, hi, hj, rfl⟩ := seq_fits_iff.mp hfits
  rw [hi.unique (bool_fits known), hj.unique (uint32_fits size)]
  exact ⟨trivial, dim_fits _⟩

/-! ### Descriptors -/

theorem rawInfo_plain : rawInfo.Plain 18 :=
  (elementType_plain.seq ((dim_plain.list (Nat.le_refl 5)).seq
    ((binary32_plain.list (Nat.le_refl 4)).seq
      (int32_plain.seq (uint32_plain.seq bool_plain))))).imap (fun _ => rfl) (fun _ => rfl)

theorem rawInfo_fits_iff {r : RawInfo} :
    rawInfo.Fits r n ↔ r.dims.length < 2 ^ 32 ∧ r.scales.length < 2 ^ 32 ∧
      n = 18 + r.dims.length * 5 + r.scales.length * 4 := by
  show (elementType.seq _).Fits (_, _, _, _, _, _) n ↔ _
  simp only [seq_fits_iff, fits_iff elementType_fits, list_fits_iff dim_fits,
    list_fits_iff binary32_fits, fits_iff int32_fits, fits_iff uint32_fits, fits_iff bool_fits]
  constructor
  · rintro ⟨_, _, rfl, ⟨_, _, ⟨hdims, rfl⟩, ⟨_, _, ⟨hscales, rfl⟩, ⟨_, _, rfl, ⟨_, _, rfl, rfl, rfl⟩,
      rfl⟩, rfl⟩, rfl⟩, rfl⟩
    exact ⟨hdims, hscales, by omega⟩
  · rintro ⟨hdims, hscales, rfl⟩
    exact ⟨_, _, rfl, ⟨_, _, ⟨hdims, rfl⟩, ⟨_, _, ⟨hscales, rfl⟩, ⟨_, _, rfl, ⟨_, _, rfl, rfl, rfl⟩,
      rfl⟩, rfl⟩, rfl⟩, by omega⟩

/-- The parts of a consistent descriptor stand for it. The number for no axis is no axis of a
    descriptor whose dimensions can be counted in 32 bits. -/
theorem toInfo_ofInfo {info : TensorInfo} (hinfo : info.Consistent)
    (hrank : info.shape.dims.length < 2 ^ 32) : (RawInfo.ofInfo info).toInfo = .ok info := by
  obtain ⟨shape, elementType, quantization, isConstant⟩ := info
  cases quantization with
  | perTensor scale offset => rfl
  | perAxis scales offset axis =>
    have haxis : axis ≠ noAxis := by
      rintro rfl
      have hlt : noAxis.toNat < shape.rank := hinfo.2.1
      have hmax : noAxis.toNat = 2 ^ 32 - 1 := rfl
      simp only [Shape.rank] at hlt
      simp only at hrank
      omega
    have hset : (TensorInfo.new shape elementType).withPerAxis scales offset axis =
        .ok ⟨shape, elementType, .perAxis scales offset axis, false⟩ :=
      TensorInfo.withPerAxis_eq_ok_iff.mpr ⟨rfl, hinfo⟩
    have htwo : 2 ≤ scales.length := hinfo.1
    -- A descriptor with an axis has at least two scales, by which it is told from one without.
    rcases scales with _ | ⟨a, _ | ⟨b, rest⟩⟩
    · simp at htwo
    · simp at htwo
    · simp only [RawInfo.ofInfo, RawInfo.toInfo, Quantization.scales, Quantization.offset,
        Quantization.axis?, Option.getD_some, if_neg haxis, hset]
      rfl

/-- Parts that stand for a descriptor are its parts, and the descriptor is consistent. -/
theorem toInfo_eq_ok {r : RawInfo} {info : TensorInfo} (h : r.toInfo = .ok info) :
    info.Consistent ∧ RawInfo.ofInfo info = r := by
  obtain ⟨elementType, dims, scales, offset, axis, isConstant⟩ := r
  simp only [RawInfo.toInfo] at h
  split at h
  · cases h
  · split at h
    · next haxis =>
      cases h
      exact ⟨trivial, by subst haxis; rfl⟩
    · cases h
  · split at h
    · cases h
    · split at h
      · next info' hset =>
        cases h
        obtain ⟨rfl, hconsistent⟩ := TensorInfo.withPerAxis_eq_ok_iff.mp hset
        exact ⟨hconsistent, rfl⟩
      · cases h

theorem info_fits_iff {info : TensorInfo} :
    Codec.info.Fits info n ↔ info.shape.dims.length < 2 ^ 32 ∧
      info.quantization.scales.length < 2 ^ 32 ∧
      n = 18 + info.shape.dims.length * 5 + info.quantization.scales.length * 4 :=
  rawInfo_fits_iff (r := RawInfo.ofInfo info)

/-- Consistent descriptors are read back, and what is read is consistent. -/
theorem info_lawful : Codec.info.Lawful TensorInfo.Consistent 18 := by
  refine Lawful.refine rawInfo_plain (fun _ _ => trivial) ?_ ?_
  · intro info bytes hinfo hwrite
    exact toInfo_ofInfo hinfo (info_fits_iff.mp ⟨bytes, hwrite, rfl⟩).1
  · intro r info n _ hfits hto
    obtain ⟨hinfo, rfl⟩ := toInfo_eq_ok hto
    exact ⟨hinfo, hfits⟩

/-- The parts of another descriptor stand for none. -/
theorem toInfo_ofInfo_eq_error {info : TensorInfo} (hscaled : info.Scaled)
    (hbad : ¬ info.Consistent) : ∃ fault, (RawInfo.ofInfo info).toInfo = .error fault := by
  cases hto : (RawInfo.ofInfo info).toInfo with
  | error fault => exact ⟨fault, rfl⟩
  | ok info' =>
    obtain ⟨hconsistent, heq⟩ := toInfo_eq_ok hto
    obtain ⟨⟨dims⟩, elementType, quantization, isConstant⟩ := info
    obtain ⟨⟨dims'⟩, elementType', quantization', isConstant'⟩ := info'
    cases quantization with
    | perTensor scale offset => exact absurd trivial hbad
    | perAxis scales offset axis =>
      have htwo : 2 ≤ scales.length := hscaled
      cases quantization' with
      | perTensor scale' offset' =>
        have hscales : [scale'] = scales := congrArg RawInfo.scales heq
        subst hscales
        simp at htwo
      | perAxis scales' offset' axis' =>
        cases heq
        exact absurd hconsistent hbad

theorem info_strict : Codec.info.Strict TensorInfo.Scaled TensorInfo.Consistent := by
  intro info bytes hscaled hbad hwrite
  obtain ⟨fault, hfault⟩ := toInfo_ofInfo_eq_error hscaled hbad
  refine Read.Refuses.offset fun start => ?_
  refine (rawInfo_plain.takes trivial hwrite).then_refuses ?_
  rw [hfault]
  exact Read.refuse_refuses

/-! ### Constants -/

theorem width_toNat (t : ElementType) : (UInt8.ofNat t.size).toNat = t.size := by
  cases t <;> rfl

theorem constant_write_eq_ok_iff {t : Constant} {bytes : List UInt8} :
    constant.write t = .ok bytes ↔
      ∃ head, Codec.info.write t.info = .ok head ∧ t.cellCount < 2 ^ 32 ∧
        bytes = head ++ ([UInt8.ofNat t.elementType.size] ++
          (LittleEndian.encode 4 t.cellCount ++ t.data)) := by
  have hwidth :
      uint8.write (.ofNat t.elementType.size) = .ok [UInt8.ofNat t.elementType.size] := rfl
  simp only [constant, hwidth, Except.bind_eq_ok_iff, Except.pure_eq_ok_iff,
    length_write_eq_ok_iff, Except.ok.injEq, eq_comm (b := bytes)]
  constructor
  · rintro ⟨head, hhead, _, rfl, _, ⟨hlt, rfl⟩, h⟩
    exact ⟨head, hhead, hlt, by simpa using h⟩
  · rintro ⟨head, hhead, hlt, h⟩
    exact ⟨head, hhead, _, rfl, _, ⟨hlt, rfl⟩, by simpa using h⟩

theorem constant_fits_iff {t : Constant} :
    constant.Fits t n ↔
      ∃ head, Codec.info.Fits t.info head ∧ t.cellCount < 2 ^ 32 ∧ n = head + 5 + t.data.length := by
  simp only [Fits, constant_write_eq_ok_iff]
  constructor
  · rintro ⟨_, ⟨head, hhead, hlt, rfl⟩, rfl⟩
    refine ⟨head.length, ⟨head, hhead, rfl⟩, hlt, ?_⟩
    simp only [List.length_append, List.length_singleton, LittleEndian.length_encode]
    omega
  · rintro ⟨_, ⟨head, hhead, rfl⟩, hlt, rfl⟩
    refine ⟨_, ⟨head, hhead, hlt, rfl⟩, ?_⟩
    simp only [List.length_append, List.length_singleton, LittleEndian.length_encode]
    omega

/-- Constants with consistent descriptors are read back, and such are those that are read. -/
theorem constant_lawful : constant.Lawful (fun t => t.info.Consistent) 23 where
  takes := by
    intro t bytes hinfo hwrite
    obtain ⟨head, hhead, hlt, rfl⟩ := constant_write_eq_ok_iff.mp hwrite
    refine (info_lawful.takes hinfo hhead).bind (Read.Takes.offset fun start => ?_)
    refine (uint8_plain.takes trivial rfl).bind ?_
    rw [width_toNat]
    refine Read.Takes.check (not_not.mpr rfl) ?_
    have hsize := t.cellCount_mul_size
    refine length_takes (length_write_of_lt hlt) (Nat.le_of_eq hsize) ?_
    refine (Read.Takes.bytes hsize.symm).then ?_
    rw [t.ofBytes_self]
    exact Read.Takes.pure
  least := by
    intro t bytes hwrite
    obtain ⟨head, hhead, -, rfl⟩ := constant_write_eq_ok_iff.mp hwrite
    have hle := info_lawful.least hhead
    simp only [List.length_append, List.length_singleton, LittleEndian.length_encode]
    omega
  yields := by
    refine info_lawful.yields.bind ?_
    rintro described i ⟨hinfo, hdescribed⟩
    refine Read.Yields.offset fun start => uint8_plain.yields.bind ?_
    rintro width j ⟨-, hwidth⟩
    rw [hwidth.unique (uint8_fits width)]
    refine Read.Yields.check fun hsize => (length_yields _).bind ?_
    rintro count k ⟨hlt, rfl⟩
    refine (Read.Yields.bytes _).bind ?_
    rintro data m ⟨hdata, rfl⟩
    split
    · next t hof =>
      obtain ⟨-, hinfo', rfl⟩ := Constant.ofBytes_eq_ok_iff.mp hof
      have htype : t.elementType = described.elementType := by
        rw [Constant.elementType, hinfo']
        rfl
      have hpos : 0 < width.toNat := by
        rw [not_not.mp hsize]
        cases described.elementType <;> decide
      -- The cells are counted from the data, whose length is a multiple of their size.
      have hcount : t.cellCount = count := by
        rw [Constant.cellCount, hdata, htype, ← not_not.mp hsize, Nat.mul_div_cancel count hpos]
      refine .pure ⟨?_, constant_fits_iff.mpr ⟨i, ?_, ?_, ?_⟩⟩
      · rw [hinfo']
        exact hinfo
      · have hparts := info_fits_iff.mp hdescribed
        rw [hinfo', info_fits_iff]
        exact hparts
      · rw [hcount]
        exact hlt
      · rw [hdata]
        omega
    · exact .refuse
  stays bytes := by
    refine (info_lawful.stays bytes).bind fun described _ => ?_
    refine Read.StaysIn.offset fun start hstart => (uint8_plain.stays bytes).bind fun width _ => ?_
    refine Read.StaysIn.check hstart ((length_stays _ bytes).bind fun count _ => ?_)
    refine (Read.StaysIn.bytes _).bind fun data _ => ?_
    split
    · exact .pure trivial
    · exact .refuse hstart
  steady := by
    refine info_lawful.steady.bind fun described => ?_
    refine Read.Steady.offset fun start => uint8_plain.steady.bind fun width => ?_
    refine Read.Steady.check ((length_steady _).bind fun count => ?_)
    refine (Read.Steady.bytes _).bind fun data => ?_
    split
    · exact .pure
    · exact .refuse
  parallel := by
    refine info_lawful.parallel.bind_eq fun described => Read.Parallel.offset fun start start' => ?_
    refine uint8_plain.parallel.bind_eq fun width => Read.Parallel.check Iff.rfl rfl ?_
    refine (length_parallel _).bind_eq fun count => (Read.Parallel.bytes _).bind_eq fun data => ?_
    cases Constant.ofBytes described data with
    | ok t => exact .pure rfl
    | error cause => exact .refuse

theorem constant_strict :
    constant.Strict (fun t => t.info.Scaled) (fun t => t.info.Consistent) := by
  intro t bytes hscaled hbad hwrite
  obtain ⟨head, hhead, -, rfl⟩ := constant_write_eq_ok_iff.mp hwrite
  exact (info_strict hscaled hbad hhead).bind.append

/-! ### Permutations -/

theorem permutation_plain : permutation.Plain 4 := by
  refine Lawful.refine uint32s_plain (fun _ _ => trivial) ?_ ?_
  · intro p bytes _ _
    have hof : Permutation.ofMappings p.mappings = .ok p := dif_pos ⟨p.nodup, p.lt_length⟩
    rw [hof]
    rfl
  · intro mappings p n _ hfits hof
    have hof := Except.mapError_eq_ok_iff.mp hof
    unfold Permutation.ofMappings at hof
    split at hof
    · cases hof
      exact ⟨trivial, hfits⟩
    · cases hof

end Codec

end LayerGraph
