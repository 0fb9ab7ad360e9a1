import LayerGraph.Proofs.Numeric.LittleEndian
import LayerGraph.Tensor.Constant

/-! # Constants of integers

  A constant that is made from integers has the given descriptor, and the cells of the integers
  one after the other (`Constant.info_of_ofInts`). Integers that fit in a cell are read from it
  again (`Constant.toInts_of_ofInts`).
-/

namespace LayerGraph

theorem Constant.info_of_ofInts {info : TensorInfo} {cell : CellType} {values : List Int}
    {t : Constant} (h : Constant.ofInts info cell values = .ok t) :
    t.info = info.withConstant true ∧
      t.data = (values.map (LittleEndian.encodeInt cell.native.size)).flatten := by
  unfold Constant.ofInts Constant.ofCells at h
  split at h
  · unfold Constant.ofBytes at h
    split at h
    · cases h
    · split at h
      · cases h
        exact ⟨rfl, rfl⟩
      · cases h
  · cases h

/-- Integers of 32 bits are read as they were stored. -/
theorem Constant.toInts_of_ofInts {info : TensorInfo} {values : List Int} {t : Constant}
    (h : Constant.ofInts info .int32 values = .ok t) (htype : info.elementType = .signed32)
    (hvalues : ∀ v ∈ values, -2 ^ 31 ≤ v ∧ v ≤ 2 ^ 31 - 1) : t.toInts = .ok values := by
  obtain ⟨hinfo, hdata⟩ := info_of_ofInts h
  have htype' : t.elementType = .signed32 := by
    rw [Constant.elementType, hinfo]
    exact htype
  have hcells : t.cells = values.map (LittleEndian.encodeInt 4) := by
    rw [Constant.cells, hdata, htype']
    apply cells_flatten (by decide)
    intro cell hcell
    obtain ⟨v, -, rfl⟩ := List.mem_map.mp hcell
    exact LittleEndian.length_encodeInt _ v
  unfold Constant.toInts
  rw [htype', hcells, List.map_map]
  -- Encoding reduces to 32 bits, which keeps the numbers in this range.
  have hread (v : Int) (hv : v ∈ values) :
      (LittleEndian.decodeInt ∘ LittleEndian.encodeInt 4) v = id v := by
    obtain ⟨hlo, hhi⟩ := hvalues v hv
    rw [Function.comp_apply, LittleEndian.decodeInt_encodeInt]
    apply Int.bmod_eq_of_le
    · show -2 ^ 31 ≤ v
      exact hlo
    · show v < 2 ^ 31
      omega
  rw [List.map_congr_left hread, List.map_id]

end LayerGraph
