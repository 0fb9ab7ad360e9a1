import LayerGraph.Container.Parameters
import LayerGraph.Proofs.Container.Tensors

/-! # Laws of the codecs of parameters

  Every record of parameters is written and read back field by field. Splitters are the one
  exception: the numbers of origins and of sizes are stored as one number, so they have to agree.
-/

namespace LayerGraph

namespace Codec

/-! ### Choices -/

instance : LawfulChoice DataLayout := ⟨fun a => by cases a <;> rfl⟩

instance : LawfulChoice ActivationFunction := ⟨fun a => by cases a <;> rfl⟩

instance : LawfulChoice ArgMinMaxFunction := ⟨fun a => by cases a <;> rfl⟩

instance : LawfulChoice ComparisonOperation := ⟨fun a => by cases a <;> rfl⟩

instance : LawfulChoice LogicalBinaryOperation := ⟨fun a => by cases a <;> rfl⟩

instance : LawfulChoice UnaryOperation := ⟨fun a => by cases a <;> rfl⟩

instance : LawfulChoice NormalizationChannel := ⟨fun a => by cases a <;> rfl⟩

instance : LawfulChoice NormalizationMethod := ⟨fun a => by cases a <;> rfl⟩

instance : LawfulChoice PaddingMode := ⟨fun a => by cases a <;> rfl⟩

instance : LawfulChoice PoolingAlgorithm := ⟨fun a => by cases a <;> rfl⟩

instance : LawfulChoice OutputShapeRounding := ⟨fun a => by cases a <;> rfl⟩

instance : LawfulChoice PaddingMethod := ⟨fun a => by cases a <;> rfl⟩

instance : LawfulChoice ReduceOperation := ⟨fun a => by cases a <;> rfl⟩

instance : LawfulChoice ResizeMethod := ⟨fun a => by cases a <;> rfl⟩

/-! ### Records -/

theorem activation_plain : activation.Plain 9 :=
  (choice_plain.seq (binary32_plain.seq binary32_plain)).imap (fun _ => rfl) (fun _ => rfl)

theorem softmax_plain : softmax.Plain 8 :=
  (binary32_plain.seq int32_plain).imap (fun _ => rfl) (fun _ => rfl)

theorem argMinMax_plain : argMinMax.Plain 6 :=
  (choice_plain.seq (int32_plain.seq elementType_plain)).imap (fun _ => rfl) (fun _ => rfl)

theorem mean_plain : mean.Plain 5 :=
  (uint32s_plain.seq bool_plain).imap (fun _ => rfl) (fun _ => rfl)

theorem reduce_plain : reduce.Plain 6 :=
  (bool_plain.seq (uint32s_plain.seq choice_plain)).imap (fun _ => rfl) (fun _ => rfl)

theorem batchNormalization_plain : batchNormalization.Plain 5 :=
  (binary32_plain.seq choice_plain).imap (fun _ => rfl) (fun _ => rfl)

theorem instanceNormalization_plain : instanceNormalization.Plain 13 :=
  (binary32_plain.seq (binary32_plain.seq (binary32_plain.seq choice_plain))).imap
    (fun _ => rfl) (fun _ => rfl)

theorem l2Normalization_plain : l2Normalization.Plain 5 :=
  (binary32_plain.seq choice_plain).imap (fun _ => rfl) (fun _ => rfl)

theorem normalization_plain : normalization.Plain 19 :=
  (choice_plain.seq (choice_plain.seq (uint32_plain.seq (binary32_plain.seq (binary32_plain.seq
    (binary32_plain.seq choice_plain)))))).imap (fun _ => rfl) (fun _ => rfl)

theorem margins_plain : margins.Plain 16 :=
  (uint32_plain.seq (uint32_plain.seq (uint32_plain.seq uint32_plain))).imap
    (fun _ => rfl) (fun _ => rfl)

theorem convolution_plain : convolution.Plain 34 :=
  (margins_plain.seq (uint32_plain.seq (uint32_plain.seq (uint32_plain.seq (uint32_plain.seq
    (bool_plain.seq choice_plain)))))).imap (fun _ => rfl) (fun _ => rfl)

theorem transposeConvolution_plain : transposeConvolution.Plain 31 :=
  (margins_plain.seq (uint32_plain.seq (uint32_plain.seq (bool_plain.seq (choice_plain.seq
    (bool_plain.seq uint32s_plain)))))).imap (fun _ => rfl) (fun _ => rfl)

theorem pooling_plain : pooling.Plain 36 :=
  (choice_plain.seq (margins_plain.seq (uint32_plain.seq (uint32_plain.seq (uint32_plain.seq
    (uint32_plain.seq (choice_plain.seq (choice_plain.seq choice_plain)))))))).imap
    (fun _ => rfl) (fun _ => rfl)

theorem resize_plain : resize.Plain 12 :=
  (uint32_plain.seq (uint32_plain.seq (choice_plain.seq (choice_plain.seq
    (bool_plain.seq bool_plain))))).imap (fun _ => rfl) (fun _ => rfl)

theorem blockBatch_plain : blockBatch.Plain 9 :=
  (uint32s_plain.seq (pairs_plain.seq choice_plain)).imap (fun _ => rfl) (fun _ => rfl)

theorem blockDepth_plain : blockDepth.Plain 5 :=
  (uint32_plain.seq choice_plain).imap (fun _ => rfl) (fun _ => rfl)

theorem fullyConnected_plain : fullyConnected.Plain 2 :=
  (bool_plain.seq bool_plain).imap (fun _ => rfl) (fun _ => rfl)

theorem concat_plain : concat.Plain 8 :=
  (uint32_plain.seq (uint32s_plain.list (Nat.le_refl 4))).imap (fun _ => rfl) (fun _ => rfl)

theorem pad_plain : pad.Plain 9 :=
  (pairs_plain.seq (binary32_plain.seq choice_plain)).imap (fun _ => rfl) (fun _ => rfl)

theorem slice_plain : slice.Plain 8 :=
  (uint32s_plain.seq uint32s_plain).imap (fun _ => rfl) (fun _ => rfl)

theorem stridedSlice_plain : stridedSlice.Plain 33 :=
  (int32s_plain.seq (int32s_plain.seq (int32s_plain.seq (int32_plain.seq (int32_plain.seq
    (int32_plain.seq (int32_plain.seq (int32_plain.seq choice_plain)))))))).imap
    (fun _ => rfl) (fun _ => rfl)

theorem stack_plain : stack.Plain 12 :=
  (uint32_plain.seq (uint32_plain.seq uint32s_plain)).imap (fun _ => rfl) (fun _ => rfl)

theorem standIn_plain : standIn.Plain 8 :=
  (uint32_plain.seq uint32_plain).imap (fun _ => rfl) (fun _ => rfl)

/-! ### Splitters -/

theorem part_plain : part.Plain 8 := uint32s_plain.seq uint32s_plain

/-- A splitter is written as the list of its origins with their sizes. -/
theorem splitter_write {p : SplitterParams} (h : p.sizes.length = p.origins.length) :
    splitter.write p = (list 8 part).write (p.origins.zip p.sizes) := by
  have hlen : (p.origins.zip p.sizes).length = p.origins.length := by
    rw [List.length_zip, h, Nat.min_self]
  simp only [splitter, list, length, hlen]

/-- Splitters with as many sizes as origins are read back, and such are those that are read. -/
theorem splitter_lawful : splitter.Lawful (fun p => p.sizes.length = p.origins.length) 4 where
  takes := by
    intro p bytes heven hwrite
    have hlist : (list 8 part).Plain 4 := part_plain.list (Nat.le_refl 8)
    rw [splitter_write heven] at hwrite
    -- Origins and sizes are stored in pairs, which are taken apart again.
    have htakes := (hlist.takes trivial hwrite).map
      (f := fun parts => (⟨parts.map (·.1), parts.map (·.2)⟩ : SplitterParams))
    rw [List.map_fst_zip (Nat.le_of_eq heven.symm), List.map_snd_zip (Nat.le_of_eq heven)] at htakes
    exact htakes
  least := by
    intro p bytes hwrite
    obtain ⟨count, hcount, h⟩ := Except.bind_eq_ok_iff.mp hwrite
    obtain ⟨parts, -, h⟩ := Except.bind_eq_ok_iff.mp h
    rw [← Except.pure_eq_ok_iff.mp h, List.length_append, length_length hcount]
    exact Nat.le_add_right 4 _
  yields := by
    refine Read.Yields.map ((part_plain.list (Nat.le_refl 8)).yields.mono ?_)
    rintro parts n ⟨-, hfits⟩
    have heven : (parts.map (·.2)).length = (parts.map (·.1)).length := by
      rw [List.length_map, List.length_map]
    refine ⟨heven, ?_⟩
    have hzip : (parts.map (·.1)).zip (parts.map (·.2)) = parts := by
      rw [List.zip_map', List.map_id']
    rw [Fits, splitter_write heven, hzip]
    exact hfits
  stays bytes := ((part_plain.list (Nat.le_refl 8)).stays bytes).map
  steady := (part_plain.list (Nat.le_refl 8)).steady.map
  parallel := (part_plain.list (Nat.le_refl 8)).parallel.map

end Codec

end LayerGraph
