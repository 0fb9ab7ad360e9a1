import LayerGraph.Tensor.Constant

/-! # Permutations of dimensions

  A permutation moves every source dimension `i` to the destination dimension
  `mappings[i]`. It acts on shapes, on the cells of a row-major payload, and on constants.
-/

namespace LayerGraph

/-! ### Row-major order -/

/-- Position of the element at some coordinates, the last dimension varying fastest. -/
def rowMajorIndex : (dims coordinates : List Nat) → Nat
  | _ :: dims, c :: rest => c * dims.prod + rowMajorIndex dims rest
  | _, _ => 0

/-- Coordinates of the element at some position. -/
def rowMajorCoordinates : (dims : List Nat) → (index : Nat) → List Nat
  | [], _ => []
  | _ :: dims, index => index / dims.prod :: rowMajorCoordinates dims (index % dims.prod)

/-- The distance of neighbours along each dimension, counted in elements. The sizes are multiplied
    from the last dimension on, also when another one has the size zero. -/
def stridesOf : (dims : List UInt32) → Except Overflow (List Nat)
  | [] => .ok []
  | [_] => .ok [1]
  | _ :: next :: dims => do
    let strides ← stridesOf (next :: dims)
    let stride ← multiplyCounts (strides.headD 1) next.toNat
    return stride :: strides

/-! ### Permutations -/

/-- A list that holds each of the numbers below its length once. -/
structure Permutation where
  /-- Destination of each source dimension. -/
  mappings : List UInt32
  /-- No destination is taken twice. -/
  nodup : mappings.Nodup
  /-- Every destination is a dimension. -/
  lt_length : ∀ m ∈ mappings, m.toNat < mappings.length
deriving DecidableEq

namespace Permutation

/-- The permutation with the given destinations. -/
def ofMappings (mappings : List UInt32) : Except TensorError Permutation :=
  if h : mappings.Nodup ∧ ∀ m ∈ mappings, m.toNat < mappings.length then
    .ok ⟨mappings, h.1, h.2⟩
  else .error (.notPermutation mappings)

/-- Number of dimensions. -/
def length (p : Permutation) : Nat := p.mappings.length

/-- Source of each destination dimension. -/
def sources (p : Permutation) : List Nat :=
  (List.range p.length).map fun d => p.mappings.idxOf (UInt32.ofNat d)

variable (p : Permutation)

theorem nodup_toNat : (p.mappings.map UInt32.toNat).Nodup := by
  refine List.pairwise_map.2 (p.nodup.imp ?_)
  intro a b hab h
  exact hab (UInt32.toNat_inj.1 h)

/-- There are no more dimensions than numbers to name them. -/
theorem length_le : p.length ≤ 2 ^ 32 := by
  have hsub : p.mappings.map UInt32.toNat ⊆ List.range (2 ^ 32) := by
    intro n hn
    obtain ⟨m, _, rfl⟩ := List.mem_map.1 hn
    exact List.mem_range.2 m.toNat_lt
  simpa [length] using p.nodup_toNat.length_le_of_subset hsub

theorem toNat_ofNat {n : Nat} (h : n < p.length) : (UInt32.ofNat n).toNat = n :=
  UInt32.toNat_ofNat_of_lt' (Nat.lt_of_lt_of_le h p.length_le)

/-- Every dimension is the destination of some dimension. -/
theorem mem_mappings {d : Nat} (h : d < p.length) : UInt32.ofNat d ∈ p.mappings := by
  apply Decidable.byContradiction
  intro hd
  have hsub : p.mappings.map UInt32.toNat ⊆ (List.range p.length).erase d := by
    intro n hn
    obtain ⟨m, hm, rfl⟩ := List.mem_map.1 hn
    refine (List.nodup_range.mem_erase_iff).2 ⟨?_, List.mem_range.2 (p.lt_length m hm)⟩
    intro he
    apply hd
    rw [← he, UInt32.ofNat_toNat]
    exact hm
  have hlen := p.nodup_toNat.length_le_of_subset hsub
  rw [List.length_erase_of_mem (List.mem_range.2 h)] at hlen
  simp [length] at hlen h
  omega

theorem idxOf_lt {d : Nat} (h : d < p.length) : p.mappings.idxOf (UInt32.ofNat d) < p.length :=
  List.idxOf_lt_length_iff.2 (p.mem_mappings h)

/-- The permutation that moves every dimension back. -/
def inverse : Permutation where
  mappings := p.sources.map UInt32.ofNat
  nodup := by
    refine List.pairwise_map.2 (List.pairwise_map.2 ?_)
    refine List.nodup_range.imp_of_mem ?_
    intro a b ha hb hab h
    have ha := List.mem_range.1 ha
    have hb := List.mem_range.1 hb
    have h := congrArg UInt32.toNat h
    rw [p.toNat_ofNat (p.idxOf_lt ha), p.toNat_ofNat (p.idxOf_lt hb)] at h
    have hx := List.getElem_idxOf (List.idxOf_lt_length_iff.2 (p.mem_mappings ha))
    have hy := List.getElem_idxOf (List.idxOf_lt_length_iff.2 (p.mem_mappings hb))
    simp only [h] at hx
    have heq := congrArg UInt32.toNat (hx.symm.trans hy)
    rw [p.toNat_ofNat ha, p.toNat_ofNat hb] at heq
    exact hab heq
  lt_length := by
    intro m hm
    simp only [List.mem_map, sources] at hm
    obtain ⟨_, ⟨d, hd, rfl⟩, rfl⟩ := hm
    have hd := p.idxOf_lt (List.mem_range.1 hd)
    rw [p.toNat_ofNat hd]
    simpa [sources] using hd

/-- The values of a list that holds one for each source dimension, in the order of the
    destinations. -/
def arrange {α : Type} [Inhabited α] (values : List α) : List α :=
  p.sources.map (values.getD · default)

/-- The shape after the permutation. -/
def permuteShape (dims : List UInt32) : Except TensorError (List UInt32) :=
  if dims.length = p.length then .ok (p.arrange dims)
  else .error (.permutationRank p.length dims.length)

/-- Position in the source of the element at a position of the result. -/
def sourceIndex (dims : List UInt32) (index : Nat) : Nat :=
  let coordinates := rowMajorCoordinates ((p.arrange dims).map UInt32.toNat) index
  rowMajorIndex (dims.map UInt32.toNat) (p.mappings.map fun d => coordinates.getD d.toNat 0)

/-- The cells of a row-major payload, each moved to its permuted position. The distances of
    neighbours in the result are computed beforehand. -/
def permuteData (dims : List UInt32) (data : List UInt8) (cellSize : Nat) :
    Except TensorError (List UInt8) := do
  let permuted ← p.permuteShape dims
  let count ← (Shape.ofDims dims).elementCount
  if Shape.sizeLimit ≤ count * cellSize then throw (.tooManyElements (dims.map some))
  if data.length ≠ count * cellSize then throw (.payloadSize (count * cellSize) data.length)
  let _ ← (stridesOf permuted).mapError .overflow
  let bytes := data.toArray
  return (List.range count).flatMap fun index =>
    let source := p.sourceIndex dims index
    (bytes.extract (source * cellSize) ((source + 1) * cellSize)).toList

/-- Permutes the shape and the cells of a constant; the rest of the descriptor stays. -/
def permuteConstant (p : Permutation) (t : Constant) : Except TensorError Constant := do
  let some dims := t.info.shape.concrete? | throw .unspecifiedShape
  let data ← p.permuteData dims t.data t.elementType.size
  let permuted ← p.permuteShape dims
  Constant.ofBytes (t.info.withShape (.ofDims permuted)) data

end Permutation

end LayerGraph
