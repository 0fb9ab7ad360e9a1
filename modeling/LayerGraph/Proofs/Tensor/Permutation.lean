import LayerGraph.Proofs.Tensor.DepthwiseLayout
import LayerGraph.Proofs.Tensor.RowMajor
import Mathlib.Data.List.Nodup
import Mathlib.Data.List.Perm.Subperm

/-! # What permutations of dimensions do to payloads

  A permutation moves what belongs to dimension `i` of the source to dimension `mappings[i]` of the
  result (`Moves`): sizes, coordinates, and so the cells of a payload.

  - The cell at some coordinates of the source is found at the moved coordinates of the result, and
    nothing else is in the result (`Permuted.cellAt`).
  - The inverse moves everything back (`Moves.inverse`), shapes as well as payloads.
  - The payload can also be written cell by cell while an odometer runs through the source: then
    every cell of the result is written once (`writes_perm`), and it is the same payload
    (`scatter_eq`).
-/

namespace LayerGraph

namespace Permutation

variable {p : Permutation} {α β : Type}

/-! ### Moving lists -/

/-- `moved` has at the destination of each dimension what `values` has at the dimension. -/
def Moves (p : Permutation) (values moved : List α) : Prop :=
  moved.length = values.length ∧
    ∀ (i : Nat) (m : UInt32), p.mappings[i]? = some m → moved[m.toNat]? = values[i]?

theorem toNat_lt_length {i : Nat} {m : UInt32} (h : p.mappings[i]? = some m) :
    m.toNat < p.length :=
  p.lt_length m (List.mem_of_getElem? h)

theorem lt_length_of_mapping {i : Nat} {m : UInt32} (h : p.mappings[i]? = some m) :
    i < p.length :=
  (List.getElem?_eq_some_iff.mp h).1

/-- Every dimension of the result is the destination of one of the source. -/
theorem exists_mapping {d : Nat} (h : d < p.length) :
    ∃ i : Nat, p.mappings[i]? = some (UInt32.ofNat d) :=
  List.mem_iff_getElem?.mp (p.mem_mappings h)

/-- The source of a destination. -/
theorem getElem?_sources {i : Nat} {m : UInt32} (h : p.mappings[i]? = some m) :
    p.sources[m.toNat]? = some i := by
  have hm := toNat_lt_length h
  have hindex : p.mappings.idxOf (UInt32.ofNat m.toNat) = i := by
    obtain ⟨hi, rfl⟩ := List.getElem?_eq_some_iff.mp h
    rw [UInt32.ofNat_toNat]
    exact p.nodup.idxOf_getElem i hi
  rw [sources, List.getElem?_map, List.getElem?_range hm, Option.map_some, hindex]

theorem length_sources : p.sources.length = p.length := by simp [sources]

theorem length_arrange [Inhabited α] (values : List α) : (p.arrange values).length = p.length := by
  rw [arrange, List.length_map, length_sources]

theorem moves_arrange [Inhabited α] {values : List α} (h : values.length = p.length) :
    p.Moves values (p.arrange values) := by
  refine ⟨by rw [length_arrange, h], ?_⟩
  intro i m hm
  have hi : i < values.length := h ▸ lt_length_of_mapping hm
  rw [arrange, List.getElem?_map, getElem?_sources hm, Option.map_some, List.getD_eq_getElem?_getD,
    List.getElem?_eq_getElem hi, Option.getD_some]

/-- Nothing is left open about what is moved. -/
theorem Moves.unique {values moved moved' : List α} (h : p.Moves values moved)
    (h' : p.Moves values moved') (hlen : values.length = p.length) : moved = moved' := by
  apply List.ext_getElem?
  intro d
  by_cases hd : d < p.length
  · obtain ⟨i, hi⟩ := exists_mapping hd
    have hmoved := h.2 i _ hi
    have hmoved' := h'.2 i _ hi
    rw [p.toNat_ofNat hd] at hmoved hmoved'
    rw [hmoved, hmoved']
  · have hlength := h.1
    have hlength' := h'.1
    rw [List.getElem?_eq_none (by omega), List.getElem?_eq_none (by omega)]

theorem Moves.eq_arrange [Inhabited α] {values moved : List α} (h : p.Moves values moved)
    (hlen : values.length = p.length) : moved = p.arrange values :=
  h.unique (moves_arrange hlen) hlen

theorem Moves.map {values moved : List α} (h : p.Moves values moved) (f : α → β) :
    p.Moves (values.map f) (moved.map f) := by
  refine ⟨by rw [List.length_map, List.length_map, h.1], ?_⟩
  intro i m hm
  rw [List.getElem?_map, List.getElem?_map, h.2 i m hm]

/-- Each entry is moved on its own. -/
theorem Moves.forall₂ {r : α → β → Prop} {xs moved : List α} {ys moved' : List β}
    (h : p.Moves xs moved) (h' : p.Moves ys moved') (hlen : xs.length = p.length)
    (hr : List.Forall₂ r xs ys) : List.Forall₂ r moved moved' := by
  have hlength := hr.length_eq
  refine List.forall₂_iff_get.mpr ⟨by rw [h.1, h'.1, hlength], ?_⟩
  intro d hd hd'
  have hlt : d < p.length := by rwa [h.1, hlen] at hd
  obtain ⟨i, hi⟩ := exists_mapping hlt
  have hget := h.2 i _ hi
  have hget' := h'.2 i _ hi
  have hi' := lt_length_of_mapping hi
  rw [p.toNat_ofNat hlt, List.getElem?_eq_getElem hd, List.getElem?_eq_getElem (by omega),
    Option.some.injEq] at hget
  rw [p.toNat_ofNat hlt, List.getElem?_eq_getElem hd', List.getElem?_eq_getElem (by omega),
    Option.some.injEq] at hget'
  have hall := (List.forall₂_iff_get.mp hr).2 i (by omega) (by omega)
  simp only [List.get_eq_getElem] at hall ⊢
  rwa [hget, hget']

/-! ### The inverse -/

theorem getElem?_inverse {i : Nat} {m : UInt32} (h : p.mappings[i]? = some m) :
    p.inverse.mappings[m.toNat]? = some (UInt32.ofNat i) := by
  show (p.sources.map UInt32.ofNat)[m.toNat]? = _
  rw [List.getElem?_map, getElem?_sources h, Option.map_some]

@[simp] theorem length_inverse (p : Permutation) : p.inverse.length = p.length := by
  show (p.sources.map UInt32.ofNat).length = _
  rw [List.length_map, length_sources]

/-- The inverse takes a destination back to its dimension. -/
theorem inverse_getElem?_eq_some {d : Nat} {m : UInt32} (h : p.inverse.mappings[d]? = some m) :
    p.mappings[m.toNat]? = some (UInt32.ofNat d) := by
  have hd : d < p.length := by
    have hlt := lt_length_of_mapping h
    rwa [length_inverse] at hlt
  obtain ⟨i, hi⟩ := exists_mapping hd
  have hback := getElem?_inverse hi
  rw [p.toNat_ofNat hd, h, Option.some.injEq] at hback
  rw [hback, p.toNat_ofNat (lt_length_of_mapping hi), hi]

/-- What is moved by a permutation is moved back by its inverse. -/
theorem Moves.inverse {values moved : List α} (h : p.Moves values moved) :
    p.inverse.Moves moved values := by
  refine ⟨h.1.symm, ?_⟩
  intro d m hm
  have hd : d < p.length := by
    have hlt := lt_length_of_mapping hm
    rwa [length_inverse] at hlt
  have hmoved := h.2 _ _ (inverse_getElem?_eq_some hm)
  rw [p.toNat_ofNat hd] at hmoved
  exact hmoved.symm

@[simp] theorem inverse_inverse (p : Permutation) : p.inverse.inverse = p := by
  have hmappings : p.inverse.inverse.mappings = p.mappings := by
    apply List.ext_getElem?
    intro i
    by_cases hi : i < p.length
    · have hget := List.getElem?_eq_getElem (l := p.mappings) hi
      have hback := getElem?_inverse (getElem?_inverse hget)
      rw [p.toNat_ofNat hi, UInt32.ofNat_toNat] at hback
      rw [hback, hget]
    · have hlen : p.inverse.inverse.length = p.length := by rw [length_inverse, length_inverse]
      unfold Permutation.length at hlen hi
      rw [List.getElem?_eq_none (by omega), List.getElem?_eq_none (by omega)]
  obtain ⟨mappings, hnodup, hlt⟩ := p
  exact Permutation.mk.injEq .. ▸ hmappings

theorem ofMappings_mappings (p : Permutation) : ofMappings p.mappings = .ok p := by
  rw [ofMappings, dif_pos ⟨p.nodup, p.lt_length⟩]

/-! ### Products and sums -/

/-- The destinations are all the dimensions, in another order. -/
theorem perm_destinations (p : Permutation) :
    (p.mappings.map UInt32.toNat).Perm (List.range p.length) := by
  have hsub : p.mappings.map UInt32.toNat ⊆ List.range p.length := by
    intro d hd
    obtain ⟨m, hm, rfl⟩ := List.mem_map.mp hd
    exact List.mem_range.mpr (p.lt_length m hm)
  refine (p.nodup_toNat.subperm hsub).perm_of_length_le ?_
  rw [List.length_range, List.length_map]
  exact Nat.le_refl _

/-- The values are those that stand at the destinations. -/
theorem Moves.eq_map {values moved : List α} (h : p.Moves values moved)
    (hlen : values.length = p.length) (default : α) :
    values = (p.mappings.map UInt32.toNat).map (moved.getD · default) := by
  apply List.ext_getElem?
  intro i
  rw [List.map_map, List.getElem?_map]
  cases hm : p.mappings[i]? with
  | none =>
    have hi : p.length ≤ i := List.getElem?_eq_none_iff.mp hm
    rw [List.getElem?_eq_none (by omega), Option.map_none]
  | some m =>
    have hi : i < values.length := hlen ▸ lt_length_of_mapping hm
    have hget := h.2 i m hm
    rw [List.getElem?_eq_getElem hi] at hget
    simp [hget, hi]

theorem map_getD_range (values : List α) (default : α) :
    (List.range values.length).map (values.getD · default) = values := by
  apply List.ext_getElem
  · simp
  · intro i hi hi'
    simp [hi']

/-- Moving changes the order only. -/
theorem Moves.perm {values moved : List α} (h : p.Moves values moved)
    (hlen : values.length = p.length) : values.Perm moved := by
  cases values with
  | nil =>
    have hnil : moved = [] := List.length_eq_zero_iff.mp h.1
    rw [hnil]
  | cons default rest =>
    have hperm := p.perm_destinations.map (moved.getD · default)
    rw [← h.eq_map hlen default, ← hlen, ← h.1, map_getD_range] at hperm
    exact hperm

/-- A sum over dimensions of the source is one over their destinations. -/
theorem Moves.sum_strides {coordinates moved strides : List Nat} (h : p.Moves coordinates moved)
    (hlen : coordinates.length = p.length) (hstrides : strides.length = p.length) :
    ((coordinates.zip p.mappings).map fun (c, m) => c * strides.getD m.toNat 0).sum =
      (List.zipWith (· * ·) moved strides).sum := by
  -- The coordinate of a source dimension is the one at its destination.
  have hzip : coordinates.zip p.mappings =
      p.mappings.map fun m => (moved.getD m.toNat 0, m) := by
    have hpairs : (p.mappings.map fun m => moved.getD m.toNat 0).zip (p.mappings.map id) =
        p.mappings.map fun m => (moved.getD m.toNat 0, m) := List.zip_map'
    rw [List.map_id] at hpairs
    rw [← hpairs, h.eq_map hlen 0, List.map_map]
    rfl
  have hsource : (coordinates.zip p.mappings).map (fun (c, m) => c * strides.getD m.toNat 0) =
      (p.mappings.map UInt32.toNat).map fun d => moved.getD d 0 * strides.getD d 0 := by
    rw [hzip, List.map_map, List.map_map]
    rfl
  have hmoved : (List.range p.length).map (fun d => moved.getD d 0 * strides.getD d 0) =
      List.zipWith (· * ·) moved strides := by
    have hmlen : moved.length = p.length := h.1.trans hlen
    apply List.ext_getElem
    · simp [hmlen, hstrides]
    · intro d hd hd'
      simp at hd
      simp [hmlen, hstrides, hd]
  rw [hsource, ← hmoved]
  exact (p.perm_destinations.map _).sum_eq

/-! ### Shapes and payloads -/

theorem permuteShape_eq_ok_iff {dims permuted : List UInt32} :
    p.permuteShape dims = .ok permuted ↔
      dims.length = p.length ∧ p.Moves dims permuted := by
  unfold permuteShape
  split
  · next hlen =>
    rw [Except.ok.injEq]
    constructor
    · rintro rfl
      exact ⟨hlen, moves_arrange hlen⟩
    · rintro ⟨-, hmoves⟩
      exact (hmoves.eq_arrange hlen).symm
  · next hlen => simp [hlen]

/-- `out` is what becomes of a payload of cells when its dimensions are moved. -/
structure Permuted (p : Permutation) (dims permuted : List UInt32) (size : Nat)
    (data out : List UInt8) : Prop where
  rank : dims.length = p.length
  moves : p.Moves dims permuted
  length_data : data.length = (dims.map UInt32.toNat).prod * size
  length_out : out.length = (dims.map UInt32.toNat).prod * size
  /-- The cell at some coordinates is found at the moved coordinates. -/
  cellAt : ∀ coordinates moved, InBox (dims.map UInt32.toNat) coordinates →
    p.Moves coordinates moved →
    LayerGraph.cellAt size out (rowMajorIndex (permuted.map UInt32.toNat) moved) =
      LayerGraph.cellAt size data (rowMajorIndex (dims.map UInt32.toNat) coordinates)

theorem Moves.inBox {dims permuted coordinates moved : List Nat} (h : p.Moves dims permuted)
    (hc : p.Moves coordinates moved) (hrank : dims.length = p.length)
    (hbox : InBox dims coordinates) : InBox permuted moved :=
  hc.forall₂ h (hbox.length_eq.trans hrank) hbox

/-- Every position of the result is that of moved coordinates. -/
theorem Moves.exists_coordinates {dims permuted : List Nat} {index : Nat}
    (h : p.Moves dims permuted) (hrank : dims.length = p.length) (hindex : index < permuted.prod) :
    ∃ coordinates moved, InBox dims coordinates ∧ p.Moves coordinates moved ∧
      rowMajorIndex permuted moved = index := by
  have hbox := inBox_rowMajorCoordinates hindex
  have hlen : permuted.length = p.inverse.length := by rw [h.1, hrank, length_inverse]
  have hback := moves_arrange (hbox.length_eq.trans hlen)
  have hforth := hback.inverse
  rw [inverse_inverse] at hforth
  exact ⟨p.inverse.arrange (rowMajorCoordinates permuted index), rowMajorCoordinates permuted index,
    h.inverse.inBox hback hlen hbox, hforth, rowMajorIndex_rowMajorCoordinates hindex⟩

/-- The position in the source of moved coordinates. -/
theorem sourceIndex_eq {dims : List UInt32} {coordinates moved : List Nat}
    (hrank : dims.length = p.length) (hbox : InBox (dims.map UInt32.toNat) coordinates)
    (hmoves : p.Moves coordinates moved) :
    p.sourceIndex dims (rowMajorIndex ((p.arrange dims).map UInt32.toNat) moved) =
      rowMajorIndex (dims.map UInt32.toNat) coordinates := by
  have hdims := (moves_arrange hrank).map UInt32.toNat
  have hmoved := hdims.inBox hmoves (by rwa [List.length_map]) hbox
  have hlen : coordinates.length = p.length := by
    rw [hbox.length_eq, List.length_map, hrank]
  simp only [sourceIndex, rowMajorCoordinates_rowMajorIndex hmoved]
  rw [hmoves.eq_map hlen 0, List.map_map]
  rfl

theorem Moves.prod_eq {dims permuted : List UInt32} (h : p.Moves dims permuted)
    (hrank : dims.length = p.length) :
    (permuted.map UInt32.toNat).prod = (dims.map UInt32.toNat).prod :=
  ((h.perm hrank).map UInt32.toNat).prod_eq.symm

/-- The cells are gathered when the sizes are known to fit in memory, and the strides too. -/
theorem permuteData_eq_ok_iff {dims : List UInt32} {size : Nat} {data out : List UInt8} :
    p.permuteData dims data size = .ok out ↔
      dims.length = p.length ∧ ∃ count, (Shape.ofDims dims).elementCount = .ok count ∧
        count * size < Shape.sizeLimit ∧ data.length = count * size ∧
        StridesFit (p.arrange dims) ∧ out = (List.range count).flatMap fun index =>
          LayerGraph.cellAt size data (p.sourceIndex dims index) := by
  have hbytes (k : Nat) : (data.toArray.extract (k * size) ((k + 1) * size)).toList =
      LayerGraph.cellAt size data k := by
    rw [LayerGraph.cellAt, Array.toList_extract, List.extract_eq_take_drop, Nat.succ_mul,
      Nat.add_sub_cancel_left]
  simp only [permuteData, Except.bind_eq_ok_iff, permuteShape_eq_ok_iff, Except.check_eq_ok_iff,
    Except.mapError_eq_ok_iff, stridesOf_eq_ok_iff, Except.pure_eq_ok_iff, hbytes, Nat.not_le,
    not_not, ne_eq]
  constructor
  · rintro ⟨permuted, ⟨hrank, hmoves⟩, count, hcount, hfits, hdata, _, ⟨hstrides, -⟩, rfl⟩
    obtain rfl := hmoves.eq_arrange hrank
    exact ⟨hrank, count, hcount, hfits, hdata, hstrides, rfl⟩
  · rintro ⟨hrank, count, hcount, hfits, hdata, hstrides, rfl⟩
    exact ⟨p.arrange dims, ⟨hrank, moves_arrange hrank⟩, count, hcount, hfits, hdata, _,
      ⟨hstrides, rfl⟩, rfl⟩

/-- Moving a payload moves each of its cells. -/
theorem permuted_of_permuteData {dims : List UInt32} {size : Nat} {data out : List UInt8}
    (h : p.permuteData dims data size = .ok out) :
    p.Permuted dims (p.arrange dims) size data out := by
  obtain ⟨hrank, count, hcount, -, hdata, -, rfl⟩ := permuteData_eq_ok_iff.mp h
  have hprod := Shape.elementCount_ofDims hcount
  subst hprod
  have hmoves := moves_arrange hrank
  have hdims := hmoves.map UInt32.toNat
  have hrank' : (dims.map UInt32.toNat).length = p.length := by rwa [List.length_map]
  -- Every position of the result has a source in the payload.
  have hsource : ∀ k < (dims.map UInt32.toNat).prod,
      p.sourceIndex dims k < (dims.map UInt32.toNat).prod := by
    intro k hk
    rw [← hmoves.prod_eq hrank] at hk
    obtain ⟨coordinates, moved, hbox, hmoved, rfl⟩ := hdims.exists_coordinates hrank' hk
    rw [sourceIndex_eq hrank hbox hmoved]
    exact rowMajorIndex_lt hbox
  have hcells : ∀ k < (dims.map UInt32.toNat).prod,
      (LayerGraph.cellAt size data (p.sourceIndex dims k)).length = size :=
    fun k hk => length_cellAt hdata (hsource k hk)
  refine ⟨hrank, hmoves, hdata, ?_, ?_⟩
  · rw [List.length_flatMap, List.map_congr_left fun k hk => hcells k (List.mem_range.mp hk)]
    simp
  · intro coordinates moved hbox hmoved
    have hlt := rowMajorIndex_lt (hdims.inBox hmoved hrank' hbox)
    rw [hmoves.prod_eq hrank] at hlt
    rw [cellAt_flatMap hcells hlt, sourceIndex_eq hrank hbox hmoved]

/-- The payload that is moved is moved back. -/
theorem Permuted.inverse {dims permuted : List UInt32} {size : Nat} {data out : List UInt8}
    (h : p.Permuted dims permuted size data out) :
    p.inverse.Permuted permuted dims size out data where
  rank := by rw [h.moves.1, h.rank, length_inverse]
  moves := h.moves.inverse
  length_data := by rw [h.moves.prod_eq h.rank, h.length_out]
  length_out := by rw [h.moves.prod_eq h.rank, h.length_data]
  cellAt := by
    intro coordinates moved hbox hmoves
    have hforth := hmoves.inverse
    rw [inverse_inverse] at hforth
    have hback := (h.moves.map UInt32.toNat).inverse.inBox hmoves
      (by rw [List.length_map, h.moves.1, h.rank, length_inverse]) hbox
    exact (h.cellAt moved coordinates hback hforth).symm

/-- Every cell of the result is the cell of some coordinates of the source. -/
theorem Permuted.unique {dims permuted permuted' : List UInt32} {size : Nat}
    {data out out' : List UInt8} (h : p.Permuted dims permuted size data out)
    (h' : p.Permuted dims permuted' size data out') : out = out' := by
  have hsame := h.moves.unique h'.moves h.rank
  subst hsame
  have hcells : ∀ k ∈ List.range (dims.map UInt32.toNat).prod,
      LayerGraph.cellAt size out k = LayerGraph.cellAt size out' k := by
    intro k hk
    have hlt := List.mem_range.mp hk
    rw [← h.moves.prod_eq h.rank] at hlt
    obtain ⟨coordinates, moved, hbox, hmoved, rfl⟩ :=
      (h.moves.map UInt32.toNat).exists_coordinates (by rw [List.length_map, h.rank]) hlt
    rw [h.cellAt coordinates moved hbox hmoved, h'.cellAt coordinates moved hbox hmoved]
  rw [← flatMap_cellAt h.length_out, ← flatMap_cellAt h'.length_out]
  exact List.flatMap_congr hcells

/-! ### Writing cell by cell -/

/-- Where the cell at some coordinates of the source is written: the sum of each coordinate times
    the stride of its destination. -/
def destination (p : Permutation) (dims : List UInt32) (coordinates : List Nat) : Nat :=
  ((coordinates.zip p.mappings).map fun (c, m) =>
    c * (rowMajorStrides ((p.arrange dims).map UInt32.toNat)).getD m.toNat 0).sum

/-- Where the cells of the source are written one after the other, while an odometer that starts at
    zero runs through their coordinates. -/
def writes (p : Permutation) (dims : List UInt32) : List Nat :=
  (visits (dims.map UInt32.toNat) (dims.map UInt32.toNat).prod
    (List.replicate dims.length 0)).map (p.destination dims)

/-- The cells of the source, each with the position it is written at. -/
def placed (p : Permutation) (dims : List UInt32) (size : Nat) (data : List UInt8) :
    List (Nat × List UInt8) :=
  (p.writes dims).mapIdx fun source position => (position, LayerGraph.cellAt size data source)

/-- The payload that is written cell by cell over zeros. -/
def scatter (p : Permutation) (dims : List UInt32) (size : Nat) (data : List UInt8) : List UInt8 :=
  ((p.placed dims size data).foldl (fun cells (position, cell) => cells.set position cell)
    (List.replicate (dims.map UInt32.toNat).prod (List.replicate size 0))).flatten

variable {dims permuted : List UInt32} {size : Nat} {data out : List UInt8}

theorem destination_eq {coordinates moved : List Nat} (hlen : coordinates.length = p.length)
    (hmoves : p.Moves coordinates moved) :
    p.destination dims coordinates =
      rowMajorIndex ((p.arrange dims).map UInt32.toNat) moved := by
  rw [destination, hmoves.sum_strides hlen, sum_strides]
  rw [length_rowMajorStrides, List.length_map, length_arrange]

/-- The odometer stands at the coordinates of one position after the other. -/
theorem writes_eq (p : Permutation) (dims : List UInt32) :
    p.writes dims = (List.range (dims.map UInt32.toNat).prod).map fun index =>
      p.destination dims (rowMajorCoordinates (dims.map UInt32.toNat) index) := by
  have hall : 0 + (dims.map UInt32.toNat).prod ≤ (dims.map UInt32.toNat).prod := by omega
  have hvisits := visits_rowMajorCoordinates hall
  rw [rowMajorCoordinates_zero, List.length_map] at hvisits
  rw [writes, hvisits, List.map_map, List.range_eq_range']
  rfl

/-- The cell at a position of the source is written at moved coordinates. -/
theorem exists_moved (hrank : dims.length = p.length) {index : Nat}
    (hindex : index < (dims.map UInt32.toNat).prod) :
    ∃ moved, p.Moves (rowMajorCoordinates (dims.map UInt32.toNat) index) moved ∧
      InBox ((p.arrange dims).map UInt32.toNat) moved ∧
      p.destination dims (rowMajorCoordinates (dims.map UInt32.toNat) index) =
        rowMajorIndex ((p.arrange dims).map UInt32.toNat) moved := by
  have hbox := inBox_rowMajorCoordinates hindex
  have hlen : (rowMajorCoordinates (dims.map UInt32.toNat) index).length = p.length := by
    rw [length_rowMajorCoordinates, List.length_map, hrank]
  have hmoves := moves_arrange hlen
  exact ⟨_, hmoves, ((moves_arrange hrank).map UInt32.toNat).inBox hmoves
    (by rwa [List.length_map]) hbox, destination_eq hlen hmoves⟩

/-- Every cell of the result is written once. -/
theorem writes_perm (hrank : dims.length = p.length) :
    (p.writes dims).Perm (List.range (dims.map UInt32.toNat).prod) := by
  rw [writes_eq]
  have hnodup : ((List.range (dims.map UInt32.toNat).prod).map fun index =>
      p.destination dims (rowMajorCoordinates (dims.map UInt32.toNat) index)).Nodup := by
    refine List.nodup_range.map_on ?_
    intro a ha b hb hab
    have ha := List.mem_range.mp ha
    have hb := List.mem_range.mp hb
    obtain ⟨moved, hmoves, hbox, hdest⟩ := exists_moved hrank ha
    obtain ⟨moved', hmoves', hbox', hdest'⟩ := exists_moved hrank hb
    -- The same position has the same coordinates, and they were moved from the same ones.
    rw [hdest, hdest'] at hab
    have hsame : moved = moved' := by
      rw [← rowMajorCoordinates_rowMajorIndex hbox, hab,
        rowMajorCoordinates_rowMajorIndex hbox']
    subst hsame
    have hlen : moved.length = p.inverse.length := by
      rw [hbox.length_eq, List.length_map, length_arrange, length_inverse]
    have hcoordinates := hmoves.inverse.unique hmoves'.inverse hlen
    rw [← rowMajorIndex_rowMajorCoordinates ha, hcoordinates,
      rowMajorIndex_rowMajorCoordinates hb]
  have hsub : (List.range (dims.map UInt32.toNat).prod).map (fun index =>
      p.destination dims (rowMajorCoordinates (dims.map UInt32.toNat) index)) ⊆
      List.range (dims.map UInt32.toNat).prod := by
    intro position hposition
    obtain ⟨index, hindex, rfl⟩ := List.mem_map.mp hposition
    obtain ⟨moved, -, hbox, hdest⟩ := exists_moved hrank (List.mem_range.mp hindex)
    rw [hdest, List.mem_range, ← (moves_arrange hrank).prod_eq hrank]
    exact rowMajorIndex_lt hbox
  refine (hnodup.subperm hsub).perm_of_length_le ?_
  rw [List.length_map]

/-- What is written at different places of a list stays there. -/
theorem getElem?_foldl_set {writes : List (Nat × α)} {xs : List α}
    (hnodup : (writes.map Prod.fst).Nodup) {position : Nat} {x : α}
    (hmem : (position, x) ∈ writes) (hlt : position < xs.length) :
    (writes.foldl (fun xs (position, x) => xs.set position x) xs)[position]? = some x := by
  -- Nothing behind the write to this position writes there again.
  have hkeep (later : List (Nat × α)) (ys : List α) (hlater : position ∉ later.map Prod.fst) :
      (later.foldl (fun xs (position, x) => xs.set position x) ys)[position]? = ys[position]? := by
    induction later generalizing ys with
    | nil => rfl
    | cons w later ih =>
      rw [List.map_cons, List.mem_cons, not_or] at hlater
      rw [List.foldl_cons, ih _ hlater.2, List.getElem?_set_ne (Ne.symm hlater.1)]
  induction writes generalizing xs with
  | nil => cases hmem
  | cons w writes ih =>
    rw [List.map_cons, List.nodup_cons] at hnodup
    rw [List.foldl_cons]
    rcases List.mem_cons.mp hmem with rfl | hmem
    · rw [hkeep writes _ hnodup.1, List.getElem?_set_self hlt]
    · exact ih hnodup.2 hmem (by rwa [List.length_set])

theorem length_foldl_set (writes : List (Nat × α)) (xs : List α) :
    (writes.foldl (fun xs (position, x) => xs.set position x) xs).length = xs.length := by
  induction writes generalizing xs with
  | nil => rfl
  | cons w writes ih => rw [List.foldl_cons, ih, List.length_set]

theorem map_fst_placed : (p.placed dims size data).map Prod.fst = p.writes dims := by
  apply List.ext_getElem?
  intro index
  rw [placed, List.getElem?_map, List.getElem?_mapIdx, Option.map_map]
  cases (p.writes dims)[index]? <;> rfl

/-- At every position the cell that belongs there is written. -/
theorem Permuted.mem_placed (h : p.Permuted dims permuted size data out) {position : Nat}
    (hposition : position < (dims.map UInt32.toNat).prod) :
    (position, LayerGraph.cellAt size out position) ∈ p.placed dims size data := by
  have hperm := writes_perm h.rank
  obtain ⟨index, hindex⟩ :=
    List.mem_iff_getElem?.mp (hperm.mem_iff.mpr (List.mem_range.mpr hposition))
  have hlt : index < (dims.map UInt32.toNat).prod := by
    have hlen := hperm.length_eq
    rw [List.length_range] at hlen
    rw [← hlen]
    exact (List.getElem?_eq_some_iff.mp hindex).1
  -- The cell that is written here comes from the coordinates that are moved here.
  have hcell : LayerGraph.cellAt size out position = LayerGraph.cellAt size data index := by
    obtain ⟨moved, hmoves, -, hdest⟩ := exists_moved h.rank hlt
    rw [writes_eq, List.getElem?_map, List.getElem?_range hlt, Option.map_some,
      Option.some.injEq, hdest, ← h.moves.eq_arrange h.rank] at hindex
    rw [← hindex, h.cellAt _ moved (inBox_rowMajorCoordinates hlt) hmoves,
      rowMajorIndex_rowMajorCoordinates hlt]
  apply List.mem_of_getElem? (i := index)
  rw [placed, List.getElem?_mapIdx, hindex, Option.map_some, hcell]

/-- Writing the cells one after the other gives the moved payload. -/
theorem Permuted.scatter_eq (h : p.Permuted dims permuted size data out) :
    p.scatter dims size data = out := by
  have hnodup : ((p.placed dims size data).map Prod.fst).Nodup := by
    rw [map_fst_placed, (writes_perm h.rank).nodup_iff]
    exact List.nodup_range
  have hcells : (p.placed dims size data).foldl (fun cells (position, cell) =>
        cells.set position cell)
      (List.replicate (dims.map UInt32.toNat).prod (List.replicate size 0)) =
      (List.range (dims.map UInt32.toNat).prod).map (LayerGraph.cellAt size out) := by
    apply List.ext_getElem?
    intro position
    by_cases hlt : position < (dims.map UInt32.toNat).prod
    · rw [getElem?_foldl_set hnodup (h.mem_placed hlt) (by rwa [List.length_replicate]),
        List.getElem?_map, List.getElem?_range hlt, Option.map_some]
    · rw [List.getElem?_eq_none, List.getElem?_eq_none]
      · simpa using hlt
      · rw [length_foldl_set, List.length_replicate]
        exact Nat.le_of_not_lt hlt
  rw [scatter, hcells, ← List.flatMap_def, flatMap_cellAt h.length_out]

/-! ### Back and forth -/

/-- A payload that can be moved back is moved back to what it was. -/
theorem Permuted.eq_of_inverse (h : p.Permuted dims permuted size data out)
    {back : List UInt8} (hback : p.inverse.permuteData permuted out size = .ok back) :
    back = data :=
  (permuted_of_permuteData hback).unique h.inverse

/-- With positive sizes it can be moved back. -/
theorem permuteData_inverse (h : p.permuteData dims data size = .ok out)
    (hpos : ∀ d ∈ dims, 0 < d) :
    p.inverse.permuteData (p.arrange dims) out size = .ok data := by
  have hpermuted := permuted_of_permuteData h
  obtain ⟨hrank, count, hcount, hfits, hdata, -, -⟩ := permuteData_eq_ok_iff.mp h
  have hprod := Shape.elementCount_ofDims hcount
  have hpos' : ∀ d ∈ dims, 0 < d.toNat := fun d hd => UInt32.lt_iff_toNat_lt.mp (hpos d hd)
  have hmoved := hpermuted.moves.prod_eq hrank
  have hcount' := Shape.elementCount_of_pos
    (fun d hd => hpos' d ((hpermuted.moves.perm hrank).mem_iff.mpr hd))
    (by rw [hmoved, ← hprod]; exact Shape.elementCount_lt hcount)
  -- The shape to go back to is the first one, whose strides are not above the number of elements.
  have hdims := hpermuted.inverse.moves.eq_arrange hpermuted.inverse.rank
  have hstrides : StridesFit (p.inverse.arrange (p.arrange dims)) := by
    rw [← hdims]
    exact stridesFit_of_pos hpos' (by rw [← hprod]; exact Shape.elementCount_lt hcount)
  have hexists : ∃ back, p.inverse.permuteData (p.arrange dims) out size = .ok back := by
    refine ⟨_, permuteData_eq_ok_iff.mpr
      ⟨hpermuted.inverse.rank, _, hcount', ?_, ?_, hstrides, rfl⟩⟩
    · rwa [hmoved, ← hprod]
    · rw [hmoved, hpermuted.length_out]
  obtain ⟨back, hback⟩ := hexists
  rw [hback, hpermuted.eq_of_inverse hback]

/-- A payload that is moved has the cell of each coordinates at the coordinates moved in the same
    way. Writing it cell by cell along the source writes every cell of it once. The inverse is a
    permutation again, whose inverse is the first one, and it moves the payload back if the sizes
    let it: always when they are positive. -/
theorem permuteData_spec {mappings : List UInt32} (hp : ofMappings mappings = .ok p)
    (h : p.permuteData dims data size = .ok out) :
    ∃ permuted, p.permuteShape dims = .ok permuted ∧
      (∀ coordinates, InBox (dims.map UInt32.toNat) coordinates →
        ∃ moved, InBox (permuted.map UInt32.toNat) moved ∧
          (∀ (i : Nat) (m : UInt32), mappings[i]? = some m →
            moved[m.toNat]? = coordinates[i]?) ∧
          cellAt size out (rowMajorIndex (permuted.map UInt32.toNat) moved) =
            cellAt size data (rowMajorIndex (dims.map UInt32.toNat) coordinates)) ∧
      (p.writes dims).Perm (List.range (dims.map UInt32.toNat).prod) ∧
      p.scatter dims size data = out ∧
      ofMappings p.inverse.mappings = .ok p.inverse ∧ p.inverse.inverse = p ∧
      (∀ back, p.inverse.permuteData permuted out size = .ok back → back = data) ∧
      ((∀ d ∈ dims, 0 < d) → p.inverse.permuteData permuted out size = .ok data) := by
  have hmappings := mappings_of_ofMappings hp
  have hpermuted := permuted_of_permuteData h
  refine ⟨p.arrange dims, permuteShape_eq_ok_iff.mpr ⟨hpermuted.rank, hpermuted.moves⟩, ?_,
    writes_perm hpermuted.rank, hpermuted.scatter_eq, ofMappings_mappings p.inverse,
    inverse_inverse p, fun back hback => hpermuted.eq_of_inverse hback, permuteData_inverse h⟩
  intro coordinates hbox
  have hlen : coordinates.length = p.length := by
    rw [hbox.length_eq, List.length_map, hpermuted.rank]
  have hmoves := moves_arrange hlen
  refine ⟨p.arrange coordinates, ?_, hmappings ▸ hmoves.2, hpermuted.cellAt _ _ hbox hmoves⟩
  exact (hpermuted.moves.map UInt32.toNat).inBox hmoves
    (by rw [List.length_map, hpermuted.rank]) hbox

/-- Three dimensions go round, and cells have two bytes. -/
theorem permuteData_spec_threeDimensions :
    ∃ p, ofMappings [2, 0, 1] = .ok p ∧
      p.permuteData [2, 1, 3] [0, 1, 2, 3, 4, 5, 6, 7, 8, 9, 10, 11] 2 =
        .ok [0, 1, 6, 7, 2, 3, 8, 9, 4, 5, 10, 11] ∧
      p.inverse.permuteData [1, 3, 2] [0, 1, 6, 7, 2, 3, 8, 9, 4, 5, 10, 11] 2 =
        .ok [0, 1, 2, 3, 4, 5, 6, 7, 8, 9, 10, 11] := by
  obtain ⟨p, hp⟩ : ∃ p, ofMappings [2, 0, 1] = .ok p := ⟨⟨[2, 0, 1], by decide, by decide⟩, rfl⟩
  have hmoved : p.permuteData [2, 1, 3] [0, 1, 2, 3, 4, 5, 6, 7, 8, 9, 10, 11] 2 =
      .ok [0, 1, 6, 7, 2, 3, 8, 9, 4, 5, 10, 11] := by
    cases hp
    decide +kernel
  obtain ⟨permuted, hshape, -, -, -, -, -, -, hback⟩ := permuteData_spec hp hmoved
  have hpermuted : p.permuteShape [2, 1, 3] = .ok [1, 3, 2] := by
    cases hp
    decide +kernel
  rw [hpermuted, Except.ok.injEq] at hshape
  subst hshape
  exact ⟨p, hp, hmoved, hback (by decide)⟩

end Permutation

end LayerGraph
