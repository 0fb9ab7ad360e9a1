import LayerGraph.Lowering.Plan

/-! # Plans of operators that move elements

  Reshapes, transpositions, joins, splits, slices and paddings. Their parameters come from
  constants of any length, so each plan checks that they cover the dimensions of the data.
-/

namespace LayerGraph

namespace Operation

variable (op : Operation)

/-! ### Reshapes -/

/-- The shape a reshape asks for: that of the options, else that of a constant second input,
    else that of the output. -/
def requestedShape : Planning (List Int) :=
  match op.options.newShape with
  | some (d :: rest) => return (d :: rest).map Int32.toInt
  | _ =>
    if op.inputs.length = 2 ∧ (op.tensor (op.input 1)).isConstant then op.ints (op.input 1)
    else do return (← op.dims (op.output 0)).map fun d => (d.toNat : Int)

/-- The same elements in a requested shape. -/
def planReshape : Planning Plan := do
  op.checkArity (.between 1 2) (.exactly 1)
  let requested ← op.requestedShape
  let elements ← op.elementCount (op.input 0)
  let target ← match reshapeTarget elements requested with
    | .ok target => pure target
    | .error cause => op.invalid (op.output 0) (.reshape cause)
  op.layer (.reshape target) (op.layerName "Reshape") [op.input 0]

/-- A dimension of size one added: a reshape to the shape of the output. -/
def planExpandDims : Planning Plan := do
  op.checkArity (.exactly 2) (.exactly 1)
  let target ← op.dims (op.output 0)
  let elements ← op.elementCount (op.input 0)
  let expanded ← match (Shape.ofDims target).elementCount with
    | .ok count => pure count
    | .error cause => op.invalid (op.output 0) (.tensor cause)
  if elements ≠ expanded then op.invalid (op.output 0) .countDiffers
  op.layer (.reshape target) (op.layerName "ExpandDims") [op.input 0]

/-- The listed dimensions removed, or all of size one when none is listed. -/
def squeezedDims (dims : List UInt32) (axes : List Nat) : List UInt32 :=
  (dims.zipIdx.filter fun (d, i) => if axes.isEmpty then d != 1 else !axes.contains i).map (·.1)

/-- Dimensions of size one removed. -/
def planSqueeze : Planning Plan := do
  op.checkArity (.exactly 1) (.exactly 1)
  let dims ← op.dims (op.input 0)
  let axes ← op.axesOf (op.input 0) (op.options.squeezeDims.map Int32.toInt) dims.length
  if let some axis := axes.find? fun a => dims[a]? != some 1 then
    op.invalid (op.input 0) (.notUnit (.ofNat axis))
  op.layer (.reshape (squeezedDims dims axes)) (op.layerName "Squeeze") op.inputs

/-- Dimensions moved by a permutation, or reversed when there is none. -/
def planTranspose : Planning Plan := do
  op.checkArity (.between 1 2) (.exactly 1)
  let mappings ← match op.inputs[1]? with
    | some permutation => op.sizes permutation
    | none => do
      let dims ← op.dims (op.input 0)
      pure ((List.range dims.length).reverse.map UInt32.ofNat)
  let mappings ← match Permutation.ofMappings mappings with
    | .ok mappings => pure mappings
    | .error cause => op.invalid (op.inputs.getD 1 (op.input 0)) (.tensor cause)
  op.layer (.transpose mappings) (op.layerName "Transpose") [op.input 0]

/-! ### Joins -/

/-- Tensors that follow each other along an axis. -/
structure Row where
  /-- Where the tensors start. -/
  origins : List (List UInt32) := []
  /-- Where the last one ends along the axis. -/
  stop : UInt32 := 0

/-- The row with one more tensor at its end. -/
def Row.add (rank axis : Nat) (row : Row) (size : UInt32) : Except Overflow Row := do
  let origin := (List.replicate rank (0 : UInt32)).set axis row.stop
  return ⟨row.origins ++ [origin], ← addSizes row.stop size⟩

/-- Size of a tensor along an axis; it must have as many dimensions as the output. -/
def joinedSize (rank axis tensor : Nat) : Planning UInt32 := do
  let dims ← op.dims tensor
  if dims.length ≠ rank then op.invalid tensor (.rankDiffers dims.length rank)
  return dims.getD axis 0

/-- The row with a tensor that is joined at its end. -/
def joinInto (rank axis : Nat) (row : Row) (tensor : Nat) : Planning Row := do
  let size ← op.joinedSize rank axis tensor
  (row.add rank axis size).mapError .overflow

/-- Tensors joined along an axis. -/
def planConcatenation : Planning Plan := do
  op.checkArity (.atLeast 1) (.exactly 1)
  let rank := (← op.dims (op.output 0)).length
  let axis ← op.axis (op.output 0) op.options.axis.toInt rank
  let row ← op.inputs.foldlM (op.joinInto rank axis) {}
  let params : ConcatParams := { axis := .ofNat axis, origins := row.origins }
  op.layer (.concat params) (op.layerName "Concatenation") op.inputs

/-- Whether a tensor has the given dimensions. -/
def hasDims (dims : List UInt32) (tensor : Nat) : Bool :=
  match op.dims tensor with
  | .ok found => found == dims
  | .error _ => false

/-- Tensors of one shape stacked along a new axis. -/
def planPack : Planning Plan := do
  op.checkArity (.atLeast 1) (.exactly 1)
  let dims ← op.dims (op.input 0)
  if let some tensor := (op.inputs.drop 1).find? fun t => !op.hasDims dims t then
    op.invalid tensor .shapesDiffer
  let axis ← op.axis (op.output 0) op.options.axis.toInt (dims.length + 1)
  let params : StackParams :=
    { axis := .ofNat axis, count := .ofNat op.inputs.length, inputShape := dims }
  op.layer (.stack params) (op.layerName "Pack") op.inputs

/-! ### Parts -/

/-- The plan of a layer that takes a tensor apart along an axis. -/
def planParts (tensor : Nat) (dims : List UInt32) (axis : Nat) (sizes : List UInt32)
    (label : String) : Planning Plan := do
  let row ← (sizes.foldlM (Row.add dims.length axis) {}).mapError .overflow
  let params : SplitterParams := { origins := row.origins, sizes := sizes.map (dims.set axis) }
  op.layer (.splitter params) (op.layerName label) [tensor]

/-- A tensor taken apart into equal parts. The inputs are the axis and the data. -/
def planSplit : Planning Plan := do
  let count := op.options.splitCount.toNat
  op.checkArity (.exactly 2) (.exactly count)
  if count = 0 then op.invalid (op.input 1) .noParts
  let dims ← op.dims (op.input 1)
  let axis ← op.axis (op.input 0) (← op.scalar (op.input 0)) dims.length
  let size := dims.getD axis 0
  if size.toNat % count ≠ 0 then op.invalid (op.input 1) (.unevenParts axis size count)
  op.planParts (op.input 1) dims axis (List.replicate count (size / op.options.splitCount)) "Split"

/-- The sizes with the open one, if there is one, as what the others leave of the total. -/
def closeSizes (total : UInt32) (sizes : List Int) : Except Overflow (List Int) := do
  if sizes.contains (-1) then
    -- The known sizes are not negative, so the difference has 64 bits as well.
    let known ← sumInt64 (sizes.filter (0 ≤ ·))
    return sizes.map fun s => if s = -1 then total.toNat - known else s
  else return sizes

/-- A tensor taken apart into parts of given sizes. The inputs are the data, the sizes, one
    of which may be left open as minus one, and the axis. -/
def planSplitV : Planning Plan := do
  let count := op.options.splitCount.toNat
  op.checkArity (.exactly 3) (.exactly count)
  let dims ← op.dims (op.input 0)
  let axis ← op.axis (op.input 2) (← op.scalar (op.input 2)) dims.length
  let requested ← op.ints (op.input 1)
  if requested.length ≠ count then op.invalid (op.input 1) (.partCount requested.length count)
  if 1 < requested.count (-1) ∨ requested.any (· < -1) then op.invalid (op.input 1) .openParts
  let total := dims.getD axis 0
  let sizes ← (closeSizes total requested).mapError .overflow
  if (← (sumInt64 sizes).mapError .overflow) ≠ total.toNat then
    op.invalid (op.input 1) (.partSum sizes total)
  op.planParts (op.input 0) dims axis (← op.sizesOf (op.input 1) sizes) "SplitV"

/-- The size of a box in one dimension, of which `size` is asked for; minus one asks for
    everything from the start on. -/
def boxSize (tensor : Nat) (size : Int) (start dim : UInt32) : Planning UInt32 :=
  if size = -1 then .ok (.ofNat (dim.toNat - start.toNat))
  else if 0 ≤ size ∧ size < 2 ^ 32 then .ok (.ofNat size.toNat)
  else op.invalid tensor (.notSize size)

/-- A box cut out of a tensor. The inputs are the data, the start and the size. -/
def planSlice : Planning Plan := do
  op.checkArity (.exactly 3) (.exactly 1)
  let dims ← op.dims (op.input 0)
  let start ← op.sizes (op.input 1)
  let requested ← op.ints (op.input 2)
  if start.length ≠ dims.length ∨ requested.length ≠ dims.length then
    op.invalid (op.input 0) .boxRank
  let size ← ((requested.zip start).zip dims).mapM fun ((size, start), dim) =>
    op.boxSize (op.input 2) size start dim
  op.layer (.slice { start := start, size := size }) (op.layerName "Slice") [op.input 0]

/-- Every so many elements of a box. The inputs are the data, the start, the end and the
    stride. -/
def planStridedSlice : Planning Plan := do
  op.checkArity (.exactly 4) (.exactly 1)
  let o := op.options
  let start ← op.signed (op.input 1)
  let stop ← op.signed (op.input 2)
  let stride ← op.signed (op.input 3)
  let params : StridedSliceParams :=
    { start := start, stop := stop, stride := stride, startMask := o.startMask
      stopMask := o.stopMask, shrinkMask := o.shrinkMask, ellipsisMask := o.ellipsisMask
      newAxisMask := o.newAxisMask }
  op.layer (.stridedSlice params) (op.layerName "StridedSlice") [op.input 0]

/-- Slices picked by index along the axis of the options. -/
def planGather : Planning Plan := do
  op.checkArity (.exactly 2) (.exactly 1)
  op.layer (.gather op.options.axis) (op.layerName "Gather") op.inputs

/-! ### Paddings -/

/-- The real number that a stored integer of a tensor stands for. -/
def dequantized (info : TensorInfo) (stored : Int) : Except Overflow Binary32 := do
  return .ofInt (← subtractInt32 stored info.offset.toInt) * info.scale

/-- The first value of a constant as a real number, for the element types that pad values
    may have. -/
def firstValue? (t : Constant) : Except Overflow (Option Binary32) :=
  match t.elementType with
  | .float32 | .float16 | .bFloat16 => return t.toBinary32.toOption.bind List.head?
  | .signed32 | .signed64 => return (t.toInts.toOption.bind List.head?).map .ofInt
  | .qAsymmU8 => t.data.head?.mapM fun b => dequantized t.info b.toNat
  | .qAsymmS8 | .qSymmS8 => t.data.head?.mapM fun b => dequantized t.info b.toInt8.toInt
  | .qSymmS16 | .boolean => return none

/-- The value that is added: the one given, else the zero point when one value is added to a
    quantized tensor, else zero. -/
def padValue (info : TensorInfo) (mode : PaddingMode) (given : Bool) : Planning Binary32 :=
  if given then do
    match ← (firstValue? (← op.constant (op.input 2))).mapError .overflow with
    | some value => return value
    | none => op.invalid (op.input 2) .padValue
  else if mode = .constant ∧ info.elementType.isQuantized then return .ofInt info.offset.toInt
  else return .zero

/-- Elements added around a tensor. The inputs are the data, the pairs of numbers of
    elements, and the value when it is given. -/
def planPad (label : String) (mode : PaddingMode) (given : Bool) : Planning Plan := do
  op.checkArity (.exactly (if given then 3 else 2)) (.exactly 1)
  let info ← op.info (op.input 0)
  let pads ← op.pairs (op.input 1)
  if pads.length ≠ info.shape.rank then
    op.invalid (op.input 1) (.padCount pads.length info.shape.rank)
  let value ← op.padValue info mode given
  op.layer (.pad { pads := pads, value := value, mode := mode }) (op.layerName label) [op.input 0]

end Operation

end LayerGraph
