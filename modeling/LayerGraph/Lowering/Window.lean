import LayerGraph.Model.Basic

/-! # Padding of images

  How many elements are added before and behind one dimension of an image, so that windows
  fit. The smaller half goes to the front.
-/

namespace LayerGraph

/-- Sizes of dimensions must fit in 32 bits. -/
def dimLimit : Nat := 2 ^ 32

/-- Distance from the first to the last element of a window, both counted. -/
def windowExtent (kernel dilation : Nat) : Nat := (max dilation 1 - 1) * (max kernel 1 - 1) + kernel

/-- Elements added before and behind a dimension of size `input`. The rule `same` keeps as
    many windows as strides fit in the dimension, the rule `valid` adds nothing. There is
    no padding when the padded size does not fit in 32 bits. -/
def padding? (input kernel stride dilation : UInt32) : PaddingRule → Option (UInt32 × UInt32)
  | .valid => some (0, 0)
  | .same =>
    let stride := max stride.toNat 1
    let count := (input.toNat + stride - 1) / stride
    let window := windowExtent kernel.toNat dilation.toNat
    let covered := (max count 1 - 1) * stride + window
    if window < dimLimit ∧ covered < dimLimit then
      let total := covered - input.toNat
      some (.ofNat (total / 2), .ofNat (total - total / 2))
    else none

end LayerGraph
