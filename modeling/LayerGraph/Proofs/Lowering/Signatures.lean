import LayerGraph.Proofs.Lowering.Elements
import LayerGraph.Proofs.Lowering.Splits

/-! # Signatures of operators

  What an input is to its operator follows from its place: weights come second, biases behind them.
  The table `OperatorCode.signature` says so for all operators, and `Operation.Fills` says what a
  plan must hold for a tensor to have a role in it: the data is read by a slot of the primary layer,
  and everything else is in the parameters and constants of its kind.

  A plan is in order when the tensors of the operation play the roles of a signature one after the
  other. One layer is in order when each of its parameters comes from the tensor whose turn it is
  (`layer_inOrder_optional`), and neither a reshape in front nor a fused activation behind changes
  this (`Plan.Connects.reshapeInput`, `fused_inOrder`).
-/

namespace LayerGraph

/-! ### Signatures -/

/-- What an input is to its operator. -/
inductive Role where
  /-- Data that a slot of the layer reads. -/
  | operand (slot : Nat)
  /-- The weights of the layer. -/
  | weights
  /-- Its biases. -/
  | biases
  /-- The axis worked along. -/
  | axis
  /-- The axes reduced. -/
  | axes
  /-- The axis of a new dimension. -/
  | newAxis
  /-- The shape taken on. -/
  | targetShape
  /-- Where dimensions are moved. -/
  | permutation
  /-- The shape of the result of a convolution run backwards. -/
  | outputShape
  /-- Rows and columns of a resampled image. -/
  | imageSize
  /-- Size of a block in each dimension. -/
  | blockShape
  /-- Elements removed or added where blocks and batches are exchanged. -/
  | borders
  /-- Elements added around a tensor. -/
  | paddings
  /-- The value that is added. -/
  | padValue
  /-- First element of a box. -/
  | start
  /-- Size of a box. -/
  | boxSize
  /-- Where a box stops. -/
  | stop
  /-- Distance of the elements taken from a box. -/
  | stride
  /-- Sizes of the parts of a tensor. -/
  | partSizes
deriving DecidableEq, Repr

/-- The roles of the inputs of an operator, by their places. -/
inductive Signature where
  /-- Roles that must be played, and perhaps one more behind them. -/
  | fixed (required : List Role) (optional : Option Role)
  /-- Operands, at least so many. -/
  | operands (least : Nat)
deriving DecidableEq, Repr

namespace Signature

/-- The role at a place. -/
def role? : Signature → Nat → Option Role
  | fixed required optional, k => (required ++ optional.toList)[k]?
  | operands _, k => some (.operand k)

/-- The number of roles that must be played. -/
def least : Signature → Nat
  | fixed required _ => required.length
  | operands least => least

/-- The numbers of inputs. -/
def arity : Signature → Arity
  | fixed required optional => .between required.length (required ++ optional.toList).length
  | operands least => .atLeast least

end Signature

/-- The signature of an operator. Those that are not named read the data alone. -/
def OperatorCode.signature : OperatorCode → Signature
  | .add | .sub | .mul | .div | .maximum | .minimum | .equal | .notEqual | .greater
  | .greaterEqual | .less | .lessEqual | .gather | .prelu =>
    .fixed [.operand 0, .operand 1] none
  | .argMax | .argMin => .fixed [.operand 0, .axis] none
  | .mean | .reduceMax | .reduceMin | .reduceProd | .sum => .fixed [.operand 0, .axes] none
  | .conv2d | .depthwiseConv2d | .fullyConnected => .fixed [.operand 0, .weights] (some .biases)
  | .transposeConv => .fixed [.outputShape, .weights, .operand 0] (some .biases)
  | .batchToSpaceNd | .spaceToBatchNd => .fixed [.operand 0, .blockShape, .borders] none
  | .pad | .mirrorPad => .fixed [.operand 0, .paddings] none
  | .padV2 => .fixed [.operand 0, .paddings, .padValue] none
  | .reshape => .fixed [.operand 0] (some .targetShape)
  | .expandDims => .fixed [.operand 0, .newAxis] none
  | .resizeBilinear | .resizeNearestNeighbor => .fixed [.operand 0, .imageSize] none
  | .slice => .fixed [.operand 0, .start, .boxSize] none
  | .stridedSlice => .fixed [.operand 0, .start, .stop, .stride] none
  | .split => .fixed [.axis, .operand 0] none
  | .splitV => .fixed [.operand 0, .partSizes, .axis] none
  | .transpose => .fixed [.operand 0] (some .permutation)
  | .concatenation | .pack => .operands 1
  | .other _ => .operands 0
  | _ => .fixed [.operand 0] none

/-! ### What a plan holds in a role -/

/-- The tensor that a slot of the primary layer reads, directly or through a reshape. -/
def Plan.operand? (plan : Plan) (slot : Nat) : Option Nat :=
  match plan.inputs[slot]? with
  | some (.tensor t) => some t
  | some (.reshape r) => plan.reshapes[r]?.map (·.1)
  | none => none

/-- Whether the parameters of a layer that may have biases say that it has some, and the biases. -/
def LayerKind.biased? : LayerKind → Option (Bool × Option Constant)
  | .convolution p _ biases | .depthwiseConvolution p _ biases => some (p.hasBias, biases)
  | .fullyConnected p _ biases => some (p.hasBias, biases)
  | .transposeConvolution p _ biases => some (p.hasBias, biases)
  | _ => none

namespace Operation

/-- The first operand of the plan has the sizes. -/
def ReadsDims (op : Operation) (plan : Plan) (dims : List UInt32) : Prop :=
  ∃ data, plan.operand? 0 = some data ∧ op.dims data = .ok dims

/-- A reshape of the first operand to what is requested has the target. -/
def Targets (op : Operation) (plan : Plan) (requested : List Int) (target : List UInt32) : Prop :=
  ∃ data elements, plan.operand? 0 = some data ∧ op.elementCount data = .ok elements ∧
    reshapeTarget elements requested = .ok target

/-- The margins of windows on the first operand come from the sizes of a kernel. -/
def ConvolvesWith (op : Operation) (plan : Plan) (image kernel : Dims4) (weights : Nat) : Prop :=
  (∃ data, plan.operand? 0 = some data ∧ op.dims4 data = .ok image) ∧
    op.dims4 weights = .ok kernel

/-- Parts of the sizes, one behind the other along an axis of a tensor. -/
def partsAlong (dims : List UInt32) (axis : Nat) (sizes : List UInt32) : SplitterParams :=
  { origins := originsOf dims.length axis sizes, sizes := sizes.map (dims.set axis) }

/-- What a plan whose primary layer has the kind holds in a role is what the tensor says. A shape is
    asked for only when the options give none, and only when it is constant. The axis of a new
    dimension is never asked for: the shape of the output has it. -/
def Fills (op : Operation) (plan : Plan) (t : Nat) : Role → LayerKind → Prop
  | .operand slot, _ => plan.operand? slot = some t
  | .weights, .convolution p weights _ => op.constant t = .ok weights ∧
    ∃ image kernel, op.ConvolvesWith plan image kernel t ∧ op.convolutionParams image kernel = .ok p
  | .weights, .depthwiseConvolution p weights _ => ∃ stored image kernel,
    op.constant t = .ok stored ∧ op.ConvolvesWith plan image kernel t ∧
    stored.depthwiseToMihw image.inner = .ok weights ∧ op.convolutionParams image kernel = .ok p
  | .weights, .transposeConvolution p weights _ => op.constant t = .ok weights ∧
    ∃ data image kernel, op.ConvolvesWith plan image kernel t ∧
      op.marginsOf data image ⟨kernel.height, op.options.strideH, 1⟩
        ⟨kernel.width, op.options.strideW, 1⟩ = .ok p.margins
  | .weights, .fullyConnected _ weights _ => op.constant t = .ok weights
  | .biases, kind => ∃ biases, op.constant t = .ok biases ∧ kind.biased? = some (true, some biases)
  | .axis, .argMinMax p => op.scalar t = .ok p.axis.toInt
  | .axis, .splitter p => ∃ value dims axis sizes, op.scalar t = .ok value ∧
    op.ReadsDims plan dims ∧ op.axis t value dims.length = .ok axis ∧ p = partsAlong dims axis sizes
  | .axes, .mean p => ∃ data, plan.operand? 0 = some data ∧ op.axes data t = .ok p.axes
  | .axes, .reduce p => ∃ data, plan.operand? 0 = some data ∧ op.axes data t = .ok p.axes
  | .newAxis, .reshape target => op.dims (op.output 0) = .ok target
  | .targetShape, .reshape target => op.options.newShape.getD [] = [] →
    (op.tensor t).isConstant = true →
    ∃ requested, op.ints t = .ok requested ∧ op.Targets plan requested target
  | .permutation, .transpose p => op.sizes t = .ok p.mappings
  | .outputShape, .transposeConvolution p _ _ => op.sizes t = .ok p.outputShape
  | .imageSize, .resize p => op.sizes t = .ok [p.height, p.width]
  | .blockShape, .batchToSpace p | .blockShape, .spaceToBatch p => op.sizes t = .ok p.blockShape
  | .borders, .batchToSpace p | .borders, .spaceToBatch p => op.pairs t = .ok p.borders
  | .paddings, .pad p => op.pairs t = .ok p.pads
  | .padValue, .pad p => ∃ c, op.constant t = .ok c ∧
    firstValue? c = .ok (some p.value)
  | .start, .slice p => op.sizes t = .ok p.start
  | .boxSize, .slice p => ∃ requested dims, op.ints t = .ok requested ∧ op.ReadsDims plan dims ∧
    ((requested.zip p.start).zip dims).mapM (fun ((size, start), dim) =>
      op.boxSize t size start dim) = .ok p.size
  | .start, .stridedSlice p => op.signed t = .ok p.start
  | .stop, .stridedSlice p => op.signed t = .ok p.stop
  | .stride, .stridedSlice p => op.signed t = .ok p.stride
  | .partSizes, .splitter p => ∃ requested dims axis closed sizes, op.ints t = .ok requested ∧
    op.ReadsDims plan dims ∧ closeSizes (dims.getD axis 0) requested = .ok closed ∧
    op.sizesOf t closed = .ok sizes ∧ p = partsAlong dims axis sizes
  | _, _ => False

/-- What such a plan holds in a role that is left out. Without a shape it is that of the options or
    of the output, and without a permutation the dimensions are reversed. -/
def DoesWithout (op : Operation) (plan : Plan) : Role → LayerKind → Prop
  | .operand slot, _ => plan.operand? slot = none
  | .biases, kind => kind.biased? = some (false, none)
  | .targetShape, .reshape target => op.options.newShape.getD [] = [] →
    ∃ dims, op.dims (op.output 0) = .ok dims ∧
      op.Targets plan (dims.map fun d => (d.toNat : Int)) target
  | .permutation, .transpose p => ∃ dims, op.ReadsDims plan dims ∧
    p.mappings = (List.range dims.length).reverse.map UInt32.ofNat
  | _, _ => False

/-- A tensor plays a role in a plan, or the role is left out when there is none. -/
def Plays (op : Operation) (plan : Plan) (kind : LayerKind) (role : Role) : Option Nat → Prop
  | some t => op.Fills plan t role kind
  | none => op.DoesWithout plan role kind

/-- The roles of a signature are played by the tensors at their places. -/
structure Assigned (op : Operation) (s : Signature) (tensors : Nat → Option Nat) (plan : Plan) :
    Prop where
  plays : ∀ k role, s.role? k = some role →
    op.Plays plan plan.primary.kind role (tensors k)
  /-- A tensor is where there is a role. -/
  known : ∀ k t, tensors k = some t → ∃ role, s.role? k = some role
  /-- A role that must be played is. -/
  required : ∀ k < s.least, ∃ t, tensors k = some t

/-- The roles are played by the tensors of the operation in order. -/
abbrev InOrder (op : Operation) (s : Signature) (plan : Plan) : Prop :=
  op.Assigned s (op.inputs[·]?) plan

end Operation

/-! ### Slots and the tensors they read -/

/-- The slots of the primary layer read the tensors in order. -/
structure Plan.Connects (plan : Plan) (tensors : List Nat) : Prop where
  operand? : ∀ slot, plan.operand? slot = tensors[slot]?
  /-- A slot that is fed through a reshape is fed through one of the plan. -/
  slots : ∀ r, SlotSource.reshape r ∈ plan.inputs → r < plan.reshapes.length

/-- A reshape in front of a slot leaves every slot its tensor. -/
theorem Plan.Connects.reshapeInput {plan : Plan} {tensors : List Nat} {slot t : Nat}
    {info : TensorInfo} {target : List UInt32} (h : plan.Connects tensors)
    (ht : tensors[slot]? = some t) : (plan.reshapeInput slot t info target).Connects tensors where
  operand? := by
    intro k
    have hread := h.operand? slot
    rw [ht] at hread
    rw [← h.operand? k]
    unfold Plan.operand? Plan.reshapeInput at *
    dsimp only
    by_cases hk : k = slot
    -- The slot reads the new reshape, and this one reads what the slot has read so far.
    · subst hk
      cases hsource : plan.inputs[k]? with
      | none =>
        rw [hsource] at hread
        cases hread
      | some source =>
        rw [List.getElem?_set_self (List.getElem?_eq_some_iff.mp hsource).1, ← hsource, hread]
        dsimp only
        rw [List.getElem?_append_right (Nat.le_refl _), Nat.sub_self]
        rfl
    · rw [List.getElem?_set_ne (Ne.symm hk)]
      cases hsource : plan.inputs[k]? with
      | none => rfl
      | some source =>
        cases source with
        | tensor t => rfl
        | reshape r =>
          -- A reshape of another slot is an older one, so it keeps its place.
          dsimp only
          rw [List.getElem?_append_left (h.slots r (List.mem_of_getElem? hsource))]
  slots := by
    intro r hr
    show r < (plan.reshapes ++ [_]).length
    rw [List.length_append, List.length_singleton]
    obtain hold | hnew := List.mem_or_eq_of_mem_set hr
    · exact Nat.lt_succ_of_lt (h.slots r hold)
    · cases hnew
      exact Nat.lt_succ_self _

namespace Operation

open Planning

variable {op : Operation} {plan : Plan} {kind : LayerKind} {name : String} {connected : List Nat}
variable {s : Signature} {required : List Role} {optional : Option Role} {k n : Nat}

/-- One layer reads the tensors that it is connected to. -/
theorem layer_connects (h : op.layer kind name connected = .ok plan) :
    plan.primary.kind = kind ∧ plan.Connects connected := by
  obtain ⟨inputs, outputs, -, -, rfl⟩ := layer_eq_ok h
  refine ⟨rfl, ?_, ?_⟩
  · intro slot
    unfold Plan.operand?
    dsimp only
    rw [List.getElem?_map]
    cases connected[slot]? <;> rfl
  · intro r hr
    obtain ⟨t, -, heq⟩ := List.mem_map.mp hr
    cases heq

theorem getElem?_inputs (h : k < op.inputs.length) : op.inputs[k]? = some (op.input k) := by
  rw [input, List.getD_eq_getElem?_getD, List.getElem?_eq_getElem h, Option.getD_some]

/-- A layer that reads all tensors of the operation reads each in the slot at its place. -/
theorem operand?_eq_input (h : plan.Connects op.inputs) (hk : k < op.inputs.length) :
    plan.operand? k = some (op.input k) :=
  (h.operand? k).trans (getElem?_inputs hk)

/-! ### Roles in order -/

theorem allows_between_iff {least most : Nat} :
    (Arity.between least most).allows n = true ↔ least ≤ n ∧ n ≤ most := by
  show (decide (least ≤ n) && decide (n ≤ most)) = true ↔ _
  rw [Bool.and_eq_true, decide_eq_true_eq, decide_eq_true_eq]

/-- As many tensors as there are roles for have one each, and those that must be played are. -/
theorem inOrder_of_plays (hin : s.arity.allows op.inputs.length = true)
    (hplays : ∀ k role, s.role? k = some role →
      op.Plays plan plan.primary.kind role op.inputs[k]?) : op.InOrder s plan where
  plays := hplays
  known := by
    intro k t ht
    have hk := (List.getElem?_eq_some_iff.mp ht).1
    cases s with
    | fixed required optional =>
      have hmost := (allows_between_iff.mp hin).2
      exact ⟨_, List.getElem?_eq_getElem (Nat.lt_of_lt_of_le hk hmost)⟩
    | operands least => exact ⟨_, rfl⟩
  required := by
    intro k hk
    have hleast : s.least ≤ op.inputs.length := by
      cases s with
      | fixed required optional => exact (allows_between_iff.mp hin).1
      | operands least => exact least_le_of_allows hin
    exact ⟨_, getElem?_inputs (Nat.lt_of_lt_of_le hk hleast)⟩

/-- The tensors from a place on fill the roles one after the other. -/
def FillInTurn (op : Operation) (plan : Plan) (kind : LayerKind) : Nat → List Role → Prop
  | _, [] => True
  | k, role :: roles => op.Fills plan (op.input k) role kind ∧
    FillInTurn op plan kind (k + 1) roles

theorem FillInTurn.fills {roles : List Role} {role : Role} {i : Nat}
    (h : op.FillInTurn plan kind k roles) (hrole : roles[i]? = some role) :
    op.Fills plan (op.input (k + i)) role kind := by
  induction roles generalizing k i with
  | nil => cases hrole
  | cons first roles ih =>
    cases i with
    | zero =>
      cases hrole
      exact h.1
    | succ i =>
      have hi : k + (i + 1) = k + 1 + i := by omega
      rw [hi]
      exact ih h.2 hrole

/-- Roles that must be played, and the one behind them. -/
theorem inOrder_fixed (hin : (Signature.fixed required optional).arity.allows op.inputs.length = true)
    (hfill : op.FillInTurn plan plan.primary.kind 0 required)
    (hoptional : ∀ role ∈ optional,
      op.Plays plan plan.primary.kind role op.inputs[required.length]?) :
    op.InOrder (.fixed required optional) plan := by
  apply inOrder_of_plays hin
  intro k role hrole
  rw [Signature.role?] at hrole
  by_cases hk : k < required.length
  · rw [List.getElem?_append_left hk] at hrole
    have hleast : required.length ≤ op.inputs.length := (allows_between_iff.mp hin).1
    rw [getElem?_inputs (Nat.lt_of_lt_of_le hk hleast)]
    have hfills := hfill.fills hrole
    rwa [Nat.zero_add] at hfills
  · rw [List.getElem?_append_right (Nat.le_of_not_lt hk)] at hrole
    cases optional with
    | none => cases hrole
    | some last =>
      -- There is no place behind that of the last role.
      have hlast : k - required.length = 0 := by
        have hlt := (List.getElem?_eq_some_iff.mp hrole).1
        rw [Option.toList_some, List.length_singleton] at hlt
        omega
      rw [hlast] at hrole
      cases hrole
      obtain rfl : k = required.length := by omega
      exact hoptional role rfl

/-- One layer whose parameters come from the tensors in order, the last of which may be left out. -/
theorem layer_inOrder_optional
    (hin : (Signature.fixed required optional).arity.allows op.inputs.length = true)
    (h : ∀ plan : Plan, plan.Connects connected → op.FillInTurn plan kind 0 required ∧
      ∀ role ∈ optional, op.Plays plan kind role op.inputs[required.length]?) :
    (op.layer kind name connected).Yields (op.InOrder (.fixed required optional)) := by
  intro plan hplan
  obtain ⟨rfl, hconnects⟩ := layer_connects hplan
  obtain ⟨hfill, hoptional⟩ := h plan hconnects
  exact inOrder_fixed hin hfill hoptional

theorem layer_inOrder (hin : (Signature.fixed required none).arity.allows op.inputs.length = true)
    (h : ∀ plan : Plan, plan.Connects connected → op.FillInTurn plan kind 0 required) :
    (op.layer kind name connected).Yields (op.InOrder (.fixed required none)) :=
  layer_inOrder_optional hin fun plan hplan => ⟨h plan hplan, nofun⟩

/-- A fused activation reads no tensor and takes nothing from the primary layer. -/
theorem fused_inOrder {x : Planning Plan} (h : x.Yields (op.InOrder s)) :
    Yields (x >>= op.fuse) (op.InOrder s) := by
  refine h.andThen fun plan hplan plan' hfuse => ?_
  obtain rfl | ⟨params, name, rfl⟩ := fuse_eq_ok hfuse
  · exact hplan
  · exact ⟨hplan.plays, hplan.known, hplan.required⟩

end Operation

end LayerGraph
