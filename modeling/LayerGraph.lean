import LayerGraph.Choice
import LayerGraph.Command.Arguments
import LayerGraph.Command.Directory
import LayerGraph.Command.Error
import LayerGraph.Command.Run
import LayerGraph.Command.Summary
import LayerGraph.Container.Codec
import LayerGraph.Container.Error
import LayerGraph.Container.Features
import LayerGraph.Container.Kinds
import LayerGraph.Container.Parameters
import LayerGraph.Container.Reader
import LayerGraph.Container.Tensors
import LayerGraph.Container.Writer
import LayerGraph.Graph.Basic
import LayerGraph.Graph.Choices
import LayerGraph.Graph.Error
import LayerGraph.Graph.GuidTable
import LayerGraph.Graph.Layer
import LayerGraph.Graph.LayerKind
import LayerGraph.Graph.Order
import LayerGraph.Graph.Parameters
import LayerGraph.Graph.Session
import LayerGraph.Instances
import LayerGraph.Json.Basic
import LayerGraph.Json.Printer
import LayerGraph.Json.Reader
import LayerGraph.Json.Record
import LayerGraph.Lowering.Assembly
import LayerGraph.Lowering.Error
import LayerGraph.Lowering.InPlace
import LayerGraph.Lowering.Operation
import LayerGraph.Lowering.Plan
import LayerGraph.Lowering.Plan.Elementwise
import LayerGraph.Lowering.Plan.Images
import LayerGraph.Lowering.Plan.OfOperator
import LayerGraph.Lowering.Plan.Reductions
import LayerGraph.Lowering.Plan.Shapes
import LayerGraph.Lowering.Reshape
import LayerGraph.Lowering.Verdict
import LayerGraph.Lowering.Window
import LayerGraph.Main
import LayerGraph.Model.Basic
import LayerGraph.Model.Document
import LayerGraph.Model.OperatorCode
import LayerGraph.Numeric.Binary
import LayerGraph.Numeric.Decimal
import LayerGraph.Numeric.FloatFormat
import LayerGraph.Numeric.LittleEndian
import LayerGraph.Numeric.Notation
import LayerGraph.Numeric.Overflow
import LayerGraph.Numeric.Scaling
import LayerGraph.Proofs.Container.Accepted
import LayerGraph.Proofs.Container.Adding
import LayerGraph.Proofs.Container.Boundaries
import LayerGraph.Proofs.Container.Codec
import LayerGraph.Proofs.Container.FeatureTable
import LayerGraph.Proofs.Container.Kinds
import LayerGraph.Proofs.Container.Layout
import LayerGraph.Proofs.Container.Parameters
import LayerGraph.Proofs.Container.Reading
import LayerGraph.Proofs.Container.Records
import LayerGraph.Proofs.Container.Renumbering
import LayerGraph.Proofs.Container.Rewriting
import LayerGraph.Proofs.Container.RoundTrip
import LayerGraph.Proofs.Container.Soundness
import LayerGraph.Proofs.Container.Tensors
import LayerGraph.Proofs.Container.Truncation
import LayerGraph.Proofs.Container.Writing
import LayerGraph.Proofs.Graph.Alike
import LayerGraph.Proofs.Graph.Arrangement
import LayerGraph.Proofs.Graph.Coherence
import LayerGraph.Proofs.Graph.Connecting
import LayerGraph.Proofs.Graph.Contents
import LayerGraph.Proofs.Graph.Continuing
import LayerGraph.Proofs.Graph.Growth
import LayerGraph.Proofs.Graph.Identities
import LayerGraph.Proofs.Graph.Isomorphism
import LayerGraph.Proofs.Graph.Reachability
import LayerGraph.Proofs.Graph.Restoring
import LayerGraph.Proofs.Graph.Rollback
import LayerGraph.Proofs.Graph.Search
import LayerGraph.Proofs.Graph.Session
import LayerGraph.Proofs.Graph.Slots
import LayerGraph.Proofs.Graph.TopologicalOrder
import LayerGraph.Proofs.Json.Layout
import LayerGraph.Proofs.Json.Numbers
import LayerGraph.Proofs.Json.Records
import LayerGraph.Proofs.Lowering.Acceptance
import LayerGraph.Proofs.Lowering.Assembly
import LayerGraph.Proofs.Lowering.Coverage
import LayerGraph.Proofs.Lowering.Drawn
import LayerGraph.Proofs.Lowering.Elements
import LayerGraph.Proofs.Lowering.Failures
import LayerGraph.Proofs.Lowering.Faults
import LayerGraph.Proofs.Lowering.Fusion
import LayerGraph.Proofs.Lowering.InPlace
import LayerGraph.Proofs.Lowering.Joins
import LayerGraph.Proofs.Lowering.Layout
import LayerGraph.Proofs.Lowering.Omissions
import LayerGraph.Proofs.Lowering.Origins
import LayerGraph.Proofs.Lowering.Persistence
import LayerGraph.Proofs.Lowering.Planners
import LayerGraph.Proofs.Lowering.Plans
import LayerGraph.Proofs.Lowering.Producers
import LayerGraph.Proofs.Lowering.Ranks
import LayerGraph.Proofs.Lowering.Reordering
import LayerGraph.Proofs.Lowering.Reshape
import LayerGraph.Proofs.Lowering.Resolved
import LayerGraph.Proofs.Lowering.Roles
import LayerGraph.Proofs.Lowering.Rows
import LayerGraph.Proofs.Lowering.Run
import LayerGraph.Proofs.Lowering.Signatures
import LayerGraph.Proofs.Lowering.Splicing
import LayerGraph.Proofs.Lowering.Splits
import LayerGraph.Proofs.Lowering.Steps
import LayerGraph.Proofs.Lowering.Support
import LayerGraph.Proofs.Lowering.Window
import LayerGraph.Proofs.Model.Document
import LayerGraph.Proofs.Numeric.Arithmetic
import LayerGraph.Proofs.Numeric.Confusion
import LayerGraph.Proofs.Numeric.LittleEndian
import LayerGraph.Proofs.Numeric.Narrowing
import LayerGraph.Proofs.Numeric.Neighbours
import LayerGraph.Proofs.Numeric.Order
import LayerGraph.Proofs.Numeric.Overflow
import LayerGraph.Proofs.Numeric.Rounding
import LayerGraph.Proofs.Numeric.Shortest
import LayerGraph.Proofs.Outcome
import LayerGraph.Proofs.ProducersFirst
import LayerGraph.Proofs.Quantize.Biases
import LayerGraph.Proofs.Quantize.Constants
import LayerGraph.Proofs.Quantize.Counterparts
import LayerGraph.Proofs.Quantize.Descriptors
import LayerGraph.Proofs.Quantize.Independence
import LayerGraph.Proofs.Quantize.Kinds
import LayerGraph.Proofs.Quantize.NamedRanges
import LayerGraph.Proofs.Quantize.Recording
import LayerGraph.Proofs.Quantize.Rewriting
import LayerGraph.Proofs.Quantize.Simulation
import LayerGraph.Proofs.Quantize.StaticRanges
import LayerGraph.Proofs.Quantize.Values
import LayerGraph.Proofs.Tensor.Consistency
import LayerGraph.Proofs.Tensor.Constant
import LayerGraph.Proofs.Tensor.DepthwiseInverse
import LayerGraph.Proofs.Tensor.DepthwiseLayout
import LayerGraph.Proofs.Tensor.Permutation
import LayerGraph.Proofs.Tensor.RowMajor
import LayerGraph.Proofs.Tensor.Scales
import LayerGraph.Proofs.Text.Utf8
import LayerGraph.Quantize.Counterpart
import LayerGraph.Quantize.Error
import LayerGraph.Quantize.Extent
import LayerGraph.Quantize.Ranges
import LayerGraph.Quantize.Scheme
import LayerGraph.Quantize.StaticRanges
import LayerGraph.Tensor.Constant
import LayerGraph.Tensor.DepthwiseLayout
import LayerGraph.Tensor.ElementType
import LayerGraph.Tensor.Error
import LayerGraph.Tensor.Info
import LayerGraph.Tensor.Permutation
import LayerGraph.Text.Utf8
