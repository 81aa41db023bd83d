import ShaderChain.Binding.Binder
import ShaderChain.Binding.Layout
import ShaderChain.Binding.Reflection
import ShaderChain.Binding.Semantic
import ShaderChain.Binding.StageMask
import ShaderChain.Binding.SymbolTable
import ShaderChain.Compiled.Basic
import ShaderChain.Compiled.Document
import ShaderChain.Compiled.Usage
import ShaderChain.Compiler.Backend
import ShaderChain.Compiler.Compile
import ShaderChain.Compiler.Error
import ShaderChain.Config.Compiler
import ShaderChain.Config.Reading
import ShaderChain.Config.Scheduler
import ShaderChain.FilePath
import ShaderChain.FileStore
import ShaderChain.Frame.History
import ShaderChain.Frame.Numbered
import ShaderChain.Frame.Pair
import ShaderChain.Frame.Plan
import ShaderChain.Frame.Run
import ShaderChain.Frame.Scheduler
import ShaderChain.Frame.Sizing
import ShaderChain.Frame.Target
import ShaderChain.Graph.Assembly
import ShaderChain.Graph.Basic
import ShaderChain.Graph.Groups
import ShaderChain.Json.Number
import ShaderChain.Json.Reader
import ShaderChain.Json.Value
import ShaderChain.Json.Writer
import ShaderChain.Lut
import ShaderChain.Named
import ShaderChain.Path
import ShaderChain.PixelFormat
import ShaderChain.Preset.Build
import ShaderChain.Preset.Model
import ShaderChain.Preset.Scale
import ShaderChain.Preset.Scan
import ShaderChain.Preset.Values
import ShaderChain.Sampling
import ShaderChain.Single.Arithmetic
import ShaderChain.Single.Basic
import ShaderChain.Single.Decimal
import ShaderChain.Single.Round
import ShaderChain.Single.Shortest
import ShaderChain.Size
import ShaderChain.Source.Annotation
import ShaderChain.Source.Declaration
import ShaderChain.Source.Digest
import ShaderChain.Source.Directive
import ShaderChain.Source.Expansion
import ShaderChain.Source.Line
import ShaderChain.Stage
import ShaderChain.Text.Numeral
import ShaderChain.Text.Pieces
import ShaderChain.Text.Space
import ShaderChain.Toml.Quoted
import ShaderChain.Toml.Reader
import ShaderChain.Toml.Scalar
import ShaderChain.Toml.Value
import ShaderChain.Proofs.Frame.Request
import ShaderChain.Proofs.Frame.Allocation
import ShaderChain.Proofs.Frame.Planning
import ShaderChain.Proofs.Frame.Step
import ShaderChain.Proofs.Frame.Agreement
import ShaderChain.Proofs.Frame.Refusal
import ShaderChain.Proofs.Graph.Numbering
import ShaderChain.Proofs.Binding.Causality
import ShaderChain.Proofs.Compiler.WellFormed
import ShaderChain.Proofs.Frame.Run
import ShaderChain.Proofs.Frame.Ring
import ShaderChain.Proofs.Frame.Input
import ShaderChain.Proofs.Binding.Acceptance
import ShaderChain.Proofs.Source.Derivation
import ShaderChain.Proofs.Source.Attribution
import ShaderChain.Proofs.Source.Declared
import ShaderChain.Proofs.Source.Stream
import ShaderChain.Proofs.Source.Reading
import ShaderChain.Proofs.Frame.Distinct
import ShaderChain.Proofs.Frame.Lag
import ShaderChain.Proofs.Frame.Ownership
import ShaderChain.Proofs.Text.Bytes
import ShaderChain.Proofs.Text.Numeral
import ShaderChain.Proofs.Text.Pieces
import ShaderChain.Proofs.Text.Runs
import ShaderChain.Proofs.Text.Words
import ShaderChain.Proofs.Single.Round
import ShaderChain.Proofs.Single.Decimal
import ShaderChain.Proofs.Json.Number
import ShaderChain.Proofs.Json.Numeral
import ShaderChain.Proofs.Single.Shortest
import ShaderChain.Proofs.Json.Text
import ShaderChain.Proofs.Json.RoundTrip
import ShaderChain.Proofs.Json.Record
import ShaderChain.Proofs.Compiled.Document
import ShaderChain.Proofs.Binding.Fits
import ShaderChain.Proofs.Compiler.Persistence
import ShaderChain.Proofs.Frame.Presence
import ShaderChain.Proofs.FirstError
import ShaderChain.Proofs.Duplicates
import ShaderChain.Proofs.Graph.Conflict
import ShaderChain.Proofs.Graph.Partition
import ShaderChain.Proofs.FilePath
import ShaderChain.Proofs.Path
import ShaderChain.Proofs.Path.Canonical
import ShaderChain.Proofs.Source.Completeness
import ShaderChain.Proofs.Source.Bytes
import ShaderChain.Proofs.Source.Exchange
import ShaderChain.Proofs.Source.Repetition
import ShaderChain.Proofs.Graph.Redeclaration
import ShaderChain.Proofs.Compiler.FirstFailure
import ShaderChain.Proofs.Frame.Repeated
import ShaderChain.Proofs.Binding.OffsetTable
import ShaderChain.Proofs.Binding.Overlap
import ShaderChain.Proofs.Binding.Images
import ShaderChain.Proofs.Binding.Given
import ShaderChain.Proofs.Binding.Positional
import ShaderChain.Proofs.Binding.Sizes
import ShaderChain.Proofs.Graph.Identity
import ShaderChain.Proofs.Compiled.Usage
import ShaderChain.Proofs.Frame.RingLength
import ShaderChain.Proofs.Frame.Recording
import ShaderChain.Proofs.Frame.Limit
import ShaderChain.Proofs.Preset.Lines
import ShaderChain.Proofs.Preset.Values
import ShaderChain.Proofs.Preset.Passes
import ShaderChain.Proofs.Preset.Isolation
import ShaderChain.Proofs.Preset.Gaps
import ShaderChain.Proofs.Preset.Scaling
import ShaderChain.Proofs.Preset.Written
import ShaderChain.Proofs.Preset.Bytes
import ShaderChain.Proofs.Source.Outcome
import ShaderChain.Proofs.Source.Requests
import ShaderChain.Proofs.Frame.Planned
import ShaderChain.Proofs.Frame.Area
import ShaderChain.Proofs.Source.Written
