import Sequencer.ChangeTracker
import Sequencer.Codec.Config
import Sequencer.Codec.ConfigFile
import Sequencer.Codec.Diagnostic
import Sequencer.Codec.Report
import Sequencer.Codec.Trace
import Sequencer.Context
import Sequencer.Diagnostic
import Sequencer.EngineConfig
import Sequencer.Files.Path
import Sequencer.Files.Tree
import Sequencer.Host.Analysis
import Sequencer.Host.Capabilities
import Sequencer.Host.Config
import Sequencer.Host.Report
import Sequencer.Host.Services
import Sequencer.Interpreter
import Sequencer.Interrupt
import Sequencer.Journal
import Sequencer.Json.Basic
import Sequencer.Json.Number
import Sequencer.Json.Printer
import Sequencer.Json.Reader
import Sequencer.Json.Record
import Sequencer.Json.Token
import Sequencer.Machine.Drive
import Sequencer.Machine.Eval
import Sequencer.Machine.Frame
import Sequencer.Machine.Level
import Sequencer.Outcome
import Sequencer.Proofs.Authoring
import Sequencer.Proofs.BigStep
import Sequencer.Proofs.BoxedMachine
import Sequencer.Proofs.Codecs
import Sequencer.Proofs.ConfigFiles
import Sequencer.Proofs.ConfigTexts
import Sequencer.Proofs.ContextHistory
import Sequencer.Proofs.ContextIrrelevance
import Sequencer.Proofs.Counters
import Sequencer.Proofs.Defects
import Sequencer.Proofs.DepthShift
import Sequencer.Proofs.Determinism
import Sequencer.Proofs.Displacement
import Sequencer.Proofs.DistinctKeys
import Sequencer.Proofs.DrainPolicy
import Sequencer.Proofs.EditConflicts
import Sequencer.Proofs.Equivalence
import Sequencer.Proofs.Erasure
import Sequencer.Proofs.Failures
import Sequencer.Proofs.FilePaths
import Sequencer.Proofs.FileTrees
import Sequencer.Proofs.FinalizerSwap
import Sequencer.Proofs.Finalizers
import Sequencer.Proofs.Founded
import Sequencer.Proofs.FrameRule
import Sequencer.Proofs.History
import Sequencer.Proofs.Isolation
import Sequencer.Proofs.Latch
import Sequencer.Proofs.Laws
import Sequencer.Proofs.LayerFusion
import Sequencer.Proofs.Licence
import Sequencer.Proofs.Maps
import Sequencer.Proofs.Members
import Sequencer.Proofs.Merging
import Sequencer.Proofs.Observation
import Sequencer.Proofs.Occurrences
import Sequencer.Proofs.Parts
import Sequencer.Proofs.Programs
import Sequencer.Proofs.Reading
import Sequencer.Proofs.Refinement
import Sequencer.Proofs.Replay
import Sequencer.Proofs.Rewriting
import Sequencer.Proofs.RoundTrips
import Sequencer.Proofs.RunInvariant
import Sequencer.Proofs.Sample
import Sequencer.Proofs.Scanning
import Sequencer.Proofs.Sessions
import Sequencer.Proofs.Sharding
import Sequencer.Proofs.Stack
import Sequencer.Proofs.Statistics
import Sequencer.Proofs.Termination
import Sequencer.Proofs.TomlLines
import Sequencer.Proofs.TraceGrammar
import Sequencer.Proofs.Tracking
import Sequencer.Sequence
import Sequencer.Sequence.Combinators
import Sequencer.Signature
import Sequencer.SortedMap
import Sequencer.Source.File
import Sequencer.Source.Program
import Sequencer.Text.Characters
import Sequencer.Text.Decimal
import Sequencer.Toml.Basic
import Sequencer.Toml.Document
import Sequencer.Toml.Scalar
import Sequencer.Toml.Table
import Sequencer.Toml.Text
import Sequencer.Toml.Value
import Sequencer.Trace
