import CodeAudit.Analyzer.Basic
import CodeAudit.Analyzer.Cancellation
import CodeAudit.Analyzer.Fault
import CodeAudit.CommandLine
import CodeAudit.Config.Basic
import CodeAudit.Config.Codec
import CodeAudit.Config.Document
import CodeAudit.Decimal.Binary
import CodeAudit.Decimal.Fixed
import CodeAudit.Decimal.Scaling
import CodeAudit.Decimal.Shortest
import CodeAudit.Digest.Blake3
import CodeAudit.Duplicate.Block
import CodeAudit.Duplicate.Group
import CodeAudit.Duplicate.Window
import CodeAudit.FileSystem.Basic
import CodeAudit.FileSystem.Disk
import CodeAudit.Issue.Basic
import CodeAudit.Issue.Codec
import CodeAudit.Json.Basic
import CodeAudit.Json.Decode
import CodeAudit.Json.Parse
import CodeAudit.Json.Print
import CodeAudit.Main
import CodeAudit.Metrics.Analyzer
import CodeAudit.Metrics.Codec
import CodeAudit.Metrics.Complexity
import CodeAudit.Metrics.Config
import CodeAudit.Metrics.File
import CodeAudit.Metrics.Finding
import CodeAudit.Metrics.Maintainability
import CodeAudit.NameMap
import CodeAudit.Path
import CodeAudit.Proofs.Checked
import CodeAudit.Proofs.Duplicate.Chains
import CodeAudit.Proofs.Duplicate.Checked
import CodeAudit.Proofs.Duplicate.Copies
import CodeAudit.Proofs.Duplicate.Coverage
import CodeAudit.Proofs.Duplicate.Draining
import CodeAudit.Proofs.Duplicate.Group
import CodeAudit.Proofs.Duplicate.Insertion
import CodeAudit.Proofs.Duplicate.Maximality
import CodeAudit.Proofs.Duplicate.Merge
import CodeAudit.Proofs.Duplicate.Narrowing
import CodeAudit.Proofs.Duplicate.Renumbering
import CodeAudit.Proofs.Duplicate.Reports
import CodeAudit.Proofs.Duplicate.Respacing
import CodeAudit.Proofs.Duplicate.Window
import CodeAudit.Proofs.Except
import CodeAudit.Proofs.Issue
import CodeAudit.Proofs.Json.Reading
import CodeAudit.Proofs.Json.Shape
import CodeAudit.Proofs.Metrics.Attribution
import CodeAudit.Proofs.Metrics.Bounds
import CodeAudit.Proofs.Metrics.Cancellation
import CodeAudit.Proofs.Metrics.Charge
import CodeAudit.Proofs.Metrics.Checked
import CodeAudit.Proofs.Metrics.Decomposition
import CodeAudit.Proofs.Metrics.Findings
import CodeAudit.Proofs.Metrics.Ledger
import CodeAudit.Proofs.Metrics.Placement
import CodeAudit.Proofs.Metrics.Preorder
import CodeAudit.Proofs.Metrics.Readability
import CodeAudit.Proofs.Metrics.Reproducibility
import CodeAudit.Proofs.Metrics.Scopes
import CodeAudit.Proofs.NameMap
import CodeAudit.Proofs.Path
import CodeAudit.Proofs.Report.RoundTrip
import CodeAudit.Proofs.Run.Accounts
import CodeAudit.Proofs.Run.Barrier
import CodeAudit.Proofs.Run.Builtin
import CodeAudit.Proofs.Run.Course
import CodeAudit.Proofs.Run.Ending
import CodeAudit.Proofs.Run.Extension
import CodeAudit.Proofs.Run.FailFast
import CodeAudit.Proofs.Run.Interleaving
import CodeAudit.Proofs.Run.Invocations
import CodeAudit.Proofs.Run.Isolation
import CodeAudit.Proofs.Run.Lifecycle
import CodeAudit.Proofs.Run.Order
import CodeAudit.Proofs.Run.Outcome
import CodeAudit.Proofs.Run.Records
import CodeAudit.Proofs.Run.Rescheduling
import CodeAudit.Proofs.Run.Tokens
import CodeAudit.Proofs.Score
import CodeAudit.Proofs.Score.Security
import CodeAudit.Proofs.Score.Words
import CodeAudit.Proofs.Source.ByteScan
import CodeAudit.Proofs.Source.LineComments
import CodeAudit.Proofs.Source.LineReader
import CodeAudit.Proofs.Source.Respacing
import CodeAudit.Proofs.Text.Lines
import CodeAudit.Proofs.Text.Utf8
import CodeAudit.Proofs.Tree.Lineage
import CodeAudit.Proofs.Tree.Reach
import CodeAudit.Proofs.Tree.Territory
import CodeAudit.Proofs.Tree.Traversal
import CodeAudit.Proofs.Tree.Walk
import CodeAudit.Report.Basic
import CodeAudit.Report.Codec
import CodeAudit.Run.Assembly
import CodeAudit.Run.Error
import CodeAudit.Run.Orchestrator
import CodeAudit.Run.Recommend
import CodeAudit.Run.Registry
import CodeAudit.Run.Schedule
import CodeAudit.Run.Score
import CodeAudit.Source.Language
import CodeAudit.Source.LineCount
import CodeAudit.Text.Blank
import CodeAudit.Text.Lines
import CodeAudit.Text.Quoted
import CodeAudit.Text.Search
import CodeAudit.Text.Visible
import CodeAudit.Timestamp.Basic
import CodeAudit.Timestamp.Text
import CodeAudit.Toml.Document
import CodeAudit.Toml.Moment
import CodeAudit.Toml.Number
import CodeAudit.Toml.Reader
import CodeAudit.Toml.Table
import CodeAudit.Toml.Text
import CodeAudit.Tree.Codec
import CodeAudit.Tree.Cursor
import CodeAudit.Tree.Node
import CodeAudit.Proofs.Run.Advice
import CodeAudit.Proofs.Run.IdleSettings
import CodeAudit.Proofs.Run.Registration
import CodeAudit.Proofs.Run.Phases
import CodeAudit.Proofs.Run.Times
import CodeAudit.Proofs.Metrics.Thresholds
import CodeAudit.Proofs.Config.Snapshot
import CodeAudit.Proofs.Metrics.Preparation
import CodeAudit.Proofs.Metrics.Numbering
import CodeAudit.Proofs.Metrics.BareTokens
import CodeAudit.Proofs.Metrics.ScopeStack
