import PhpStyle.Analyzer
import PhpStyle.Config.Basic
import PhpStyle.Config.Codec
import PhpStyle.Config.File
import PhpStyle.Config.Reader
import PhpStyle.Decimal.Notation
import PhpStyle.Decimal.Shortest
import PhpStyle.Doc.Basic
import PhpStyle.Doc.Reader
import PhpStyle.Doc.Schema
import PhpStyle.Doc.Span
import PhpStyle.Doc.Validation
import PhpStyle.Event
import PhpStyle.Fault
import PhpStyle.FileTree
import PhpStyle.Glob
import PhpStyle.Json.Codec
import PhpStyle.Json.Format
import PhpStyle.Json.Number
import PhpStyle.Json.Reader
import PhpStyle.Json.Writer
import PhpStyle.Path
import PhpStyle.Preset
import PhpStyle.Proofs.Analyzer.Completion
import PhpStyle.Proofs.Analyzer.Dispatch
import PhpStyle.Proofs.Analyzer.Isolation
import PhpStyle.Proofs.Analyzer.Pointing
import PhpStyle.Proofs.Analyzer.Settings
import PhpStyle.Proofs.Analyzer.Signing
import PhpStyle.Proofs.Checked
import PhpStyle.Proofs.Declarations
import PhpStyle.Proofs.Doc.Alignment
import PhpStyle.Proofs.Doc.Columns
import PhpStyle.Proofs.Doc.Comments
import PhpStyle.Proofs.Doc.CommonColumn
import PhpStyle.Proofs.Doc.Conformance
import PhpStyle.Proofs.Doc.Course
import PhpStyle.Proofs.Doc.GapLine
import PhpStyle.Proofs.Doc.Grouping
import PhpStyle.Proofs.Doc.Marks
import PhpStyle.Proofs.Doc.Order
import PhpStyle.Proofs.Doc.Overlooked
import PhpStyle.Proofs.Doc.Paragraphs
import PhpStyle.Proofs.Doc.Passes
import PhpStyle.Proofs.Doc.Rendering
import PhpStyle.Proofs.Doc.Spans
import PhpStyle.Proofs.Doc.Tags
import PhpStyle.Proofs.FileComment
import PhpStyle.Proofs.Json.Format
import PhpStyle.Proofs.Json.Grammar
import PhpStyle.Proofs.Json.Printing
import PhpStyle.Proofs.Json.RoundTrip
import PhpStyle.Proofs.Json.Standard
import PhpStyle.Proofs.Lexemes
import PhpStyle.Proofs.Lexing
import PhpStyle.Proofs.LineEnds
import PhpStyle.Proofs.Members
import PhpStyle.Proofs.Names
import PhpStyle.Proofs.Pieces
import PhpStyle.Proofs.Positions
import PhpStyle.Proofs.RepeatedBlock
import PhpStyle.Proofs.Safety.Basic
import PhpStyle.Proofs.Safety.DocBlock
import PhpStyle.Proofs.Safety.Rules
import PhpStyle.Proofs.Safety.Switch
import PhpStyle.Proofs.Scope.Braces
import PhpStyle.Proofs.Scope.Enclosing
import PhpStyle.Proofs.Scope.Heads
import PhpStyle.Proofs.Scope.Labels
import PhpStyle.Proofs.Scope.Linking
import PhpStyle.Proofs.Scope.Links
import PhpStyle.Proofs.Scope.Matching
import PhpStyle.Proofs.Scope.Step
import PhpStyle.Proofs.Search
import PhpStyle.Proofs.Spacing
import PhpStyle.Proofs.Switch.Checks
import PhpStyle.Proofs.Switch.Colons
import PhpStyle.Proofs.Switch.Columns
import PhpStyle.Proofs.Switch.Defaults
import PhpStyle.Proofs.Switch.Endings
import PhpStyle.Proofs.Switch.Labels
import PhpStyle.Proofs.Switch.Layout
import PhpStyle.Proofs.Switch.Terminators
import PhpStyle.Proofs.Switch.Turns
import PhpStyle.Proofs.Text.Lines
import PhpStyle.Report
import PhpStyle.Rule.Basic
import PhpStyle.Rule.Declaration
import PhpStyle.Rule.FileComment
import PhpStyle.Rule.MemberComment
import PhpStyle.Rule.RepeatedBlock
import PhpStyle.Rule.Spacing
import PhpStyle.Rule.SwitchLayout
import PhpStyle.Severity
import PhpStyle.SourceUnit
import PhpStyle.Switch.Basic
import PhpStyle.Switch.Layout
import PhpStyle.Text.Blank
import PhpStyle.Text.Bytes
import PhpStyle.Text.Case
import PhpStyle.Text.CaseTable
import PhpStyle.Text.Hex
import PhpStyle.Text.Quoted
import PhpStyle.Text.Unprintable
import PhpStyle.Token.Basic
import PhpStyle.Token.Builder
import PhpStyle.Token.Kind
import PhpStyle.Token.Lexer
import PhpStyle.Token.Scope
import PhpStyle.Token.Seq
import PhpStyle.Toml.Basic
import PhpStyle.Toml.Datetime
import PhpStyle.Toml.Document
import PhpStyle.Toml.Number
import PhpStyle.Toml.Scan
import PhpStyle.Toml.Text
import PhpStyle.Violation
