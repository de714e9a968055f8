import PrototypeGate.Check.Conflict
import PrototypeGate.Check.Context
import PrototypeGate.Check.Ledger
import PrototypeGate.Check.Record
import PrototypeGate.CommandLine.Arguments
import PrototypeGate.CommandLine.Options
import PrototypeGate.CommandLine.Session
import PrototypeGate.Declaration.Classify
import PrototypeGate.Declaration.Dialect
import PrototypeGate.Declaration.Header
import PrototypeGate.Failure
import PrototypeGate.Files.Disk
import PrototypeGate.Files.Glob
import PrototypeGate.Files.Path
import PrototypeGate.Files.Pattern
import PrototypeGate.Files.Sources
import PrototypeGate.Files.Tree
import PrototypeGate.Helper.Outcome
import PrototypeGate.Main
import PrototypeGate.Outer.Helper.Program
import PrototypeGate.Outer.Helper.Shell
import PrototypeGate.Outer.Helper.Toolbox
import PrototypeGate.Outer.Yaml.Binary
import PrototypeGate.Outer.Yaml.Cursor
import PrototypeGate.Outer.Yaml.Date
import PrototypeGate.Outer.Yaml.Document
import PrototypeGate.Outer.Yaml.Lexer
import PrototypeGate.Outer.Yaml.Node
import PrototypeGate.Outer.Yaml.Number
import PrototypeGate.Outer.Yaml.Problem
import PrototypeGate.Outer.Yaml.Scalar
import PrototypeGate.Outer.Yaml.Token
import PrototypeGate.Outer.Yaml.Tree
import PrototypeGate.Report.Finding
import PrototypeGate.Report.Json
import PrototypeGate.Settings.Config
import PrototypeGate.Settings.Normalizer
import PrototypeGate.Settings.Stamp
import PrototypeGate.Settings.Value
import PrototypeGate.Source.Comment
import PrototypeGate.Source.Literal
import PrototypeGate.Source.Scan
import PrototypeGate.Stream.Marker
import PrototypeGate.Stream.Normalize
import PrototypeGate.Text.Blank
import PrototypeGate.Text.DecimalDigit
import PrototypeGate.Text.LineEnd
import PrototypeGate.Text.Numeral
import PrototypeGate.Text.Printable
import PrototypeGate.Text.Quoted
import PrototypeGate.Text.Ranges
import PrototypeGate.Text.ShellWords
import PrototypeGate.Text.Shortest
import PrototypeGate.Text.Utf8
import PrototypeGate.Text.Word
import PrototypeGate.Proofs.Blank
import PrototypeGate.Proofs.Results
import PrototypeGate.Proofs.Collection
import PrototypeGate.Proofs.Consistency
import PrototypeGate.Proofs.Expansion
import PrototypeGate.Proofs.Filing
import PrototypeGate.Proofs.Layout
import PrototypeGate.Proofs.Loading
import PrototypeGate.Proofs.Location
import PrototypeGate.Proofs.MarkerReading
import PrototypeGate.Proofs.Segment
import PrototypeGate.Proofs.ReportReading
import PrototypeGate.Proofs.Breakdown
import PrototypeGate.Proofs.Agreement
import PrototypeGate.Proofs.Classification
import PrototypeGate.Proofs.Directive
import PrototypeGate.Proofs.Grammar
import PrototypeGate.Proofs.HashLines
import PrototypeGate.Proofs.HeaderReading
import PrototypeGate.Proofs.LineNumbers
import PrototypeGate.Proofs.Exclusion
import PrototypeGate.Proofs.Registries
import PrototypeGate.Proofs.Encoding
import PrototypeGate.Proofs.Printing
import PrototypeGate.Proofs.Writing
import PrototypeGate.Proofs.Verdict
import PrototypeGate.Proofs.Independence
import PrototypeGate.Proofs.Relaxation
import PrototypeGate.Proofs.FirstEvent
import PrototypeGate.Proofs.Naming
import PrototypeGate.Proofs.Lookahead
import PrototypeGate.Proofs.Course
import PrototypeGate.Proofs.Beginnings
import PrototypeGate.Proofs.Spacing
import PrototypeGate.Proofs.Bodies
import PrototypeGate.Proofs.Cleanness
import PrototypeGate.Proofs.Composition
import PrototypeGate.Proofs.NormalForm
import PrototypeGate.Proofs.Origins
import PrototypeGate.Proofs.FinalNewline
import PrototypeGate.Proofs.Positions
import PrototypeGate.Proofs.Completeness
import PrototypeGate.Proofs.Literals
import PrototypeGate.Proofs.Places
import PrototypeGate.Proofs.Contributions
import PrototypeGate.Proofs.Occurrences
import PrototypeGate.Proofs.Strays
