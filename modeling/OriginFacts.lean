import OriginFacts.CommandLine.Environment
import OriginFacts.CommandLine.Flag
import OriginFacts.CommandLine.Help
import OriginFacts.CommandLine.Progress
import OriginFacts.CommandLine.Report
import OriginFacts.CommandLine.Run
import OriginFacts.CommandLine.Settings
import OriginFacts.CommandLine.Word
import OriginFacts.Diagnostic
import OriginFacts.Document.Error
import OriginFacts.Document.Expr
import OriginFacts.Document.File
import OriginFacts.Document.Loader
import OriginFacts.Document.Position
import OriginFacts.Document.Statement
import OriginFacts.Document.Value
import OriginFacts.Draft
import OriginFacts.Expr
import OriginFacts.Facts.Basic
import OriginFacts.Facts.Emission
import OriginFacts.Facts.Flow
import OriginFacts.Facts.Listing
import OriginFacts.Facts.Table
import OriginFacts.Fault
import OriginFacts.Files.Basic
import OriginFacts.Files.Path
import OriginFacts.Files.Tree
import OriginFacts.Json.Basic
import OriginFacts.Json.NumberReader
import OriginFacts.Json.Printer
import OriginFacts.Json.ReadError
import OriginFacts.Json.Reader
import OriginFacts.Json.StringReader
import OriginFacts.Keyed
import OriginFacts.Loan
import OriginFacts.Main
import OriginFacts.Node
import OriginFacts.Place
import OriginFacts.Program
import OriginFacts.Proofs.Boundary
import OriginFacts.Proofs.CommandLine.Arguments
import OriginFacts.Proofs.CommandLine.Export
import OriginFacts.Proofs.CommandLine.Loading
import OriginFacts.Proofs.CommandLine.Reports
import OriginFacts.Proofs.CommandLine.Runs
import OriginFacts.Proofs.Document.FirstViolation
import OriginFacts.Proofs.Document.LoadOrder
import OriginFacts.Proofs.Document.Loading
import OriginFacts.Proofs.Document.Names
import OriginFacts.Proofs.Document.Position
import OriginFacts.Proofs.Document.Schema
import OriginFacts.Proofs.Document.Search
import OriginFacts.Proofs.Document.Spans
import OriginFacts.Proofs.Document.Writing
import OriginFacts.Proofs.Draft.Layout
import OriginFacts.Proofs.Draft.Location
import OriginFacts.Proofs.Emission.Appending
import OriginFacts.Proofs.Emission.Checks
import OriginFacts.Proofs.Emission.Declared
import OriginFacts.Proofs.Emission.Flow
import OriginFacts.Proofs.Emission.Integrity
import OriginFacts.Proofs.Emission.Merging
import OriginFacts.Proofs.Emission.OriginMap
import OriginFacts.Proofs.Emission.Outcome
import OriginFacts.Proofs.Emission.Points
import OriginFacts.Proofs.Emission.Renaming
import OriginFacts.Proofs.Emission.Reordering
import OriginFacts.Proofs.Emission.Rows
import OriginFacts.Proofs.Emission.Script
import OriginFacts.Proofs.Emission.Steps
import OriginFacts.Proofs.Facts.Grouping
import OriginFacts.Proofs.Facts.Listing
import OriginFacts.Proofs.Facts.Table
import OriginFacts.Proofs.Files.Tree
import OriginFacts.Proofs.Json.RoundTrip
import OriginFacts.Proofs.Json.Scalars
import OriginFacts.Proofs.Keyed
import OriginFacts.Proofs.Lists
import OriginFacts.Proofs.Loan
import OriginFacts.Proofs.Lookup
import OriginFacts.Proofs.Node
import OriginFacts.Proofs.OriginMap
import OriginFacts.Proofs.Resolve
import OriginFacts.Proofs.Span
import OriginFacts.Proofs.Surface.Grammar
import OriginFacts.Proofs.Surface.Lexing
import OriginFacts.Proofs.Surface.Origins
import OriginFacts.Proofs.Surface.Printing
import OriginFacts.Proofs.Text.Decimal
import OriginFacts.Proofs.Text.Quoted
import OriginFacts.Proofs.Text.RawString
import OriginFacts.Resolve
import OriginFacts.Span
import OriginFacts.Surface.Grammar
import OriginFacts.Surface.Parse
import OriginFacts.Surface.Token
import OriginFacts.Text.Digit
import OriginFacts.Text.Filling
import OriginFacts.Text.Hex
import OriginFacts.Text.Integer
import OriginFacts.Text.Line
import OriginFacts.Text.Literal
import OriginFacts.Text.Printable
import OriginFacts.Text.Quoted
import OriginFacts.Text.RawString
import OriginFacts.Text.Split
import OriginFacts.Text.Utf8
import OriginFacts.Ty.Basic
import OriginFacts.Ty.Printer
