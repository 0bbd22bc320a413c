import TreeLint.Check
import TreeLint.CommandLine.Arguments
import TreeLint.CommandLine.Command
import TreeLint.CommandLine.Run
import TreeLint.Console.Cells
import TreeLint.Console.Content
import TreeLint.Console.Display
import TreeLint.Console.Fault
import TreeLint.Console.Markup
import TreeLint.Console.Printout
import TreeLint.Console.Style
import TreeLint.Console.StyledText
import TreeLint.Console.Table
import TreeLint.Console.Wrap
import TreeLint.Diagnostic
import TreeLint.File.Glob
import TreeLint.File.Path
import TreeLint.File.Pattern
import TreeLint.File.Resolve
import TreeLint.File.System
import TreeLint.Json.Display
import TreeLint.Json.Order
import TreeLint.Json.Printer
import TreeLint.Json.Reader
import TreeLint.Json.Value
import TreeLint.Lint.Files
import TreeLint.Lint.Trees
import TreeLint.Literal.Expr
import TreeLint.Literal.Fault
import TreeLint.Literal.Format
import TreeLint.Literal.Grammar
import TreeLint.Literal.Grammar.Argument
import TreeLint.Literal.Grammar.Bracket
import TreeLint.Literal.Grammar.Constant
import TreeLint.Literal.Grammar.Expression
import TreeLint.Literal.Grammar.Loop
import TreeLint.Literal.Grammar.Operator
import TreeLint.Literal.Grammar.Parameter
import TreeLint.Literal.Numeral
import TreeLint.Literal.Parsing
import TreeLint.Literal.Quotation
import TreeLint.Literal.Read
import TreeLint.Literal.Token
import TreeLint.Literal.Value
import TreeLint.Main
import TreeLint.Number.Decimal
import TreeLint.Number.Double
import TreeLint.Number.Total
import TreeLint.Proofs.Build.Agenda
import TreeLint.Proofs.Build.Contract
import TreeLint.Proofs.Build.Correspondence
import TreeLint.Proofs.Build.Coverage
import TreeLint.Proofs.Build.KeyOrder
import TreeLint.Proofs.Build.Labels
import TreeLint.Proofs.Build.Language
import TreeLint.Proofs.Build.Lookup
import TreeLint.Proofs.Build.NormalForm
import TreeLint.Proofs.Build.NormalTree
import TreeLint.Proofs.Build.Objects
import TreeLint.Proofs.Build.Rearranged
import TreeLint.Proofs.Build.Recursion
import TreeLint.Proofs.Build.SourceOrder
import TreeLint.Proofs.Check.BuiltTree
import TreeLint.Proofs.Check.DiagnosticOrder
import TreeLint.Proofs.Check.EarliestSetup
import TreeLint.Proofs.Check.FirstFault
import TreeLint.Proofs.Check.Independence
import TreeLint.Proofs.Check.KeyOrder
import TreeLint.Proofs.Check.Violations
import TreeLint.Proofs.CommandLine.ExitStatus
import TreeLint.Proofs.CommandLine.Output
import TreeLint.Proofs.Console.Unmarked
import TreeLint.Proofs.Console.Verbatim
import TreeLint.Proofs.Fallible
import TreeLint.Proofs.File.Entries
import TreeLint.Proofs.File.Expansion
import TreeLint.Proofs.File.PathText
import TreeLint.Proofs.File.RecursiveSearch
import TreeLint.Proofs.File.Resolution
import TreeLint.Proofs.Json.Keys
import TreeLint.Proofs.Json.Rearrangement
import TreeLint.Proofs.Json.RoundTrip
import TreeLint.Proofs.Json.Scalars
import TreeLint.Proofs.Json.Writable
import TreeLint.Proofs.Lint.Content
import TreeLint.Proofs.Lint.Isolation
import TreeLint.Proofs.Registry.Enabled
import TreeLint.Proofs.Registry.Registration
import TreeLint.Proofs.Registry.SwitchedOff
import TreeLint.Proofs.Report.Annotations
import TreeLint.Proofs.Report.RoundTrip
import TreeLint.Proofs.Report.Summary
import TreeLint.Proofs.Report.TerminalText
import TreeLint.Proofs.Report.Writing
import TreeLint.Proofs.Rule.Acceptance
import TreeLint.Proofs.Rule.ClearBeforeType
import TreeLint.Proofs.Rule.HookPairing
import TreeLint.Proofs.Rule.Impartial
import TreeLint.Proofs.Rule.PageSingleton
import TreeLint.Proofs.Rule.Refusal
import TreeLint.Proofs.Rule.SharedWalk
import TreeLint.Proofs.Settings.Fields
import TreeLint.Proofs.Settings.Loading
import TreeLint.Proofs.Settings.Validation
import TreeLint.Proofs.Sorting.Merging
import TreeLint.Proofs.Sorting.Naturality
import TreeLint.Proofs.Sorting.Permutation
import TreeLint.Proofs.Sorting.Searching
import TreeLint.Proofs.Sorting.Stability
import TreeLint.Proofs.Sorting.StableMerge
import TreeLint.Proofs.Sorting.StableSort
import TreeLint.Proofs.Text.Encoding
import TreeLint.Proofs.Text.Splitting
import TreeLint.Proofs.Walk.Events
import TreeLint.Proofs.Walk.Invariant
import TreeLint.Proofs.Walk.Listening
import TreeLint.Proofs.Walk.Steps
import TreeLint.Report.Annotations
import TreeLint.Report.Basic
import TreeLint.Report.Format
import TreeLint.Report.Markdown
import TreeLint.Report.Position
import TreeLint.Report.Terminal
import TreeLint.Rule.Basic
import TreeLint.Rule.ClearBeforeType
import TreeLint.Rule.HookPairing
import TreeLint.Rule.PageSingleton
import TreeLint.Rule.Registry
import TreeLint.Settings.Basic
import TreeLint.Settings.Data
import TreeLint.Settings.Fault
import TreeLint.Settings.Load
import TreeLint.Settings.Validate
import TreeLint.Sorting
import TreeLint.Sorting.Merge
import TreeLint.Sorting.Search
import TreeLint.Text.Alphanumeric
import TreeLint.Text.Arrival
import TreeLint.Text.Cased
import TreeLint.Text.Character
import TreeLint.Text.Lower
import TreeLint.Text.NameChar
import TreeLint.Text.Quoted
import TreeLint.Text.Utf8
import TreeLint.Text.Width
import TreeLint.Tree.Build
import TreeLint.Tree.Document
import TreeLint.Tree.Kind
import TreeLint.Tree.Load
import TreeLint.Tree.Malformed
import TreeLint.Tree.Node
import TreeLint.Tree.Walk
import TreeLint.Yaml.Binary
import TreeLint.Yaml.Cursor
import TreeLint.Yaml.Date
import TreeLint.Yaml.Fault
import TreeLint.Yaml.Graph
import TreeLint.Yaml.Implicit
import TreeLint.Yaml.Node
import TreeLint.Yaml.Number
import TreeLint.Yaml.Read
import TreeLint.Yaml.Scalar
import TreeLint.Yaml.Source
import TreeLint.Yaml.Tag
import TreeLint.Yaml.Token
