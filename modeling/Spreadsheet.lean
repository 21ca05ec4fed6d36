import Spreadsheet.CommandLine.Run
import Spreadsheet.Emitter
import Spreadsheet.Formula.Cursor
import Spreadsheet.Main
import Spreadsheet.Proofs.Address.Readable
import Spreadsheet.Proofs.Formula.Nodes
import Spreadsheet.Proofs.Evaluation.Follows
import Spreadsheet.Proofs.Evaluation.OwnFailure
import Spreadsheet.Proofs.Evaluation.Congruence
import Spreadsheet.Proofs.Resolver.Recursion
import Spreadsheet.Proofs.Resolver.Waiting
import Spreadsheet.Proofs.Resolver.Memory
import Spreadsheet.Proofs.Resolver.Preparation
import Spreadsheet.Proofs.Resolver.Tracking
import Spreadsheet.Proofs.Resolver.Ending
import Spreadsheet.Proofs.Grid
import Spreadsheet.Proofs.Resolver.Request
import Spreadsheet.Proofs.Resolver.Orderly
import Spreadsheet.Proofs.Resolver.Agreement
import Spreadsheet.Proofs.Evaluation.Support
import Spreadsheet.Proofs.Resolver.Clean
import Spreadsheet.Proofs.Resolver.SettledSheet
import Spreadsheet.Proofs.Function.Builtin
import Spreadsheet.Proofs.Resolver.Walk
import Spreadsheet.Proofs.Resolver.Cycle
import Spreadsheet.Proofs.Resolver.Journal
import Spreadsheet.Proofs.Resolver.Advance
import Spreadsheet.Proofs.Resolver.Records
import Spreadsheet.Proofs.Resolver.Progress
import Spreadsheet.Proofs.Resolver.Nesting
import Spreadsheet.Proofs.Resolver.Lookups
import Spreadsheet.Proofs.Resolver.Once
import Spreadsheet.Proofs.Formula.Postfix
import Spreadsheet.Proofs.Formula.Lexemes
import Spreadsheet.Proofs.Formula.Layered
import Spreadsheet.Proofs.Formula.Grouping
import Spreadsheet.Proofs.Evaluation.Numeric
import Spreadsheet.Proofs.Resolver.Faults
import Spreadsheet.Proofs.Resolver.Locality
import Spreadsheet.Proofs.Resolver.Worklist
import Spreadsheet.Proofs.Resolver.Termination
import Spreadsheet.Proofs.Formula.Classes
import Spreadsheet.Proofs.Formula.Segments
import Spreadsheet.Proofs.Formula.Grammar
import Spreadsheet.Proofs.Address.Case
import Spreadsheet.Proofs.Formula.Rendering
import Spreadsheet.Proofs.Lockstep
import Spreadsheet.Proofs.Address.Spelling
import Spreadsheet.Proofs.Formula.Spelling
import Spreadsheet.Proofs.Evaluation.Spelling
import Spreadsheet.Proofs.Resolver.Spelling
import Spreadsheet.Proofs.Evaluation.Order
import Spreadsheet.Proofs.Text.Plain
import Spreadsheet.Proofs.Address.RoundTrip
import Spreadsheet.Proofs.Resolver.ByAddress
import Spreadsheet.Proofs.Json.Text
import Spreadsheet.Proofs.Json.Number
import Spreadsheet.Proofs.Json.Plain
import Spreadsheet.Proofs.Json.RoundTrip
import Spreadsheet.Proofs.Files.Append
import Spreadsheet.Proofs.EventLog.Lines
import Spreadsheet.Proofs.EventLog.Tail
import Spreadsheet.Proofs.EventLog.ReadBack
import Spreadsheet.Proofs.EventLog.Emit
import Spreadsheet.Proofs.Address.Rectangle
import Spreadsheet.Proofs.SheetReport.Entries
import Spreadsheet.Proofs.SheetReport.Events
import Spreadsheet.Proofs.Formula.Lookahead
import Spreadsheet.Proofs.Formula.Refusal
import Spreadsheet.Proofs.Resolver.FaultClasses
import Spreadsheet.Proofs.Resolver.CircularMarks
import Spreadsheet.Proofs.Resolver.Settling
import Spreadsheet.Proofs.Resolver.Range
import Spreadsheet.Proofs.Function.Aggregate
import Spreadsheet.Proofs.Resolver.Aggregate
import Spreadsheet.Proofs.Text.Order
import Spreadsheet.Proofs.Formula.Mentions
import Spreadsheet.Proofs.CommandLine.References
import Spreadsheet.Proofs.Address.Canonical
import Spreadsheet.Proofs.EventLog.Foreign
import Spreadsheet.Proofs.Json.OneLine
import Spreadsheet.Proofs.Files.Changes
import Spreadsheet.Proofs.EventLog.AllOrNothing
import Spreadsheet.Proofs.Json.Passage
import Spreadsheet.Proofs.Json.Torn
import Spreadsheet.Proofs.Text.Parts
import Spreadsheet.Proofs.Number.Binary64
import Spreadsheet.Proofs.Number.Shortest
import Spreadsheet.Proofs.Number.FloatText
import Spreadsheet.Proofs.Json.Double
import Spreadsheet.Proofs.EventLog.LastWrite
import Spreadsheet.Proofs.Number.HalfEven
import Spreadsheet.Proofs.Number.Quotient
import Spreadsheet.Proofs.Function.Arguments
import Spreadsheet.Proofs.Function.Rounding
import Spreadsheet.Proofs.Function.Agreement
import Spreadsheet.Proofs.Event.Cut
import Spreadsheet.Proofs.Formula.Reduction
import Spreadsheet.Proofs.Text.Strip
import Spreadsheet.Proofs.Formula.EqualsSign
import Spreadsheet.Proofs.KeyOrder
import Spreadsheet.Proofs.Yaml.Keys
import Spreadsheet.Proofs.Settings
import Spreadsheet.Proofs.Sheet
import Spreadsheet.Proofs.Address.Language
