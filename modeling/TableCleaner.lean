import TableCleaner.Text.Lowercase
import TableCleaner.Text.Word
import TableCleaner.Text.Width
import TableCleaner.Text.Blank
import TableCleaner.Decimal.Style
import TableCleaner.Decimal.Reading
import TableCleaner.Json.Printer
import TableCleaner.Json.Reader
import TableCleaner.Calendar.Reading
import TableCleaner.Table.Basic
import TableCleaner.Operation.Apply
import TableCleaner.Step.Reading
import TableCleaner.Pipeline.Run
import TableCleaner.Suggestion.Basic
import TableCleaner.Csv.Basic
import TableCleaner.Text.Pieces
import TableCleaner.File.Path
import TableCleaner.Screen.Grid
import TableCleaner.File.Dataset
import TableCleaner.Screen.Comparison
import TableCleaner.CommandLine.Invocation
import TableCleaner.Command.Execution
import TableCleaner.Main
import TableCleaner.Proofs.Operation.Change
import TableCleaner.Proofs.Operation.Writes
import TableCleaner.Proofs.Table.Bare
import TableCleaner.Proofs.Table.Cells
import TableCleaner.Proofs.Operation.Head
import TableCleaner.Proofs.Operation.SameValue
import TableCleaner.Proofs.Text.Clean
import TableCleaner.Proofs.Text.Trim
import TableCleaner.Proofs.Suggestion.Fence
import TableCleaner.Proofs.Suggestion.Reading
import TableCleaner.Proofs.Suggestion.Plain
import TableCleaner.Proofs.Json.Record
import TableCleaner.Proofs.Json.Extent
import TableCleaner.Proofs.Json.Cut
import TableCleaner.Proofs.Step.RoundTrip
import TableCleaner.Proofs.File.Path
import TableCleaner.Proofs.File.Store
import TableCleaner.Proofs.File.Route
import TableCleaner.Proofs.Command.Schedule
import TableCleaner.Proofs.Command.Order
import TableCleaner.Proofs.Table.Rows
import TableCleaner.Proofs.Operation.Twice
import TableCleaner.Proofs.Pipeline.Report
import TableCleaner.Proofs.Step.Idle
import TableCleaner.Proofs.Step.Keys
import TableCleaner.Proofs.Operation.Commute
import TableCleaner.Proofs.Pipeline.Finite
import TableCleaner.Proofs.Decimal.Value
import TableCleaner.Proofs.Decimal.Nearest
import TableCleaner.Proofs.Decimal.Written
import TableCleaner.Proofs.Cell.Reading
import TableCleaner.Proofs.Operation.Numeric
import TableCleaner.Proofs.Frame.RoundTrip
import TableCleaner.Proofs.Table.Duplicates
import TableCleaner.Proofs.Table.Records
import TableCleaner.Proofs.Step.Compared
import TableCleaner.Proofs.Operation.Days
import TableCleaner.Proofs.Calendar.Layouts
import TableCleaner.Proofs.Operation.Indicators
import TableCleaner.Proofs.Operation.Labels
import TableCleaner.Proofs.Operation.Mode
import TableCleaner.Proofs.Operation.Fill
import TableCleaner.Proofs.Operation.Replace
import TableCleaner.Proofs.Table.KeptRows
import TableCleaner.Proofs.Table.RemovedRows
import TableCleaner.Proofs.Frame.Shape
import TableCleaner.Proofs.Json.Numeral
import TableCleaner.Proofs.Json.Canonical
import TableCleaner.Proofs.Json.Printed
import TableCleaner.Proofs.Step.Canonical
import TableCleaner.Proofs.Command.Saved
import TableCleaner.Proofs.File.Listing
import TableCleaner.Proofs.File.Coverage
import TableCleaner.Proofs.Command.Isolation
import TableCleaner.Proofs.Suggestion.Trailing
import TableCleaner.Proofs.File.Cleaned
import TableCleaner.Proofs.Decimal.Grid
import TableCleaner.Proofs.Cell.Integer
import TableCleaner.Proofs.Calendar.DayNumber
import TableCleaner.Proofs.Frame.Loaded
import TableCleaner.Proofs.Pipeline.Reading
import TableCleaner.Proofs.Suggestion.Records
import TableCleaner.Proofs.Operation.Statistics
