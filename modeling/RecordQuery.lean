import RecordQuery.Action
import RecordQuery.Calendar
import RecordQuery.Diagnostic
import RecordQuery.Filter.Basic
import RecordQuery.Filter.Copy
import RecordQuery.Filter.Equality
import RecordQuery.Filter.Printer
import RecordQuery.Filter.Walk
import RecordQuery.Json.Basic
import RecordQuery.Json.Printer
import RecordQuery.Literal.Reading
import RecordQuery.Proofs.Filter.Braces
import RecordQuery.Proofs.Filter.Copying
import RecordQuery.Proofs.Filter.Effects
import RecordQuery.Proofs.Literal.Printed
import RecordQuery.Proofs.Literal.Quoting
import RecordQuery.Proofs.Query.Calls
import RecordQuery.Proofs.Query.Coordinates
import RecordQuery.Proofs.Query.Encoding
import RecordQuery.Proofs.Query.Equality
import RecordQuery.Proofs.Query.Events
import RecordQuery.Proofs.Query.Expected
import RecordQuery.Proofs.Query.Grouped
import RecordQuery.Proofs.Query.Parse
import RecordQuery.Proofs.Query.Printed
import RecordQuery.Proofs.Query.PrintedFilter
import RecordQuery.Proofs.Query.Trimmed
import RecordQuery.Proofs.Query.Unambiguous
import RecordQuery.Proofs.Query.Validation
import RecordQuery.Proofs.Text.Slicing
import RecordQuery.Proofs.Token.Concatenation
import RecordQuery.Proofs.Token.Priority
import RecordQuery.Proofs.Token.Quotation
import RecordQuery.Proofs.Token.Refusals
import RecordQuery.Proofs.Token.Standstill
import RecordQuery.Query.Json
