import FindSelect.Outcome
import FindSelect.Text.Blank
import FindSelect.Text.Alphanumeric
import FindSelect.Text.Cursor
import FindSelect.Text.Cursor.Step
import FindSelect.Decimal.Numeral
import FindSelect.Decimal.Binary64
import FindSelect.Decimal.Shortest
import FindSelect.Decimal.Layout
import FindSelect.Document.Value
import FindSelect.Document.Basic
import FindSelect.Document.SyntaxError
import FindSelect.Document.Scalar
import FindSelect.Document.Piece
import FindSelect.Document.Cut
import FindSelect.Document.Reader
import FindSelect.Find.Call
import FindSelect.Trace
import FindSelect.Sql.Operator
import FindSelect.Sql.SelectError
import FindSelect.Sql.Literal
import FindSelect.Sql.Clause
import FindSelect.Sql.Condition
import FindSelect.Sql.Select
import FindSelect.Json
import FindSelect.Command.Answer
import FindSelect.Command.Reference
import FindSelect.Command.Invocation
import FindSelect.Main
import FindSelect.Proofs.Text.Plain
import FindSelect.Proofs.Sql.Token
import FindSelect.Proofs.Decimal.Written
import FindSelect.Proofs.Sql.Rendered
import FindSelect.Proofs.Trace
import FindSelect.Proofs.Outcome
import FindSelect.Proofs.Sql.Compiled
import FindSelect.Proofs.Sql.Grammar
import FindSelect.Proofs.Sql.Meaning
import FindSelect.Proofs.Sql.Strings
import FindSelect.Proofs.Text.Cursor
import FindSelect.Proofs.Document.Scalar
import FindSelect.Proofs.Document.Cutting
import FindSelect.Proofs.Document.Completeness
import FindSelect.Proofs.Document.Faults
import FindSelect.Proofs.Find.Faults
import FindSelect.Proofs.Document.Insertion
import FindSelect.Proofs.Decimal.Rounding
import FindSelect.Proofs.Decimal.Nearest
import FindSelect.Proofs.Decimal.Syntax
import FindSelect.Proofs.Decimal.ReadBack
import FindSelect.Proofs.Document.Shape
import FindSelect.Proofs.Find.Shape
import FindSelect.Proofs.Document.Display
import FindSelect.Proofs.Document.Continuation
import FindSelect.Proofs.Document.Concatenation
import FindSelect.Proofs.Sql.Delimited
import FindSelect.Proofs.Document.History
import FindSelect.Proofs.Text.Stepwise
import FindSelect.Proofs.Document.Stepwise
import FindSelect.Proofs.Find.Stepwise
import FindSelect.Proofs.Document.Nesting
import FindSelect.Proofs.Sql.Walk
import FindSelect.Proofs.Sql.Supported
import FindSelect.Proofs.Document.Carried
import FindSelect.Proofs.Find.Carried
import FindSelect.Proofs.Document.Elements
import FindSelect.Proofs.Find.Arguments
import FindSelect.Proofs.Document.ValueList
import FindSelect.Proofs.Document.Casting
import FindSelect.Proofs.Sql.PostOrder
import FindSelect.Proofs.Find.JsonView
import FindSelect.Proofs.Document.Termination
import FindSelect.Proofs.Text.Enclosed
import FindSelect.Proofs.Document.Merging
