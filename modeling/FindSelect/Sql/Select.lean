import FindSelect.Sql.Condition

namespace FindSelect

/-- A statement that selects columns of the rows of a table. No columns stand for
    all of them, and no clauses for every row. -/
structure Select where
  columns : List String
  table : String
  condition : List Clause
  deriving Repr

namespace Select

def renderColumns (columns : List String) : String :=
  if columns.isEmpty then "*" else ", ".intercalate columns

/-- The text of a statement, with its semicolon. -/
def render (select : Select) : String :=
  "SELECT " ++ renderColumns select.columns ++ " FROM " ++ select.table ++
    (if select.condition.isEmpty then ""
      else " WHERE " ++ Clause.renderCondition select.condition) ++ ";"

/-- The columns that a projection asks for. Each must have the value 1 or true:
    to leave columns out one would have to know them all. -/
def columnsOf (projection : List (String × Value)) : Except SelectError (List String) :=
  projection.mapM fun (column, value) =>
    match value with
    | .integer 1 | .boolean true => .ok column
    | _ => .error (.unsupportedProjection column value)

/-- The statement for a call. Its conditions are taken before its projection. -/
def ofCall (call : FindCall) : Traced SelectError Select := do
  let condition ← Clause.ofEntries call.conditions.entries
  let columns ← Traced.of (columnsOf call.projection.entries)
  return ⟨columns, call.table, condition⟩

end Select

/-- The text of the condition for a document, without `WHERE`. -/
def Document.toCondition (conditions : Document) : Traced SelectError String := do
  let condition ← Clause.ofEntries conditions.entries
  return Clause.renderCondition condition

/-- The text of the column list for a projection. -/
def Document.toColumns (projection : Document) : Except SelectError String :=
  (Select.columnsOf projection.entries).map Select.renderColumns

/-- The text of the statement for a call. -/
def FindCall.toSql (call : FindCall) : Traced SelectError String := do
  let select ← Select.ofCall call
  Traced.emit (.compiledSelect select.render)
  return select.render

/-- Why the text of a call has no statement. -/
inductive FindError where
  | parse (error : SyntaxError)
  | compile (error : SelectError)
  deriving DecidableEq

def FindError.message : FindError → String
  | .parse error => "Parse error: " ++ error.message
  | .compile error => "Compile error: " ++ error.message

/-- Reads the text of a call and reports it. -/
def FindCall.receive (text : String) : Traced FindError FindCall := do
  let call ← (Traced.of (FindCall.parse text)).mapError .parse
  Traced.emit (.parsedCall call)
  return call

/-- The statement for the text of a call. -/
def findToSql (text : String) : Traced FindError String := do
  let call ← FindCall.receive text
  call.toSql.mapError .compile

end FindSelect
