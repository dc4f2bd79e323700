import FindSelect.Document.Reader

namespace FindSelect

open Text

/-- A find call: a table, the conditions that its rows must meet, and the columns
    that are asked for. No conditions means every row, and no columns means every
    column. -/
structure FindCall where
  table : String
  conditions : Document
  projection : Document
  deriving DecidableEq

namespace FindCall

/-- The texts of the three parts of a call. -/
structure Parts where
  table : List Char
  query : List Char
  projection : List Char
  deriving DecidableEq, Repr

private def invalid (fault : String → CallFault) (text : List Char) : SyntaxError :=
  .invalidCall (fault (String.ofList text))

/-- Splits the text between the parentheses into a query and a projection. The
    query ends where its braces are closed. A text without any brace is no
    argument at all. -/
def queryAndProjection (arguments : List Char) : Except SyntaxError (List Char × List Char) :=
  if '{' ∉ arguments then .ok ([], [])
  else if arguments.head? ≠ some '{' then .error (invalid .queryNotDocument arguments)
  else match (Cursor.start arguments).takeEnclosed '{' '}' with
    | (.error _, _) => .error (.malformedArguments (String.ofList arguments))
    | (.ok query, c) =>
      match trim c.rest with
      | [] => .ok (query, [])
      | ',' :: projection => .ok (query, trim projection)
      | rest => .error (invalid .textAfterQuery rest)

/-- The text of a call without the white space around it and one semicolon at
    its end. -/
def trimCall (text : List Char) : List Char :=
  match dropLast? ';' (trim text) with
  | some call => trimEnd call
  | none => trim text

/-- The text between the parentheses of a call of `find`. -/
def argumentsOf (method : List Char) : Except SyntaxError (List Char) :=
  if "find".toList.isPrefixOf method then
    let arguments := trim (method.drop 4)
    match unwrap? '(' ')' arguments with
    | some inner => .ok (trim inner)
    | none => .error (invalid .noParentheses arguments)
  else .error (invalid .otherMethod method)

/-- Splits a call at its first two points. The table stands between them, and
    the call of `find` after the second. -/
def Parts.read (text : List Char) : Except SyntaxError Parts := do
  let call := trimCall text
  let some (marker, rest) := splitAt? '.' call | throw (invalid .notACall call)
  if marker ≠ "db".toList then throw (invalid .notOnDatabase marker)
  let some (table, method) := splitAt? '.' rest | throw (invalid .noMethod call)
  if trim table = [] then throw (invalid .noTable call)
  let arguments ← argumentsOf (trim method)
  let (query, projection) ← queryAndProjection arguments
  return ⟨trim table, query, projection⟩

/-- The call that a text describes: its shape is checked first, then its query
    is read, then its projection. -/
def read (text : List Char) : Except SyntaxError FindCall := do
  let parts ← Parts.read text
  let conditions ← readDocument parts.query
  let projection ← readDocument parts.projection
  return ⟨String.ofList parts.table, conditions, projection⟩

/-- The call that a text describes. -/
def parse (text : String) : Except SyntaxError FindCall := read text.toList

end FindCall
end FindSelect
