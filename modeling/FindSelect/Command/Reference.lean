import FindSelect.Sql.Select

namespace FindSelect.Reference

/-- A text filled up with spaces to a width. -/
def padRight (width : Nat) (text : String) : String :=
  text ++ String.ofList (List.replicate (width - text.length) ' ')

/-- A heading with a line under it. -/
def heading (title : String) : String :=
  title ++ "\n" ++ String.ofList (List.replicate title.length '-') ++ "\n"

/-- A line that shows what a document asks of the column `id`. -/
def conditionLine (name : String) (value : Value) : String :=
  let tests := match Comparison.ofColumn "id" value with
    | .ok tests => tests
    | .error _ => []
  "  " ++ padRight 6 name ++ " " ++ padRight 24 (Value.document [("id", value)]).display ++ "=> " ++
    " AND ".intercalate (tests.map (·.render)) ++ "\n"

/-- A line for a comparator, with five or a list as its operand. -/
def comparatorLine (comparator : Comparator) : String :=
  let operand : Value := match comparator with
    | .oneOf => .list [.integer 1, .integer 2]
    | .relation _ => .integer 5
  conditionLine comparator.key (.document [(comparator.key, operand)])

def connectiveLine (connective : Connective) : String :=
  "  " ++ padRight 6 connective.key ++ " [\x7b...\x7d, \x7b...\x7d]  joins each document with " ++
    connective.keyword ++ "\n"

/-- A line that shows how something is written in a statement. -/
def writtenLine (source target : String) : String :=
  "  " ++ padRight 18 source ++ " => " ++ target ++ "\n"

def literalLine (value : Value) (literal : Literal) : String :=
  writtenLine value.display literal.render

/-- The reference of the supported operators. -/
def text : String :=
  "MONGO2SQL OPERATOR REFERENCE\n\n" ++
  "Translates db.<table>.find(<query>[, <projection>]) into a SQL SELECT.\n\n" ++
  "  db.user.find(\x7bid: 0\x7d, \x7bname: 1\x7d)\n" ++
  "  => SELECT name FROM user WHERE (id = 0);\n\n" ++
  heading "FIELD OPERATORS" ++
  String.join (Comparator.all.map comparatorLine) ++ "\n" ++
  conditionLine "(eq)" (.integer 5) ++
  conditionLine "" .null ++
  conditionLine "$ne" (.document [("$ne", .null)]) ++ "\n" ++
  "Several operators on one field are joined with AND.\n\n" ++
  heading "LOGICAL OPERATORS" ++
  String.join (Connective.every.map connectiveLine) ++ "\n" ++
  "Fields listed side by side are joined with AND.\n\n" ++
  heading "LITERALS" ++
  writtenLine "\"text\" or 'text'" "'text' (single quotes doubled)" ++
  literalLine .null .null ++
  literalLine (.boolean true) (.boolean true) ++
  literalLine (.boolean false) (.boolean false) ++
  writtenLine "42, 1.5" "42, 1.5" ++ "\n" ++
  heading "PROJECTION" ++
  writtenLine "\x7b\x7d" (Select.renderColumns []) ++
  writtenLine "\x7bid: 1, name: true\x7d" (Select.renderColumns ["id", "name"]) ++
  "  Only inclusion (1 or true) is supported.\n"

end FindSelect.Reference
