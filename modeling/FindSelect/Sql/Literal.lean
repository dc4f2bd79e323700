import FindSelect.Sql.SelectError
import FindSelect.Text.Blank

namespace FindSelect

/-- A constant in a statement. -/
inductive Literal where
  | null
  | boolean (b : Bool)
  | integer (n : Int64)
  | float (x : Binary64)
  | string (s : String)
  deriving DecidableEq, Repr

namespace Literal

/-- The constant for a primitive. Lists and documents have none. -/
def ofValue : Value → Except SelectError Literal
  | .null => .ok .null
  | .boolean b => .ok (.boolean b)
  | .integer n => .ok (.integer n)
  | .float x => .ok (.float x)
  | .string s => .ok (.string s)
  | value => .error (.unsupportedCondition (.notALiteral value))

/-- The text of a constant. A floating-point number always shows a point or an
    exponent, which tells it from an integer. -/
def render : Literal → String
  | .null => "NULL"
  | .boolean true => "TRUE"
  | .boolean false => "FALSE"
  | .integer n => String.ofList (writeInt n.toInt)
  | .float x => String.ofList (x.write Value.numberLayout)
  | .string s => String.ofList (Text.quotedWith '\'' s.toList)

end Literal
end FindSelect
