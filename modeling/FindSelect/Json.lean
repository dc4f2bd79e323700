import FindSelect.Find.Call

namespace FindSelect

/-- A JSON text as a tree. The members of an object are in order. -/
inductive Json where
  | null
  | boolean (b : Bool)
  | integer (n : Int64)
  | float (x : Binary64)
  | string (s : String)
  | array (items : List Json)
  | object (members : List (String × Json))
  deriving Repr, Inhabited

namespace Json

/-- Adds a member to an object: a present name keeps its place and takes the new
    value. -/
def addMember (members : List (String × Json)) (name : String) (value : Json) :
    List (String × Json) :=
  match members with
  | [] => [(name, value)]
  | (n, v) :: rest => if n = name then (n, value) :: rest else (n, v) :: addMember rest name value

/-- An object with the given members, added in order. -/
def ofMembers (members : List (String × Json)) : Json :=
  .object (members.foldl (fun done (name, value) => addMember done name value) [])

mutual

/-- The JSON form of a value. Numbers that JSON cannot write become null. -/
def ofValue : Value → Json
  | .null => .null
  | .boolean b => .boolean b
  | .integer n => .integer n
  | .float x => if x.isFinite then .float x else .null
  | .string s => .string s
  | .list items => .array (ofItems items)
  | .document entries => .ofMembers (ofEntries entries)

def ofItems : List Value → List Json
  | [] => []
  | item :: items => ofValue item :: ofItems items

def ofEntries : List (String × Value) → List (String × Json)
  | [] => []
  | (key, value) :: entries => (key, ofValue value) :: ofEntries entries

end

/-- The JSON form of a call. -/
def ofCall (call : FindCall) : Json :=
  .ofMembers
    [("table", .string call.table), ("conditions", ofValue call.conditions.toValue),
     ("projection", ofValue call.projection.toValue)]

/-- Numbers are written out from `0.00001` up to sixteen digits before the point,
    and with a signed exponent beyond. -/
def numberLayout : Layout := ⟨-5, 16, ['+'], .toEven⟩

/-- The two hexadecimal digits of a control character. -/
def hexPair (n : Nat) : List Char := [Nat.digitChar (n / 16), Nat.digitChar (n % 16)]

/-- A character inside a string. Only the quote, the backslash and the control
    characters below the space are escaped. -/
def escape (c : Char) : List Char :=
  match c with
  | '"' => ['\\', '"']
  | '\\' => ['\\', '\\']
  | '\x08' => ['\\', 'b']
  | '\t' => ['\\', 't']
  | '\n' => ['\\', 'n']
  | '\x0c' => ['\\', 'f']
  | '\r' => ['\\', 'r']
  | c => if c.toNat < 0x20 then "\\u00".toList ++ hexPair c.toNat else [c]

def quote (s : String) : String := "\"" ++ String.ofList (s.toList.flatMap escape) ++ "\""

/-- The text of what is neither an array nor an object. -/
def renderScalar : Json → String
  | .null => "null"
  | .boolean true => "true"
  | .boolean false => "false"
  | .integer n => String.ofList (writeInt n.toInt)
  | .float x => String.ofList (x.write numberLayout)
  | .string s => quote s
  | .array _ | .object _ => ""

mutual

/-- The text without any white space. -/
def compact : Json → String
  | .array items => "[" ++ ",".intercalate (compactItems items) ++ "]"
  | .object members => "\x7b" ++ ",".intercalate (compactMembers members) ++ "\x7d"
  | json => renderScalar json

def compactItems : List Json → List String
  | [] => []
  | item :: items => compact item :: compactItems items

def compactMembers : List (String × Json) → List String
  | [] => []
  | (name, value) :: members => (quote name ++ ":" ++ compact value) :: compactMembers members

end

/-- Puts parts on lines of their own between two brackets, two spaces deeper than
    the brackets. Without parts the brackets touch. -/
def block (opening closing : String) (indent : Nat) (parts : List String) : String :=
  let margin (n : Nat) : String := "\n" ++ String.ofList (List.replicate n ' ')
  if parts.isEmpty then opening ++ closing
  else opening ++ margin (indent + 2) ++ ("," ++ margin (indent + 2)).intercalate parts ++
    margin indent ++ closing

mutual

/-- The text with every item and member on a line of its own. -/
def prettyAt (indent : Nat) : Json → String
  | .array items => block "[" "]" indent (prettyItems (indent + 2) items)
  | .object members => block "\x7b" "\x7d" indent (prettyMembers (indent + 2) members)
  | json => renderScalar json

def prettyItems (indent : Nat) : List Json → List String
  | [] => []
  | item :: items => prettyAt indent item :: prettyItems indent items

def prettyMembers (indent : Nat) : List (String × Json) → List String
  | [] => []
  | (name, value) :: members =>
    (quote name ++ ": " ++ prettyAt indent value) :: prettyMembers indent members

end

def pretty (json : Json) : String := prettyAt 0 json

end Json
end FindSelect
