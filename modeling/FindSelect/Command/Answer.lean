import FindSelect.Json
import FindSelect.Sql.Select

namespace FindSelect

/-- Why a request has no answer. -/
inductive RequestError where
  | find (error : FindError)
  | json (detail : String)
  | input (detail : String)
  | noInput
  deriving DecidableEq

namespace RequestError

def message : RequestError → String
  | .find error => error.message
  | .json detail => "JSON error: " ++ detail
  | .input detail => "IO error: " ++ detail
  | .noInput =>
    "No input provided. Supply a find call such as 'db.user.find(\x7b\x7d)' or pipe one to stdin."

/-- The message of the error behind an error, if there is one. -/
def cause : RequestError → Option String
  | .find error => some error.message
  | .json detail => some detail
  | .input detail => some detail
  | .noInput => none

end RequestError

/-- What can be asked about a call: its statement, or how it was read. -/
inductive Request where
  | statement
  | reading
  deriving DecidableEq, Repr

inductive Answer where
  | statement (sql : String)
  | reading (json : Json)

/-- Answers a request about the text of a call. A blank text is no call. -/
def Request.answer (request : Request) (text : Option String) : Traced RequestError Answer :=
  match text.filter fun text => !(Text.trim text.toList).isEmpty with
  | none => throw .noInput
  | some text => do
    let call ← (FindCall.receive text).mapError .find
    match request with
    | .reading => return .reading (Json.ofCall call)
    | .statement => return .statement (← call.toSql.mapError (.find ∘ .compile))

end FindSelect
