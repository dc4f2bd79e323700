import FindSelect.Text.Cursor

namespace FindSelect.Text.Cursor

/-- One operation on a cursor. -/
inductive Step where
  | advance
  | skipBlanks
  | skipGap
  | takeQuoted
  | takeEnclosed (opening closing : Char)
  | takeToken (stops : List Char)
  deriving DecidableEq, Repr

/-- What a step reports besides the new cursor: nothing for a mere move, the
    text of a read, or why the read failed. -/
inductive Report where
  | moved
  | read (text : List Char)
  | unclosed (span : OpenSpan)
  deriving DecidableEq, Repr

def Report.ofRead : Except OpenSpan (List Char) → Report
  | .ok text => .read text
  | .error span => .unclosed span

/-- Performs one step; `none` if the step asks for text past the end. -/
def Step.perform (c : Cursor) : Step → Option (Report × Cursor)
  | .advance => some (.moved, c.advance 1)
  | .skipBlanks => some (.moved, c.skipBlanks)
  | .skipGap => some (.moved, c.skipGap)
  | .takeQuoted => some (.ofRead c.takeQuoted.1, c.takeQuoted.2)
  | .takeEnclosed opening closing =>
    let result := c.takeEnclosed opening closing
    some (.ofRead result.1, result.2)
  | .takeToken stops => (c.takeToken stops).map fun (token, next) => (.read token, next)

/-- Performs steps in order and lists each report with the cursor it leaves.
    A step that asks for text past the end adds a last `none`. -/
def performAll (c : Cursor) : List Step → List (Option (Report × Cursor))
  | [] => []
  | step :: steps =>
    match step.perform c with
    | none => [none]
    | some (report, next) => some (report, next) :: performAll next steps

end FindSelect.Text.Cursor
