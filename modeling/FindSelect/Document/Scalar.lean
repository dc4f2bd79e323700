import FindSelect.Text.Blank
import FindSelect.Document.SyntaxError
import FindSelect.Document.Value

namespace FindSelect

/-- Reads a signed integer that fits into 64 bits. -/
def readInt64? (text : List Char) : Option Int64 :=
  (readInt? text).bind fun n =>
    if Int64.minValue.toInt ≤ n ∧ n ≤ Int64.maxValue.toInt then some (Int64.ofInt n) else none

/-- Reads a bare token: null, a boolean, an integer, or a number with a finite
    value. Integers too large for 64 bits become floating-point numbers. -/
def readScalar (text : List Char) : Except SyntaxError Value :=
  let token := Text.trim text
  let malformed := SyntaxError.malformedScalar (String.ofList token)
  if token = "null".toList then .ok .null
  else if token = "true".toList then .ok (.boolean true)
  else if token = "false".toList then .ok (.boolean false)
  else match readInt64? token with
    | some n => .ok (.integer n)
    | none => match Binary64.read? token with
      | some x => if x.isFinite then .ok (.float x) else .error malformed
      | none => .error malformed

/-- The outcomes of a bare token, each with what it takes to come to it. -/
inductive ScalarOutcome (token : List Char) : Except SyntaxError Value → Prop where
  | null (htoken : token = "null".toList) : ScalarOutcome token (.ok .null)
  | true (htoken : token = "true".toList) : ScalarOutcome token (.ok (.boolean true))
  | false (htoken : token = "false".toList) : ScalarOutcome token (.ok (.boolean false))
  | integer {n : Int64} (hinteger : readInt64? token = some n) :
      ScalarOutcome token (.ok (.integer n))
  | float {x : Binary64} (hinteger : readInt64? token = none)
      (hfloat : Binary64.read? token = some x) (hfinite : x.isFinite = .true) :
      ScalarOutcome token (.ok (.float x))
  | malformed (hnull : token ≠ "null".toList) (htrue : token ≠ "true".toList)
      (hfalse : token ≠ "false".toList) (hinteger : readInt64? token = none)
      (hfloat : ∀ x, Binary64.read? token = some x → x.isFinite = .false) :
      ScalarOutcome token (.error (.malformedScalar (String.ofList token)))

/-- A token comes to one of its outcomes. -/
theorem scalarOutcome_readScalar (text : List Char) :
    ScalarOutcome (Text.trim text) (readScalar text) := by
  unfold readScalar
  dsimp only
  split
  · exact .null ‹_›
  rename_i hnull
  split
  · exact .true ‹_›
  rename_i htrue
  split
  · exact .false ‹_›
  rename_i hfalse
  split
  · exact .integer ‹_›
  rename_i hinteger
  split
  · rename_i x hfloat
    split
    · exact .float hinteger hfloat ‹_›
    · rename_i hinfinite
      refine .malformed hnull htrue hfalse hinteger fun y hy => ?_
      rw [← Option.some.inj (hfloat.symm.trans hy)]
      exact Bool.eq_false_iff.2 hinfinite
  · rename_i hnone
    refine .malformed hnull htrue hfalse hinteger fun y hy => ?_
    rw [hnone] at hy
    contradiction

end FindSelect
