import FindSelect.Sql.Clause
import FindSelect.Trace

namespace FindSelect

namespace Comparison

/-- The test for one operator and its operand. In a statement nothing compares
    unequal to null, so that test has a form of its own. -/
def ofOperator (column : String) : Comparator → Value → Except SelectError Comparison
  | .oneOf, .list items => (items.mapM Literal.ofValue).map (.oneOf column)
  | .oneOf, operand => .error (.unsupportedCondition (.membersNotList operand))
  | .relation .notEqual, .null => .ok (.isNotNull column)
  | .relation relation, operand =>
    if operand.isPrimitive then (Literal.ofValue operand).map (.related column relation)
    else .error (.unsupportedCondition (.notSingle relation operand))

/-- The tests for an operator map, in order. -/
def ofOperators (column : String) (operators : List (String × Value)) :
    Except SelectError (List Comparison) :=
  if operators.isEmpty then .error (.unsupportedCondition (.noOperators column))
  else operators.mapM fun (key, operand) =>
    match Comparator.ofKey? key with
    | some comparator => ofOperator column comparator operand
    | none => .error (.unknownOperator key)

/-- The tests for the value that a document gives to a column. -/
def ofColumn (column : String) : Value → Except SelectError (List Comparison)
  | .null => .ok [.isNull column]
  | .document operators => ofOperators column operators
  | .list _ => .error (.unsupportedCondition (.columnIsList column))
  | value => (Literal.ofValue value).map fun literal => [.equal column literal]

end Comparison

namespace Clause

/-- The clause for a key that is no connective. A dollar sign marks operators, so
    such a key is never a column. -/
def ofPlain (key : String) (value : Value) : Traced SelectError Clause :=
  if key.toList.head? = some '$' then throw (.unknownOperator key)
  else Traced.of ((Comparison.ofColumn key value).map .column)

mutual

/-- The clauses for the entries of a document, in order. Every clause is reported
    when it is complete, so those of inner documents come first. -/
def ofEntries : List (String × Value) → Traced SelectError (List Clause)
  | [] => pure []
  | (key, value) :: entries => do
    let clause ← ofEntry key value
    Traced.emit (.compiledCondition key clause.render)
    let clauses ← ofEntries entries
    return clause :: clauses

/-- The clause for one entry: a connective over documents, or a column. -/
def ofEntry (key : String) : Value → Traced SelectError Clause
  | .list operands =>
    match Connective.ofKey? key with
    | some connective =>
      if operands.isEmpty then throw (.unsupportedCondition (.noOperands connective))
      else return .group connective (← ofOperands connective operands)
    | none => ofPlain key (.list operands)
  | value =>
    match Connective.ofKey? key with
    | some connective => throw (.unsupportedCondition (.notAList connective value))
    | none => ofPlain key value

/-- The conditions for the operands of a connective, in order. -/
def ofOperands (connective : Connective) : List Value → Traced SelectError (List (List Clause))
  | [] => pure []
  | .document entries :: operands => do
    let condition ← ofEntries entries
    let conditions ← ofOperands connective operands
    return condition :: conditions
  | operand :: _ => throw (.unsupportedCondition (.operandNotDocument connective operand))

end

end Clause
end FindSelect
