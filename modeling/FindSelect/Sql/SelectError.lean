import FindSelect.Document.Value
import FindSelect.Sql.Operator

namespace FindSelect

/-- What makes a condition one that no clause stands for. -/
inductive ConditionFault where
  /-- A connective has no list. -/
  | notAList (connective : Connective) (operand : Value)
  /-- A connective has an empty list. -/
  | noOperands (connective : Connective)
  /-- A connective has an operand that is no document. -/
  | operandNotDocument (connective : Connective) (operand : Value)
  /-- A column is compared to a list. -/
  | columnIsList (column : String)
  /-- A column has an operator map without operators. -/
  | noOperators (column : String)
  /-- Membership is asked in something that is no list. -/
  | membersNotList (operand : Value)
  /-- A relation is asked to a list or a document. -/
  | notSingle (relation : Relation) (operand : Value)
  /-- A list or a document stands where a literal must. -/
  | notALiteral (value : Value)
  deriving DecidableEq

def ConditionFault.message : ConditionFault → String
  | .notAList connective operand =>
    connective.key ++ " expects a list of documents, got " ++ operand.kind
  | .noOperands connective => connective.key ++ " requires at least one condition"
  | .operandNotDocument connective operand =>
    connective.key ++ " operands must be documents, got " ++ operand.kind
  | .columnIsList column => "column " ++ column ++ " cannot be compared to a list; use $in"
  | .noOperators column => "empty operator map for column " ++ column
  | .membersNotList operand => "$in expects a list, got " ++ operand.kind
  | .notSingle relation operand =>
    relation.key ++ " expects a single value, got " ++ operand.kind
  | .notALiteral value =>
    "a " ++ value.kind ++ " cannot be used as a literal: " ++ value.display

/-- Why a call has no statement. -/
inductive SelectError where
  | unsupportedCondition (fault : ConditionFault)
  | unknownOperator (key : String)
  | unsupportedProjection (column : String) (value : Value)
  deriving DecidableEq

def SelectError.message : SelectError → String
  | .unsupportedCondition fault => "Unsupported condition: " ++ fault.message
  | .unknownOperator key => "Unknown operator '" ++ key ++ "'"
  | .unsupportedProjection column value =>
    "Unsupported projection " ++ column ++ ": " ++ value.display ++
      ". Only projections with a value of 1 or true are supported; " ++
      "columns cannot be excluded without knowing them all"

end FindSelect
