import FindSelect.Sql.Literal

namespace FindSelect

/-- A test of one column. -/
inductive Comparison where
  | isNull (column : String)
  | isNotNull (column : String)
  | equal (column : String) (literal : Literal)
  | related (column : String) (relation : Relation) (literal : Literal)
  | oneOf (column : String) (literals : List Literal)
  deriving DecidableEq, Repr

def Comparison.render : Comparison → String
  | .isNull column => column ++ " IS NULL"
  | .isNotNull column => column ++ " IS NOT NULL"
  | .equal column literal => column ++ " = " ++ literal.render
  | .related column relation literal => column ++ " " ++ relation.symbol ++ " " ++ literal.render
  | .oneOf column literals => column ++ " IN (" ++ ", ".intercalate (literals.map (·.render)) ++ ")"

/-- One parenthesised part of a condition: the tests of a column, all of which
    must hold, or conditions joined by a connective. A condition is a list of
    clauses, all of which must hold. -/
inductive Clause where
  | column (tests : List Comparison)
  | group (connective : Connective) (operands : List (List Clause))
  deriving Repr

namespace Clause

mutual

/-- The text of a clause, in parentheses. -/
def render : Clause → String
  | .column tests => "(" ++ " AND ".intercalate (tests.map (·.render)) ++ ")"
  | .group connective operands =>
    "(" ++ (" " ++ connective.keyword ++ " ").intercalate (renderOperands operands) ++ ")"

/-- The texts of operands. A condition without clauses holds for every row. -/
def renderOperands : List (List Clause) → List String
  | [] => []
  | [] :: operands => "TRUE" :: renderOperands operands
  | (clause :: clauses) :: operands =>
    " AND ".intercalate (render clause :: renderAll clauses) :: renderOperands operands

def renderAll : List Clause → List String
  | [] => []
  | clause :: clauses => render clause :: renderAll clauses

end

/-- The text of a condition; empty without clauses. -/
def renderCondition (condition : List Clause) : String := " AND ".intercalate (renderAll condition)

theorem renderAll_eq_map (clauses : List Clause) : renderAll clauses = clauses.map render := by
  induction clauses with
  | nil => simp [renderAll]
  | cons clause clauses ih => simp [renderAll, ih]

end Clause
end FindSelect
