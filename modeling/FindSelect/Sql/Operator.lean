namespace FindSelect

/-- The relations that an operator map can ask for. -/
inductive Relation where
  | notEqual
  | greater
  | greaterEqual
  | less
  | lessEqual
  deriving DecidableEq, Repr

namespace Relation

/-- The name of a relation in a document. -/
def key : Relation → String
  | .notEqual => "$ne"
  | .greater => "$gt"
  | .greaterEqual => "$gte"
  | .less => "$lt"
  | .lessEqual => "$lte"

/-- The sign of a relation in a statement. -/
def symbol : Relation → String
  | .notEqual => "!="
  | .greater => ">"
  | .greaterEqual => ">="
  | .less => "<"
  | .lessEqual => "<="

end Relation

/-- The operators of an operator map: a relation to one value, or membership in a
    list. -/
inductive Comparator where
  | relation (r : Relation)
  | oneOf
  deriving DecidableEq, Repr

namespace Comparator

def key : Comparator → String
  | .relation r => r.key
  | .oneOf => "$in"

def symbol : Comparator → String
  | .relation r => r.symbol
  | .oneOf => "IN"

/-- Every comparator, in the order of the reference. -/
def all : List Comparator :=
  [.relation .notEqual, .relation .greater, .relation .greaterEqual, .relation .less,
   .relation .lessEqual, .oneOf]

def ofKey? (key : String) : Option Comparator := all.find? (·.key == key)

end Comparator

/-- The operators that join whole documents. -/
inductive Connective where
  | all
  | any
  deriving DecidableEq, Repr

namespace Connective

def key : Connective → String
  | .all => "$and"
  | .any => "$or"

def keyword : Connective → String
  | .all => "AND"
  | .any => "OR"

/-- Every connective, in the order of the reference. -/
def every : List Connective := [.all, .any]

def ofKey? (key : String) : Option Connective := every.find? (·.key == key)

end Connective
end FindSelect
