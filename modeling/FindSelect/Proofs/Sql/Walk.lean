import FindSelect.Proofs.Sql.Compiled

namespace FindSelect

open Traced

/-- A place in a condition document where something can be wrong: an entry, an operand of a
    connective, an operator with its operand, or a member of a list that is such an operand. -/
inductive Site where
  | entry (key : String) (value : Value)
  | operand (connective : Connective) (value : Value)
  | operator (key : String) (value : Value)
  | member (value : Value)
  deriving DecidableEq

namespace Value

/-- What keeps a value from being the list of operands of a connective. -/
def operandsFault? (connective : Connective) : Value → Option ConditionFault
  | .list [] => some (.noOperands connective)
  | .list _ => none
  | value => some (.notAList connective value)

/-- What keeps a value from being the condition on a column. -/
def columnFault? (column : String) : Value → Option ConditionFault
  | .list _ => some (.columnIsList column)
  | .document [] => some (.noOperators column)
  | _ => none

/-- What keeps a value from being the operand of a comparator. -/
def comparedFault? : Comparator → Value → Option ConditionFault
  | .oneOf, .list _ => none
  | .oneOf, value => some (.membersNotList value)
  | .relation relation, value =>
    if value.isPrimitive then none else some (.notSingle relation value)

end Value

namespace Site

/-- What is wrong at a place itself, whatever stands below it. -/
def fault? : Site → Option SelectError
  | .entry key value =>
    match Connective.ofKey? key with
    | some connective => (value.operandsFault? connective).map .unsupportedCondition
    | none =>
      if key.toList.head? = some '$' then some (.unknownOperator key)
      else (value.columnFault? key).map .unsupportedCondition
  | .operand _ (.document _) => none
  | .operand connective value =>
    some (.unsupportedCondition (.operandNotDocument connective value))
  | .operator key value =>
    match Comparator.ofKey? key with
    | some comparator => (value.comparedFault? comparator).map .unsupportedCondition
    | none => some (.unknownOperator key)
  | .member value =>
    if value.isPrimitive then none else some (.unsupportedCondition (.notALiteral value))

/-- The operator at a place that has no meaning there: a key with a dollar sign among conditions
    that is no connective, or a key of an operator map that is none of the six. -/
def unknownOperator? : Site → Option String
  | .entry key _ =>
    if key.toList.head? = some '$' ∧ key ≠ "$and" ∧ key ≠ "$or" then some key else none
  | .operator key _ =>
    if key ∈ ["$ne", "$gt", "$gte", "$lt", "$lte", "$in"] then none else some key
  | _ => none

end Site

namespace Value

/-- The places below an operator: the members of a list. -/
def memberSites : Value → List Site
  | .list items => items.map .member
  | _ => []

/-- The places of an operator map. -/
def operatorSites : List (String × Value) → List Site
  | [] => []
  | (key, operand) :: operators =>
    .operator key operand :: (memberSites operand ++ operatorSites operators)

mutual

/-- The places of a condition document, in the order of a walk from left to right that goes below
    each place before it goes on. -/
def sites : List (String × Value) → List Site
  | [] => []
  | (key, value) :: entries => .entry key value :: (sitesBelow key value ++ sites entries)

/-- The places below an entry: the operands of a connective, or the operators for a column. -/
def sitesBelow (key : String) : Value → List Site
  | .list operands =>
    match Connective.ofKey? key with
    | some connective => operandSites connective operands
    | none => []
  | .document operators => operatorSites operators
  | _ => []

def operandSites (connective : Connective) : List Value → List Site
  | [] => []
  | .document entries :: operands =>
    .operand connective (.document entries) :: (sites entries ++ operandSites connective operands)
  | operand :: operands => .operand connective operand :: operandSites connective operands

end

end Value

/-- The first thing that is wrong at some places. -/
def firstFault? (places : List Site) : Option SelectError := places.findSome? Site.fault?

/-- A fault at the first place comes before those at the others. -/
theorem firstFault?_cons (site : Site) (places : List Site) :
    firstFault? (site :: places) = site.fault?.or (firstFault? places) := by
  rw [firstFault?, List.findSome?_cons]
  cases site.fault? <;> rfl

theorem firstFault?_append (places more : List Site) :
    firstFault? (places ++ more) = (firstFault? places).or (firstFault? more) :=
  List.findSome?_append

/-- A value has no literal for what is wrong with it as a member of a list. -/
theorem Literal.errorOf?_ofValue (value : Value) :
    errorOf? (ofValue value) = Site.fault? (.member value) := by
  cases value <;> rfl

/-- A list has no literals for the first thing that is wrong with its items. -/
theorem errorOf?_mapM_ofValue (items : List Value) :
    errorOf? (items.mapM Literal.ofValue) = firstFault? (items.map .member) := by
  induction items with
  | nil => rfl
  | cons item items ih =>
    rw [errorOf?_mapM_cons, List.map_cons, firstFault?_cons, ih, Literal.errorOf?_ofValue]

namespace Comparison

/-- The test for an operator fails at its operand, or at a member of it. -/
theorem errorOf?_ofOperator (column : String) (comparator : Comparator) (value : Value) :
    errorOf? (ofOperator column comparator value) =
      ((value.comparedFault? comparator).map .unsupportedCondition).or
        (firstFault? value.memberSites) := by
  cases comparator with
  | oneOf =>
    cases value with
    | list items =>
      rw [ofOperator, errorOf?_map]
      exact errorOf?_mapM_ofValue items
    | _ => rfl
  | relation relation => cases relation <;> cases value <;> rfl

/-- The tests for an operator map fail at the first place where something is wrong. -/
theorem errorOf?_ofOperators (column : String) {operators : List (String × Value)}
    (hne : operators ≠ []) :
    errorOf? (ofOperators column operators) = firstFault? (Value.operatorSites operators) := by
  have hempty : ¬ operators.isEmpty = true := fun h => hne (List.isEmpty_iff.1 h)
  rw [ofOperators, if_neg hempty]
  clear hne hempty
  induction operators with
  | nil => rfl
  | cons operator operators ih =>
    obtain ⟨key, operand⟩ := operator
    rw [errorOf?_mapM_cons, ih, Value.operatorSites, firstFault?_cons, firstFault?_append,
      ← Option.or_assoc, Site.fault?]
    dsimp only
    cases Comparator.ofKey? key with
    | none => rfl
    | some comparator => rw [errorOf?_ofOperator]

end Comparison

namespace Clause

/-- An entry that is no connective has no clause for the first thing that is wrong in it. -/
theorem errorOf?_ofPlain {key : String} (hkey : Connective.ofKey? key = none) (value : Value) :
    errorOf? (ofPlain key value).result =
      firstFault? (.entry key value :: Value.sitesBelow key value) := by
  rw [firstFault?_cons, Site.fault?, hkey, ofPlain]
  by_cases hdollar : key.toList.head? = some '$'
  · rw [if_pos hdollar]
    simp [hdollar]
  · rw [if_neg hdollar, result_of, errorOf?_map]
    simp only [if_neg hdollar]
    cases value with
    | list operands => simp [Value.columnFault?, Value.sitesBelow, hkey, Comparison.ofColumn]
    | document operators =>
      cases operators with
      | nil => rfl
      | cons operator operators =>
        exact Comparison.errorOf?_ofOperators key (List.cons_ne_nil _ _)
    | _ => rfl

theorem errorOf?_ofEntry_of_not_list {key : String} {value : Value}
    (hvalue : ∀ operands, value ≠ .list operands) :
    errorOf? (ofEntry key value).result =
      firstFault? (.entry key value :: Value.sitesBelow key value) := by
  cases hkey : Connective.ofKey? key with
  | none => rw [ofEntry_eq_ofPlain hkey, errorOf?_ofPlain hkey]
  | some connective =>
    rw [ofEntry_eq_throw hkey hvalue, firstFault?_cons, Site.fault?, hkey]
    cases value with
    | list operands => exact absurd rfl (hvalue operands)
    | _ => rfl

/-- The clauses of a document fail where that of its first entry does, or else the others. -/
theorem errorOf?_ofEntries_cons (key : String) (value : Value) (entries : List (String × Value)) :
    errorOf? (ofEntries ((key, value) :: entries)).result =
      (errorOf? (ofEntry key value).result).or (errorOf? (ofEntries entries).result) := by
  rw [ofEntries]
  simp only [result_bind]
  cases (ofEntry key value).result with
  | error e => rfl
  | ok clause => cases (ofEntries entries).result <;> rfl

theorem errorOf?_ofOperands_document (connective : Connective) (entries : List (String × Value))
    (operands : List Value) :
    errorOf? (ofOperands connective (.document entries :: operands)).result =
      (errorOf? (ofEntries entries).result).or
        (errorOf? (ofOperands connective operands).result) := by
  rw [ofOperands]
  simp only [result_bind]
  cases (ofEntries entries).result with
  | error e => rfl
  | ok condition => cases (ofOperands connective operands).result <;> rfl

/-- A connective with operands has no clause for what is wrong with them. -/
theorem errorOf?_ofEntry_group {key : String} {connective : Connective}
    (hkey : Connective.ofKey? key = some connective) {operands : List Value}
    (hne : operands ≠ []) :
    errorOf? (ofEntry key (.list operands)).result =
      errorOf? (ofOperands connective operands).result := by
  have hempty : ¬ operands.isEmpty = true := fun h => hne (List.isEmpty_iff.1 h)
  rw [ofEntry, hkey]
  dsimp only
  rw [if_neg hempty, result_bind]
  cases (ofOperands connective operands).result <;> rfl

mutual

/-- The clauses of a document fail at the first place where something is wrong. The walk recurs as
    the clauses do. -/
theorem errorOf?_ofEntries : (entries : List (String × Value)) →
    errorOf? (ofEntries entries).result = firstFault? (Value.sites entries)
  | [] => rfl
  | (key, value) :: entries => by
    rw [errorOf?_ofEntries_cons, errorOf?_ofEntry key value, errorOf?_ofEntries entries,
      Value.sites, ← List.cons_append, firstFault?_append]

/-- An entry has no clause for the first thing that is wrong with it or below it. -/
theorem errorOf?_ofEntry (key : String) : (value : Value) →
    errorOf? (ofEntry key value).result =
      firstFault? (.entry key value :: Value.sitesBelow key value)
  | .list operands => by
    cases hkey : Connective.ofKey? key with
    | none =>
      rw [ofEntry, hkey]
      exact errorOf?_ofPlain hkey (.list operands)
    | some connective =>
      rw [firstFault?_cons, Site.fault?, Value.sitesBelow, hkey]
      cases operands with
      | nil =>
        rw [ofEntry, hkey]
        rfl
      | cons operand operands =>
        rw [errorOf?_ofEntry_group hkey (List.cons_ne_nil _ _),
          errorOf?_ofOperands connective (operand :: operands)]
        rfl
  | .null | .boolean _ | .integer _ | .float _ | .string _ | .document _ =>
    errorOf?_ofEntry_of_not_list (by simp)

theorem errorOf?_ofOperands (connective : Connective) : (operands : List Value) →
    errorOf? (ofOperands connective operands).result =
      firstFault? (Value.operandSites connective operands)
  | [] => rfl
  | .document entries :: operands => by
    rw [errorOf?_ofOperands_document, errorOf?_ofEntries entries,
      errorOf?_ofOperands connective operands, Value.operandSites, firstFault?_cons,
      firstFault?_append]
    rfl
  | .null :: _ | .boolean _ :: _ | .integer _ :: _ | .float _ :: _ | .string _ :: _
  | .list _ :: _ => rfl

end

end Clause

/-- A document has no condition for the first thing that is wrong in it. -/
theorem Document.errorOf?_toCondition (d : Document) :
    errorOf? d.toCondition.result = firstFault? (Value.sites d.entries) := by
  rw [← Clause.errorOf?_ofEntries, Document.toCondition, result_bind]
  cases (Clause.ofEntries d.entries).result <;> rfl

end FindSelect
