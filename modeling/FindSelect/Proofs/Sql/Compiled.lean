import FindSelect.Proofs.Outcome
import FindSelect.Proofs.Sql.Rendered
import FindSelect.Proofs.Trace

namespace FindSelect

open Traced

namespace Clause

mutual

/-- The clauses of the entries of a condition document, one for each entry. -/
inductive EntriesCompile : List (String × Value) → List Clause → Prop where
  | nil : EntriesCompile [] []
  | cons {key : String} {value : Value} {entries : List (String × Value)} {clause : Clause}
      {clauses : List Clause} (hentry : EntryCompiles key value clause)
      (hentries : EntriesCompile entries clauses) :
      EntriesCompile ((key, value) :: entries) (clause :: clauses)

/-- The clause of one entry: a connective over a list of documents, or tests of a
    column. -/
inductive EntryCompiles : String → Value → Clause → Prop where
  | group {key : String} {connective : Connective} {operands : List Value}
      {conditions : List (List Clause)} (hkey : Connective.ofKey? key = some connective)
      (hne : operands ≠ []) (hoperands : OperandsCompile operands conditions) :
      EntryCompiles key (.list operands) (.group connective conditions)
  | column {key : String} {value : Value} {tests : List Comparison}
      (hkey : Connective.ofKey? key = none) (hdollar : key.toList.head? ≠ some '$')
      (htests : Comparison.ofColumn key value = .ok tests) :
      EntryCompiles key value (.column tests)

/-- The conditions of the operands of a connective, all of them documents. -/
inductive OperandsCompile : List Value → List (List Clause) → Prop where
  | nil : OperandsCompile [] []
  | cons {entries : List (String × Value)} {operands : List Value} {condition : List Clause}
      {conditions : List (List Clause)} (hentries : EntriesCompile entries condition)
      (hoperands : OperandsCompile operands conditions) :
      OperandsCompile (.document entries :: operands) (condition :: conditions)

end

/-- An entry that is no connective has a clause if its key is no operator and its value has tests.
    -/
theorem result_ofPlain_eq_ok {key : String} {value : Value} {clause : Clause} :
    (ofPlain key value).result = .ok clause ↔
      key.toList.head? ≠ some '$' ∧
        ∃ tests, Comparison.ofColumn key value = .ok tests ∧ clause = .column tests := by
  unfold ofPlain
  split
  · rename_i hdollar
    simp [hdollar]
  · rename_i hdollar
    rw [result_of, map_eq_ok]
    constructor
    · rintro ⟨tests, htests, rfl⟩
      exact ⟨hdollar, tests, htests, rfl⟩
    · rintro ⟨-, tests, htests, rfl⟩
      exact ⟨tests, htests, rfl⟩

/-- Any key but those of connectives names a column. -/
theorem ofEntry_eq_ofPlain {key : String} (hkey : Connective.ofKey? key = none) (value : Value) :
    ofEntry key value = ofPlain key value := by
  cases value <;> simp only [ofEntry, hkey]

/-- A connective is refused over anything but a list. -/
theorem ofEntry_eq_throw {key : String} {connective : Connective}
    (hkey : Connective.ofKey? key = some connective) {value : Value}
    (hvalue : ∀ operands, value ≠ .list operands) :
    ofEntry key value = throw (.unsupportedCondition (.notAList connective value)) := by
  cases value with
  | list operands => exact absurd rfl (hvalue operands)
  | _ => simp only [ofEntry, hkey]

/-- Without a list there are only tests of a column. -/
theorem result_ofEntry_of_not_list {key : String} {value : Value} {clause : Clause}
    (hvalue : ∀ operands, value ≠ .list operands) :
    (ofEntry key value).result = .ok clause ↔ EntryCompiles key value clause := by
  cases hkey : Connective.ofKey? key with
  | none =>
    rw [ofEntry_eq_ofPlain hkey, result_ofPlain_eq_ok]
    constructor
    · rintro ⟨hdollar, tests, htests, rfl⟩
      exact .column hkey hdollar htests
    · rintro (⟨-, -, -⟩ | ⟨-, hdollar, htests⟩)
      · exact absurd rfl (hvalue _)
      · exact ⟨hdollar, _, htests, rfl⟩
  | some connective =>
    constructor
    · intro h
      rw [ofEntry_eq_throw hkey hvalue, result_throw] at h
      contradiction
    · rintro (⟨-, -, -⟩ | ⟨hnone, -, -⟩)
      · exact absurd rfl (hvalue _)
      · rw [hkey] at hnone
        contradiction

mutual

/-- Compiling entries succeeds exactly with the clauses that the relation gives. -/
theorem result_ofEntries_eq_ok : (entries : List (String × Value)) → (clauses : List Clause) →
    ((ofEntries entries).result = .ok clauses ↔ EntriesCompile entries clauses)
  | [], clauses => by
    rw [ofEntries]
    constructor
    · intro h
      obtain rfl := Except.ok.inj h
      exact .nil
    · rintro ⟨⟩
      rfl
  | (key, value) :: entries, clauses => by
    rw [ofEntries, result_bind_eq_ok]
    constructor
    · rintro ⟨clause, hclause, h⟩
      obtain ⟨-, -, h⟩ := result_bind_eq_ok.1 h
      obtain ⟨rest, hrest, h⟩ := result_bind_eq_ok.1 h
      obtain rfl := Except.ok.inj h
      exact .cons ((result_ofEntry_eq_ok key value clause).1 hclause)
        ((result_ofEntries_eq_ok entries rest).1 hrest)
    · rintro (_ | ⟨hclause, hrest⟩)
      refine ⟨_, (result_ofEntry_eq_ok key value _).2 hclause, ?_⟩
      refine result_bind_eq_ok.2 ⟨(), rfl, ?_⟩
      exact result_bind_eq_ok.2 ⟨_, (result_ofEntries_eq_ok entries _).2 hrest, rfl⟩

/-- An entry is compiled to the clause that the rules give it. -/
theorem result_ofEntry_eq_ok (key : String) : (value : Value) → (clause : Clause) →
    ((ofEntry key value).result = .ok clause ↔ EntryCompiles key value clause)
  | .list operands, clause => by
    rw [ofEntry]
    cases hkey : Connective.ofKey? key with
    | none =>
      rw [result_ofPlain_eq_ok]
      constructor
      · rintro ⟨hdollar, tests, htests, rfl⟩
        exact .column hkey hdollar htests
      · rintro (⟨hgroup, -, -⟩ | ⟨-, hdollar, htests⟩)
        · rw [hkey] at hgroup
          contradiction
        · exact ⟨hdollar, _, htests, rfl⟩
    | some connective =>
      dsimp only
      split
      · rename_i hempty
        constructor
        · intro h
          rw [result_throw] at h
          contradiction
        · rintro (⟨-, hne, -⟩ | ⟨hnone, -, -⟩)
          · exact absurd (List.isEmpty_iff.1 hempty) hne
          · rw [hkey] at hnone
            contradiction
      · rename_i hempty
        have hne : operands ≠ [] := fun h => hempty (List.isEmpty_iff.2 h)
        rw [result_bind_eq_ok]
        constructor
        · rintro ⟨conditions, hconditions, h⟩
          obtain rfl := Except.ok.inj h
          exact .group hkey hne
            ((result_ofOperands_eq_ok connective operands conditions).1 hconditions)
        · rintro (⟨hgroup, -, hoperands⟩ | ⟨hnone, -, -⟩)
          · rw [hkey] at hgroup
            obtain rfl := Option.some.inj hgroup
            exact ⟨_, (result_ofOperands_eq_ok connective operands _).2 hoperands, rfl⟩
          · rw [hkey] at hnone
            contradiction
  | .null, clause | .boolean _, clause | .integer _, clause | .float _, clause
  | .string _, clause | .document _, clause => result_ofEntry_of_not_list (by simp)

/-- Operands are compiled to the conditions that the rules give them. -/
theorem result_ofOperands_eq_ok (connective : Connective) : (operands : List Value) →
    (conditions : List (List Clause)) →
    ((ofOperands connective operands).result = .ok conditions ↔ OperandsCompile operands conditions)
  | [], conditions => by
    rw [ofOperands]
    constructor
    · intro h
      obtain rfl := Except.ok.inj h
      exact .nil
    · rintro ⟨⟩
      rfl
  | .document entries :: operands, conditions => by
    rw [ofOperands, result_bind_eq_ok]
    constructor
    · rintro ⟨condition, hcondition, h⟩
      obtain ⟨rest, hrest, h⟩ := result_bind_eq_ok.1 h
      obtain rfl := Except.ok.inj h
      exact .cons ((result_ofEntries_eq_ok entries condition).1 hcondition)
        ((result_ofOperands_eq_ok connective operands rest).1 hrest)
    · rintro (_ | ⟨hcondition, hrest⟩)
      refine ⟨_, (result_ofEntries_eq_ok entries _).2 hcondition, ?_⟩
      exact result_bind_eq_ok.2 ⟨_, (result_ofOperands_eq_ok connective operands _).2 hrest, rfl⟩
  | .null :: _, _ | .boolean _ :: _, _ | .integer _ :: _, _ | .float _ :: _, _
  | .string _ :: _, _ | .list _ :: _, _ => by
    constructor
    · intro h
      simp [ofOperands] at h
    · rintro ⟨⟩

end

end Clause

namespace Connective

theorem ofKey?_eq_some {key : String} {connective : Connective}
    (h : ofKey? key = some connective) : key = connective.key := by
  have hfound := List.find?_some h
  exact (eq_of_beq hfound).symm

theorem ofKey?_eq_none {key : String} (h : ofKey? key = none) (connective : Connective) :
    key ≠ connective.key := by
  have hmem : connective ∈ every := by cases connective <;> simp [every]
  have hnot := List.find?_eq_none.1 h connective hmem
  rintro rfl
  exact hnot (beq_self_eq_true _)

end Connective

theorem Comparator.ofKey?_eq_some {key : String} {comparator : Comparator}
    (h : ofKey? key = some comparator) : key = comparator.key := by
  have hfound := List.find?_some h
  exact (eq_of_beq hfound).symm

namespace Value

mutual

/-- The keys of a condition document that name columns, at every level. -/
def columnKeys : List (String × Value) → List String
  | [] => []
  | (key, value) :: entries => entryColumns key value ++ columnKeys entries

def entryColumns (key : String) : Value → List String
  | .list operands => if key = "$and" ∨ key = "$or" then operandColumns operands else [key]
  | _ => [key]

def operandColumns : List Value → List String
  | [] => []
  | .document entries :: operands => columnKeys entries ++ operandColumns operands
  | _ :: operands => operandColumns operands

end

theorem entryColumns_of_connective {key : String} {connective : Connective} {operands : List Value}
    (h : Connective.ofKey? key = some connective) :
    entryColumns key (.list operands) = operandColumns operands := by
  have hkey : key = "$and" ∨ key = "$or" := by
    rw [Connective.ofKey?_eq_some h]
    cases connective <;> simp [Connective.key]
  rw [entryColumns, if_pos hkey]

theorem entryColumns_of_column {key : String} {value : Value}
    (h : Connective.ofKey? key = none) : entryColumns key value = [key] := by
  have hand := Connective.ofKey?_eq_none h .all
  have hor := Connective.ofKey?_eq_none h .any
  cases value with
  | list operands =>
    rw [entryColumns, if_neg]
    rintro (rfl | rfl)
    · exact hand rfl
    · exact hor rfl
  | _ => rfl

end Value

namespace Comparison

/-- The test of an operator on a column: for one of some members, for a value other than null, or
    for a relation to a constant. -/
inductive OperatorCompiles (column : String) : Comparator → Value → Comparison → Prop where
  | members {items : List Value} {literals : List Literal}
      (hliterals : items.mapM Literal.ofValue = .ok literals) :
      OperatorCompiles column .oneOf (.list items) (.oneOf column literals)
  | notNull : OperatorCompiles column (.relation .notEqual) .null (.isNotNull column)
  | related {relation : Relation} {operand : Value} {literal : Literal}
      (hnull : ¬ (relation = .notEqual ∧ operand = .null))
      (hliteral : Literal.ofValue operand = .ok literal) :
      OperatorCompiles column (.relation relation) operand (.related column relation literal)

/-- The tests of a column: one for null or for equality to a constant, or those of an operator
    map. -/
inductive ColumnCompiles (column : String) : Value → List Comparison → Prop where
  | null : ColumnCompiles column .null [.isNull column]
  | operators {operators : List (String × Value)} {tests : List Comparison}
      (htests : ofOperators column operators = .ok tests) :
      ColumnCompiles column (.document operators) tests
  | literal {value : Value} {literal : Literal} (hnull : value ≠ .null)
      (hliteral : Literal.ofValue value = .ok literal) :
      ColumnCompiles column value [.equal column literal]

/-- An operator is compiled to the test that the rules give it. -/
theorem operatorCompiles_of_ofOperator {column : String} {comparator : Comparator}
    {operand : Value} {test : Comparison} (h : ofOperator column comparator operand = .ok test) :
    OperatorCompiles column comparator operand test := by
  unfold ofOperator at h
  split at h
  · obtain ⟨literals, hliterals, rfl⟩ := map_eq_ok.1 h
    exact .members hliterals
  · contradiction
  · obtain rfl := Except.ok.inj h
    exact .notNull
  · rename_i relation hnull
    split at h
    · obtain ⟨literal, hliteral, rfl⟩ := map_eq_ok.1 h
      exact .related (fun hboth => hnull hboth.2 hboth.1) hliteral
    · contradiction

/-- A column is compiled to the tests that the rules give it. -/
theorem columnCompiles_of_ofColumn {column : String} {value : Value} {tests : List Comparison}
    (h : ofColumn column value = .ok tests) : ColumnCompiles column value tests := by
  unfold ofColumn at h
  split at h
  · obtain rfl := Except.ok.inj h
    exact .null
  · exact .operators h
  · contradiction
  · rename_i hnull _ _
    obtain ⟨literal, hliteral, rfl⟩ := map_eq_ok.1 h
    exact .literal hnull hliteral

theorem subject_of_ofOperator {column : String} {comparator : Comparator} {operand : Value}
    {test : Comparison} (h : ofOperator column comparator operand = .ok test) :
    test.subject = column := by
  cases operatorCompiles_of_ofOperator h <;> rfl

/-- The tests of an operator map come from its operators, one from each. -/
theorem ofOperators_eq_ok {column : String} {operators : List (String × Value)}
    {tests : List Comparison} :
    ofOperators column operators = .ok tests ↔ operators ≠ [] ∧
      List.Forall₂ (fun operator test => ∃ comparator,
        Comparator.ofKey? operator.1 = some comparator ∧
          ofOperator column comparator operator.2 = .ok test) operators tests := by
  unfold ofOperators
  split
  · rename_i hempty
    simp [List.isEmpty_iff.1 hempty]
  · rename_i hempty
    have hne : operators ≠ [] := fun hnil => hempty (List.isEmpty_iff.2 hnil)
    rw [mapM_eq_ok]
    constructor
    · intro h
      refine ⟨hne, h.imp ?_⟩
      rintro ⟨key, operand⟩ test htest
      dsimp only at htest
      split at htest
      · rename_i comparator hcomparator
        exact ⟨comparator, hcomparator, htest⟩
      · contradiction
    · rintro ⟨-, h⟩
      refine h.imp ?_
      rintro ⟨key, operand⟩ test ⟨comparator, hcomparator, htest⟩
      dsimp only at hcomparator htest ⊢
      rw [hcomparator]
      exact htest

/-- All tests that a column gets are tests of that column. -/
theorem subject_of_ofColumn {column : String} {value : Value} {tests : List Comparison}
    (h : ofColumn column value = .ok tests) : ∀ test ∈ tests, test.subject = column := by
  intro test htest
  cases columnCompiles_of_ofColumn h with
  | null =>
    rw [List.mem_singleton.1 htest]
    rfl
  | operators htests =>
    obtain ⟨-, htests⟩ := ofOperators_eq_ok.1 htests
    obtain ⟨operator, -, comparator, -, hoperator⟩ := exists_of_mem_right htests htest
    exact subject_of_ofOperator hoperator
  | literal =>
    rw [List.mem_singleton.1 htest]
    rfl

end Comparison

namespace Clause

mutual

/-- The clauses of a document test only columns that its keys name. -/
theorem EntriesCompile.subjects_subset : {entries : List (String × Value)} →
    {clauses : List Clause} → EntriesCompile entries clauses →
    ∀ key ∈ allSubjects clauses, key ∈ Value.columnKeys entries
  | _, _, .nil => by simp [allSubjects]
  | _, _, .cons hentry hentries => by
    intro key hkey
    rw [allSubjects] at hkey
    rw [Value.columnKeys]
    rcases List.mem_append.1 hkey with hkey | hkey
    · exact List.mem_append_left _ (hentry.subjects_subset key hkey)
    · exact List.mem_append_right _ (hentries.subjects_subset key hkey)

theorem EntryCompiles.subjects_subset : {key : String} → {value : Value} → {clause : Clause} →
    EntryCompiles key value clause →
    ∀ column ∈ clause.subjects, column ∈ Value.entryColumns key value
  | _, _, _, .group hkey _ hoperands => by
    intro column hcolumn
    rw [subjects] at hcolumn
    rw [Value.entryColumns_of_connective hkey]
    exact hoperands.subjects_subset column hcolumn
  | _, _, _, .column hkey _ htests => by
    intro column hcolumn
    rw [subjects] at hcolumn
    obtain ⟨test, htest, rfl⟩ := List.mem_map.1 hcolumn
    rw [Value.entryColumns_of_column hkey, Comparison.subject_of_ofColumn htests test htest]
    exact List.mem_singleton_self _

theorem OperandsCompile.subjects_subset : {operands : List Value} →
    {conditions : List (List Clause)} → OperandsCompile operands conditions →
    ∀ key ∈ operandSubjects conditions, key ∈ Value.operandColumns operands
  | _, _, .nil => by simp [operandSubjects]
  | _, _, .cons hentries hoperands => by
    intro key hkey
    rw [operandSubjects] at hkey
    rw [Value.operandColumns]
    rcases List.mem_append.1 hkey with hkey | hkey
    · exact List.mem_append_left _ (hentries.subjects_subset key hkey)
    · exact List.mem_append_right _ (hoperands.subjects_subset key hkey)

end

end Clause

/-- The columns of a projection are its keys. -/
theorem Select.columnsOf_eq_ok {projection : List (String × Value)} {columns : List String}
    (h : columnsOf projection = .ok columns) : columns = projection.map Prod.fst := by
  have hcolumns := mapM_eq_ok.1 h
  clear h
  induction hcolumns with
  | nil => rfl
  | @cons entry column projection columns hentry _ ih =>
    obtain ⟨key, value⟩ := entry
    have hkey : column = key := by
      dsimp only at hentry
      split at hentry
      · exact (Except.ok.inj hentry).symm
      · exact (Except.ok.inj hentry).symm
      · contradiction
    rw [List.map_cons, ih, hkey]

/-- A call has a statement exactly when its conditions and its projection do. -/
theorem FindCall.result_toSql_eq_ok {call : FindCall} {sql : String} :
    call.toSql.result = .ok sql ↔ ∃ condition columns,
      Clause.EntriesCompile call.conditions.entries condition ∧
        Select.columnsOf call.projection.entries = .ok columns ∧
          sql = (⟨columns, call.table, condition⟩ : Select).render := by
  unfold toSql Select.ofCall
  constructor
  · intro h
    obtain ⟨select, hselect, h⟩ := result_bind_eq_ok.1 h
    obtain ⟨condition, hcondition, hselect⟩ := result_bind_eq_ok.1 hselect
    obtain ⟨columns, hcolumns, hselect⟩ := result_bind_eq_ok.1 hselect
    obtain rfl := Except.ok.inj hselect
    obtain rfl := Except.ok.inj h
    exact ⟨condition, columns, (Clause.result_ofEntries_eq_ok _ _).1 hcondition, hcolumns, rfl⟩
  · rintro ⟨condition, columns, hcondition, hcolumns, rfl⟩
    refine result_bind_eq_ok.2 ⟨⟨columns, call.table, condition⟩, ?_, rfl⟩
    refine result_bind_eq_ok.2 ⟨condition, (Clause.result_ofEntries_eq_ok _ _).2 hcondition, ?_⟩
    exact result_bind_eq_ok.2 ⟨columns, hcolumns, rfl⟩

end FindSelect
