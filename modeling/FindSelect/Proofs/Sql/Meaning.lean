import FindSelect.Proofs.Sql.Compiled
import FindSelect.Proofs.Sql.Grammar

namespace FindSelect

open Text Sql

namespace Sql

/-- A key that names a column in a condition: a plain name that is no keyword, or any
    other name in double quotes. -/
def IsColumn (key : String) : Prop :=
  ∃ name, key = identifier name ∧ name ≠ [] ∧ (Plain name → keyword? name = none)

/-- The operand that a column is. -/
def columnOperand (key : String) : Operand :=
  match key.toList with
  | '"' :: rest => .name (undoubled '"' rest.dropLast)
  | text => .word false text

def numberOperand : List Char → Operand
  | '-' :: digits => .word true digits
  | digits => .word false digits

/-- The signs of the operators that compare a column to one value. -/
def operatorSigns : List (String × String) :=
  [("$ne", "!="), ("$gt", ">"), ("$gte", ">="), ("$lt", "<"), ("$lte", "<=")]

end Sql

namespace Value

/-- The constant that a primitive is. -/
def operand? : Value → Option Operand
  | .null => some (.word false "NULL".toList)
  | .boolean true => some (.word false "TRUE".toList)
  | .boolean false => some (.word false "FALSE".toList)
  | .integer n => some (numberOperand (writeInt n.toInt))
  | .float x => some (numberOperand (x.write numberLayout))
  | .string s => some (.string s.toList)
  | .list _ | .document _ => none

/-- The comparison that an operator asks of a column. -/
def comparison? (column : Operand) (operator : String) (operand : Value) : Option Test :=
  if operator = "$in" then
    match operand with
    | .list items => (items.mapM operand?).map (.memberOf column)
    | _ => none
  else if operator = "$ne" ∧ operand = .null then some (.isNotNull column)
  else (operatorSigns.lookup operator).bind fun sign =>
    operand.operand?.map (.compared column sign.toList)

mutual

/-- Whether the entries of a condition document hold, given the truth of the
    comparisons: all of them must. -/
def entriesHold (truth : Test → Bool) : List (String × Value) → Bool
  | [] => true
  | (key, value) :: entries => entryHolds truth key value && entriesHold truth entries

/-- Whether an entry holds. A connective asks for all of its operands or for one, an
    operator map for all of its comparisons. -/
def entryHolds (truth : Test → Bool) (key : String) : Value → Bool
  | .list operands =>
    if key = "$and" then (operandsHold truth operands).all id
    else if key = "$or" then (operandsHold truth operands).any id
    else false
  | .document operators =>
    operators.all fun operator =>
      (comparison? (columnOperand key) operator.1 operator.2).any truth
  | .null => truth (.isNull (columnOperand key))
  | value => value.operand?.any fun operand => truth (.compared (columnOperand key) ['='] operand)

/-- Which of the operands of a connective hold. -/
def operandsHold (truth : Test → Bool) : List Value → List Bool
  | [] => []
  | .document entries :: operands => entriesHold truth entries :: operandsHold truth operands
  | _ :: operands => false :: operandsHold truth operands

end

end Value

/-- Whether a condition document holds, given the truth of the comparisons. -/
def Document.holds (conditions : Document) (truth : Test → Bool) : Bool :=
  Value.entriesHold truth conditions.entries

namespace Sql

theorem IsColumn.isIdentifier {key : String} (h : IsColumn key) : IsIdentifier key := by
  obtain ⟨name, hkey, -⟩ := h
  exact ⟨name, hkey⟩

theorem columnOperand_of_plain {name : List Char} (h : Plain name) :
    columnOperand (String.ofList name) = .word false name := by
  unfold columnOperand
  split
  · rename_i rest hname
    rw [String.toList_ofList] at hname
    exact absurd hname (ne_quote_cons_of_plain h rest)
  · rw [String.toList_ofList]

theorem columnOperand_quotedWith (name : List Char) :
    columnOperand (String.ofList (quotedWith '"' name)) = .name name := by
  simp [columnOperand, quotedWith, undoubled_doubled]

/-- A column is one token, which is no keyword and is read as its operand. -/
theorem IsColumn.spec {key : String} (h : IsColumn key) :
    columnTokens key = [columnToken key] ∧ columnToken key ≠ .opening ∧
      (columnToken key).keyword? = none ∧
      ∀ rest, readOperand (columnToken key :: rest) = some (columnOperand key, rest) := by
  obtain ⟨name, rfl, hne, hkeyword⟩ := h
  by_cases hplain : Plain name
  · have hnonempty : String.ofList name ≠ "" := by simpa using hne
    rw [identifier_of_plain hplain, columnTokens, if_neg hnonempty, columnToken_of_plain hplain,
      columnOperand_of_plain hplain]
    refine ⟨rfl, by simp [Token.opening], hkeyword hplain, ?_⟩
    intro rest
    simp [readOperand, hkeyword hplain]
  · have hnonempty : String.ofList (quotedWith '"' name) ≠ "" := by simp [quotedWith]
    rw [identifier_of_not_plain hplain, columnTokens, if_neg hnonempty, columnToken_quotedWith,
      columnOperand_quotedWith]
    exact ⟨rfl, by simp [Token.opening], rfl, fun rest => rfl⟩

theorem keyword?_of_isDigit {first : Char} (h : first.isDigit = true) (rest : List Char) :
    keyword? (first :: rest) = none := by
  have hrange := toNat_of_isDigit h
  have hupper : first.toUpper = first := by
    unfold Char.toUpper
    rw [dif_neg]
    rintro ⟨hlower, -⟩
    have hlower : 97 ≤ first.toNat := hlower
    omega
  unfold keyword?
  rw [List.find?_eq_none]
  intro keyword _ heq
  rw [List.map_cons, hupper] at heq
  cases keyword <;>
  · simp only [Keyword.text, beq_iff_eq, String.reduceToList, List.cons.injEq] at heq
    obtain ⟨rfl, -⟩ := heq
    revert hrange
    decide

/-- No number is a keyword. -/
theorem keyword?_of_unsigned {text : List Char} (h : Unsigned text) : keyword? text = none := by
  cases h with
  | nan => decide
  | infinite => decide
  | plain hfirst => exact keyword?_of_isDigit hfirst _
  | scaled hfirst => exact keyword?_of_isDigit hfirst _

/-- A number is read back from its tokens, whatever follows it. -/
theorem readOperand_number {text : List Char} (h : Numeral text) (rest : List Token) :
    readOperand (numberTokens text ++ rest) = some (numberOperand text, rest) := by
  obtain ⟨sign, body, rfl, hsign, hbody⟩ := h
  have hkeyword := keyword?_of_unsigned hbody
  rcases hsign with rfl | rfl
  · have hoperand : numberOperand body = .word false body := by
      unfold numberOperand
      split
      · rename_i digits
        exact absurd rfl (hbody.ne_minus_cons digits)
      · rfl
    rw [List.nil_append, numberTokens_of_unsigned hbody, hoperand]
    simp [readOperand, hkeyword]
  · simp [numberTokens, numberOperand, readOperand, hkeyword]

end Sql

namespace Literal

/-- The operand that a constant is. -/
def operand : Literal → Operand
  | .null => .word false "NULL".toList
  | .boolean true => .word false "TRUE".toList
  | .boolean false => .word false "FALSE".toList
  | .integer n => numberOperand (writeInt n.toInt)
  | .float x => numberOperand (x.write Value.numberLayout)
  | .string s => .string s.toList

/-- A value that has a literal is the constant that the literal is. -/
theorem operand?_of_ofValue {value : Value} {literal : Literal} (h : ofValue value = .ok literal) :
    value.operand? = some literal.operand := by
  cases value with
  | boolean b =>
    obtain rfl := Except.ok.inj h
    cases b <;> rfl
  | list items => contradiction
  | document entries => contradiction
  | _ =>
    obtain rfl := Except.ok.inj h
    rfl

theorem mapM_operand? {items : List Value} {literals : List Literal}
    (h : items.mapM ofValue = .ok literals) :
    items.mapM Value.operand? = some (literals.map (·.operand)) := by
  have hitems := mapM_eq_ok.1 h
  clear h
  induction hitems with
  | nil => rfl
  | cons hitem _ ih =>
    rw [List.mapM_cons, operand?_of_ofValue hitem, ih]
    rfl

/-- A literal is read back from its tokens, whatever follows it. -/
theorem readOperand_tokens (literal : Literal) (rest : List Token) :
    readOperand (literal.tokens ++ rest) = some (literal.operand, rest) := by
  have hconstant (text : String) (h : (keyword? text.toList).all Keyword.isConstant = true) :
      readOperand ([Token.keyword text] ++ rest) = some (.word false text.toList, rest) := by
    rw [List.singleton_append, Token.keyword, readOperand, if_pos h]
  cases literal with
  | null => exact hconstant "NULL" (by decide)
  | boolean b =>
    cases b with
    | false => exact hconstant "FALSE" (by decide)
    | true => exact hconstant "TRUE" (by decide)
  | integer n => exact readOperand_number (numeral_writeInt n.toInt) rest
  | float x => exact readOperand_number x.numeral_write rest
  | string s => rfl

theorem readSingle_tokens (literal : Literal) :
    readSingle literal.tokens = some literal.operand := by
  have hread := literal.readOperand_tokens []
  rw [List.append_nil] at hread
  rw [readSingle, hread]

theorem tokens_ne_nil (literal : Literal) : literal.tokens ≠ [] := by
  intro hnil
  have hread := literal.readSingle_tokens
  rw [hnil] at hread
  contradiction

/-- The signs of a list do not occur in the constants of its members. -/
theorem ne_of_mem_tokens {literal : Literal} {token : Token} (h : token ∈ literal.tokens) :
    token ≠ .comma ∧ token ≠ .closing := by
  have hnumber {text : List Char} (htoken : token ∈ numberTokens text) :
      token ≠ .comma ∧ token ≠ .closing := by
    unfold numberTokens at htoken
    split at htoken
    · rcases List.mem_cons.1 htoken with rfl | htoken
      · decide
      · obtain rfl := List.mem_singleton.1 htoken
        simp [Token.comma, Token.closing]
    · obtain rfl := List.mem_singleton.1 htoken
      simp [Token.comma, Token.closing]
  cases literal with
  | null =>
    obtain rfl := List.mem_singleton.1 h
    decide
  | boolean b =>
    cases b <;>
    · obtain rfl := List.mem_singleton.1 h
      decide
  | integer n => exact hnumber h
  | float x => exact hnumber h
  | string s =>
    obtain rfl := List.mem_singleton.1 h
    simp [Token.comma, Token.closing]

/-- No parenthesis closes among the members of a list. -/
theorem ne_closing_of_mem_intercalate {literals : List Literal} {token : Token}
    (h : token ∈ [Token.comma].intercalate (literals.map (·.tokens))) : token ≠ .closing := by
  induction literals with
  | nil => simp at h
  | cons literal literals ih =>
    cases literals with
    | nil =>
      have htoken : token ∈ literal.tokens := by simpa using h
      exact (ne_of_mem_tokens htoken).2
    | cons next literals =>
      simp only [List.map_cons, List.intercalate_cons_cons, List.append_assoc, List.mem_append,
        List.mem_singleton] at h ih
      rcases h with h | rfl | h
      · exact (ne_of_mem_tokens h).2
      · decide
      · exact ih h

/-- The members of a list are read back one by one. -/
theorem mapM_readSingle (literals : List Literal) :
    (literals.map (·.tokens)).mapM readSingle = some (literals.map (·.operand)) := by
  induction literals with
  | nil => rfl
  | cons literal literals ih =>
    rw [List.map_cons, List.mapM_cons, literal.readSingle_tokens, ih]
    rfl

/-- The members of a list are read back, whatever follows the list. -/
theorem readMembers_tokens (literals : List Literal) (rest : List Token) :
    readMembers ([Token.comma].intercalate (literals.map (·.tokens)) ++ .closing :: rest) =
      some (literals.map (·.operand), rest) := by
  have hinner : ∀ token ∈ [Token.comma].intercalate (literals.map (·.tokens)),
      (token != .closing) = true := by
    intro token htoken
    simpa using ne_closing_of_mem_intercalate htoken
  unfold readMembers
  rw [List.takeWhile_append_of_pos hinner, List.dropWhile_append_of_pos hinner]
  by_cases hempty : literals = []
  · subst hempty
    rfl
  · have hne : [Token.comma].intercalate (literals.map (·.tokens)) ≠ [] := by
      cases literals with
      | nil => contradiction
      | cons literal literals => cases literals <;> simp [literal.tokens_ne_nil]
    have hsplit : ([Token.comma].intercalate (literals.map (·.tokens))).splitOn .comma =
        literals.map (·.tokens) := by
      refine List.splitOn_intercalate _ ?_ (by simpa using hempty)
      intro tokens htokens hcomma
      obtain ⟨member, -, rfl⟩ := List.mem_map.1 htokens
      exact (ne_of_mem_tokens hcomma).1 rfl
    simp [hne, hsplit, mapM_readSingle, -List.mapM_map]

end Literal

namespace Comparison

/-- The atomic comparison that a test is. -/
def test : Comparison → Test
  | .isNull column => .isNull (columnOperand column)
  | .isNotNull column => .isNotNull (columnOperand column)
  | .equal column literal => .compared (columnOperand column) ['='] literal.operand
  | .related column relation literal =>
    .compared (columnOperand column) relation.symbol.toList literal.operand
  | .oneOf column literals => .memberOf (columnOperand column) (literals.map (·.operand))

/-- The tokens of a test are those of its column and of a predicate that is read back. -/
theorem factor {comparison : Comparison} (h : IsColumn comparison.subject) :
    Factor comparison.tokens (.test comparison.test) := by
  obtain ⟨hcolumn, hopening, hkeyword, hoperand⟩ := h.spec
  -- Every test begins with its column, so only what follows that is left to be read back.
  have hfactor {more : List Token} (hmore : ∀ rest,
      readPredicate (columnOperand comparison.subject) (more ++ rest) =
        some (comparison.test, rest)) :
      Factor (columnTokens comparison.subject ++ more) (.test comparison.test) := by
    rw [hcolumn, List.singleton_append]
    refine .test hopening hkeyword ?_
    intro rest
    rw [List.cons_append, readTest, hoperand]
    exact hmore rest
  cases comparison with
  | isNull column =>
    refine hfactor ?_
    intro rest
    rfl
  | isNotNull column =>
    refine hfactor ?_
    intro rest
    rfl
  | equal column literal =>
    refine hfactor ?_
    intro rest
    have hrelation : ['='] ∈ relations := by decide
    rw [List.cons_append, readPredicate, if_pos hrelation, literal.readOperand_tokens]
    rfl
  | related column relation literal =>
    refine hfactor ?_
    intro rest
    have hrelation : relation.symbol.toList ∈ relations := by cases relation <;> decide
    rw [List.cons_append, readPredicate, if_pos hrelation, literal.readOperand_tokens]
    rfl
  | oneOf column literals =>
    rw [tokens, List.append_assoc]
    refine hfactor ?_
    intro rest
    have hmembers := Literal.readMembers_tokens literals rest
    have hin (more : List Token) :
        readPredicate (columnOperand column) (.keyword "IN" :: .opening :: more) =
          (readMembers more).map fun read =>
            (.memberOf (columnOperand column) read.1, read.2) := rfl
    rw [List.append_assoc, List.singleton_append, List.cons_append, List.cons_append, subject, hin,
      hmembers]
    rfl

/-- A test asks the comparison that its operator asks for. -/
theorem comparison?_of_ofOperator {column : String} {comparator : Comparator} {operand : Value}
    {comparison : Comparison} (h : ofOperator column comparator operand = .ok comparison) :
    Value.comparison? (columnOperand column) comparator.key operand = some comparison.test := by
  cases operatorCompiles_of_ofOperator h with
  | members hliterals =>
    have hmembers := Literal.mapM_operand? hliterals
    simp [Value.comparison?, Comparator.key, hmembers, test]
  | notNull => simp [Value.comparison?, Comparator.key, Relation.key, test]
  | @related relation operand literal hnull hliteral =>
    have hoperand := Literal.operand?_of_ofValue hliteral
    have hkey : relation.key ≠ "$in" := by cases relation <;> decide
    have hsign : operatorSigns.lookup relation.key = some relation.symbol := by
      cases relation <;> decide
    have hne : ¬(relation.key = "$ne" ∧ operand = .null) := by
      rintro ⟨hkey, hvalue⟩
      cases relation with
      | notEqual => exact hnull ⟨rfl, hvalue⟩
      | _ => contradiction
    unfold Value.comparison?
    rw [Comparator.key, if_neg hkey, if_neg hne, hsign, hoperand]
    rfl

/-- The tests of a column say what the document asks of it. -/
theorem entryHolds_of_ofColumn {column : String} {value : Value} {tests : List Comparison}
    (h : ofColumn column value = .ok tests) :
    tests ≠ [] ∧ ∀ truth, Value.entryHolds truth column value = tests.all (truth ·.test) := by
  cases columnCompiles_of_ofColumn h with
  | null =>
    refine ⟨by simp, ?_⟩
    intro truth
    simp [Value.entryHolds, test]
  | operators hoperators =>
    obtain ⟨hne, htests⟩ := ofOperators_eq_ok.1 hoperators
    refine ⟨?_, ?_⟩
    · rintro rfl
      exact hne (List.forall₂_nil_right_iff.1 htests)
    · intro truth
      rw [Value.entryHolds]
      clear h hoperators hne
      induction htests with
      | nil => rfl
      | @cons operator test operators tests htest _ ih =>
        obtain ⟨comparator, hcomparator, hoperator⟩ := htest
        have hkey := Comparator.ofKey?_eq_some hcomparator
        have hcomparison := comparison?_of_ofOperator hoperator
        simp only [List.all_cons]
        rw [ih, hkey, hcomparison]
        rfl
  | literal hnull hliteral =>
    refine ⟨by simp, ?_⟩
    intro truth
    have hoperand := Literal.operand?_of_ofValue hliteral
    cases value with
    | null => exact absurd rfl hnull
    | document operators => contradiction
    | list items => contradiction
    | _ =>
      rw [Value.entryHolds, hoperand] <;> simp [test]

end Comparison

namespace Clause

/-- The operands of a connective are conjunctions, which it joins to a factor. -/
theorem factor_group (connective : Connective) {conditions : List (List Clause)} {es : List Expr}
    (hne : es ≠ []) (h : List.Forall₂ Term (operandTokens conditions) es) :
    ∃ e, Factor (Clause.group connective conditions).tokens e ∧ ∀ truth,
      e.eval truth = match connective with
        | .all => es.all (·.eval truth)
        | .any => es.any (·.eval truth) := by
  cases connective with
  | all =>
    obtain ⟨e, hterm, heval⟩ := Term.join h hne
    refine ⟨e, ?_, heval⟩
    rw [tokens]
    exact .group (.term hterm)
  | any =>
    obtain ⟨e, hcondition, heval⟩ := Condition.join h hne
    refine ⟨e, ?_, heval⟩
    rw [tokens]
    exact .group hcondition

mutual

/-- The clauses of entries are factors that hold together when the entries do. -/
theorem EntriesCompile.terms : {entries : List (String × Value)} → {clauses : List Clause} →
    EntriesCompile entries clauses → (∀ key ∈ Value.columnKeys entries, IsColumn key) →
    ∃ es, List.Forall₂ Term (allTokens clauses) es ∧
      ∀ truth, es.all (·.eval truth) = Value.entriesHold truth entries
  | _, _, .nil, _ => by
    refine ⟨[], ?_, ?_⟩
    · rw [allTokens]
      exact .nil
    · intro truth
      rw [Value.entriesHold, List.all_nil]
  | _, _, .cons hentry hentries, hcolumns => by
    rw [Value.columnKeys, List.forall_mem_append] at hcolumns
    obtain ⟨e, hfactor, heval⟩ := hentry.factor hcolumns.1
    obtain ⟨es, hterms, hevals⟩ := hentries.terms hcolumns.2
    refine ⟨e :: es, ?_, ?_⟩
    · rw [allTokens]
      exact .cons (.factor hfactor) hterms
    · intro truth
      rw [Value.entriesHold, List.all_cons, heval, hevals]

/-- The tokens of a clause are those of an expression that is true where the entry holds. -/
theorem EntryCompiles.factor : {key : String} → {value : Value} → {clause : Clause} →
    EntryCompiles key value clause → (∀ column ∈ Value.entryColumns key value, IsColumn column) →
    ∃ e, Factor clause.tokens e ∧ ∀ truth, e.eval truth = Value.entryHolds truth key value
  | _, _, _, @EntryCompiles.group key connective operands conditions hkey hne hoperands,
      hcolumns => by
    rw [Value.entryColumns_of_connective hkey] at hcolumns
    obtain ⟨es, hterms, hevals⟩ := hoperands.terms hcolumns
    -- Without operands there would be nothing to join, but such a connective has no clause.
    have hes : es ≠ [] := by
      rintro rfl
      have hnone := hevals fun _ => true
      cases hoperands with
      | nil => contradiction
      | cons hentries hrest => simp [Value.operandsHold] at hnone
    obtain ⟨e, hfactor, heval⟩ := factor_group connective hes hterms
    refine ⟨e, hfactor, ?_⟩
    intro truth
    rw [heval, Connective.ofKey?_eq_some hkey, Value.entryHolds, ← hevals]
    cases connective with
    | all => simp [Connective.key, List.all_map]
    | any => simp [Connective.key, List.any_map]
  | _, _, _, @EntryCompiles.column key value tests hkey _ htests, hcolumns => by
    rw [Value.entryColumns_of_column hkey] at hcolumns
    obtain ⟨hne, hholds⟩ := Comparison.entryHolds_of_ofColumn htests
    have hterms : List.Forall₂ Term (tests.map (·.tokens)) (tests.map (.test ·.test)) := by
      rw [List.forall₂_map_left_iff, List.forall₂_map_right_iff]
      refine List.forall₂_same.2 fun test htest => .factor (Comparison.factor ?_)
      rw [Comparison.subject_of_ofColumn htests test htest]
      exact hcolumns key (List.mem_singleton_self key)
    obtain ⟨e, hterm, heval⟩ := Term.join hterms (by simpa using hne)
    refine ⟨e, ?_, ?_⟩
    · rw [tokens]
      exact .group (.term hterm)
    · intro truth
      rw [heval, hholds, List.all_map]
      rfl

/-- The tokens of each operand are those of an expression that is true where it holds. -/
theorem OperandsCompile.terms : {operands : List Value} → {conditions : List (List Clause)} →
    OperandsCompile operands conditions →
    (∀ key ∈ Value.operandColumns operands, IsColumn key) →
    ∃ es, List.Forall₂ Term (operandTokens conditions) es ∧
      ∀ truth, es.map (·.eval truth) = Value.operandsHold truth operands
  | _, _, .nil, _ => by
    refine ⟨[], ?_, ?_⟩
    · rw [operandTokens]
      exact .nil
    · intro truth
      rw [Value.operandsHold, List.map_nil]
  | _, _, @OperandsCompile.cons entries operands condition conditions hentries hoperands,
      hcolumns => by
    rw [Value.operandColumns, List.forall_mem_append] at hcolumns
    obtain ⟨es, hterms, hevals⟩ := hoperands.terms hcolumns.2
    cases condition with
    | nil =>
      cases hentries with
      | nil =>
        refine ⟨.constant true :: es, ?_, ?_⟩
        · rw [operandTokens]
          exact .cons (.factor .yes) hterms
        · intro truth
          rw [Value.operandsHold, Value.entriesHold, List.map_cons, hevals]
          rfl
    | cons clause clauses =>
      obtain ⟨fs, hclauses, hholds⟩ := hentries.terms hcolumns.1
      rw [allTokens] at hclauses
      obtain ⟨e, hterm, heval⟩ := Term.join hclauses (by rintro rfl; cases hclauses)
      refine ⟨e :: es, ?_, ?_⟩
      · rw [operandTokens]
        exact .cons hterm hterms
      · intro truth
        rw [Value.operandsHold, List.map_cons, heval, hholds, hevals]

end

/-- A condition has no text exactly if it has no clauses. -/
theorem renderCondition_eq_empty {clauses : List Clause} :
    renderCondition clauses = "" ↔ clauses = [] := by
  constructor
  · intro h
    cases clauses with
    | nil => rfl
    | cons clause clauses =>
      have htext := congrArg String.toList h
      rw [renderCondition, renderAll_eq_map, String.toList_intercalate] at htext
      cases clause <;> cases clauses <;> simp [render] at htext
  · rintro rfl
    rfl

end Clause

namespace Document

/-- The condition of a document is empty exactly when the document is. Any other is read by
    the grammar, where `AND` binds tighter than `OR`, as an expression that holds, whatever
    the comparisons say, exactly when the document does. -/
theorem readCondition_toCondition (conditions : Document) (text : String)
    (hcolumns : ∀ key ∈ Value.columnKeys conditions.entries, IsColumn key)
    (h : conditions.toCondition.result = .ok text) :
    (text = "" ↔ conditions.entries = []) ∧
      (conditions.entries ≠ [] → ∃ e, readCondition text.toList = some e ∧
        ∀ truth, e.eval truth = conditions.holds truth) := by
  obtain ⟨clauses, hclauses, htext⟩ := Traced.result_bind_eq_ok.1 h
  obtain rfl := Except.ok.inj htext
  have hcompile := (Clause.result_ofEntries_eq_ok conditions.entries clauses).1 hclauses
  have hempty : clauses = [] ↔ conditions.entries = [] := by
    generalize conditions.entries = entries at hcompile
    cases hcompile <;> simp
  refine ⟨Clause.renderCondition_eq_empty.trans hempty, ?_⟩
  intro hne
  obtain ⟨es, hterms, hholds⟩ := hcompile.terms hcolumns
  have hes : es ≠ [] := by
    rintro rfl
    have hnil := List.forall₂_nil_right_iff.1 hterms
    cases clauses with
    | nil => exact hne (hempty.1 rfl)
    | cons clause clauses => simp [Clause.allTokens] at hnil
  obtain ⟨e, hterm, heval⟩ := Term.join hterms hes
  refine ⟨e, ?_, ?_⟩
  · refine readCondition_of_condition (Clause.lex_renderCondition ?_) (.term hterm)
    intro key hkey
    exact (hcolumns key (hcompile.subjects_subset key hkey)).isIdentifier
  · intro truth
    rw [heval, hholds, holds]

/-- Open orders with a quote and a connective in a string, or any order at all. -/
def openOrders : Document :=
  ofEntries [("$or", .list [
    .document [("status", .string "open' OR (1"),
      ("\"net value\"", .document
        [("$gt", .integer (-3)), ("$in", .list [.string "a,b)", .null])])],
    .document []])]

theorem readCondition_openOrders :
    (∀ key ∈ Value.columnKeys openOrders.entries, IsColumn key) ∧
      openOrders.toCondition.result = .ok ("((status = 'open'' OR (1') AND " ++
        "(\"net value\" > -3 AND \"net value\" IN ('a,b)', NULL)) OR TRUE)") ∧
      ∃ e, readCondition ("((status = 'open'' OR (1') AND " ++
          "(\"net value\" > -3 AND \"net value\" IN ('a,b)', NULL)) OR TRUE)").toList = some e ∧
        ∀ truth, e.eval truth = openOrders.holds truth := by
  have hcolumns : ∀ key ∈ Value.columnKeys openOrders.entries, IsColumn key := by
    have hkeys : Value.columnKeys openOrders.entries = ["status", "\"net value\""] := by
      decide +kernel
    intro key hkey
    rw [hkeys, List.mem_cons, List.mem_singleton] at hkey
    rcases hkey with rfl | rfl
    · exact ⟨"status".toList, by decide +kernel, by decide, fun _ => by decide⟩
    · exact ⟨"net value".toList, by decide +kernel, by decide, fun _ => by decide⟩
  have htext : openOrders.toCondition.result = .ok ("((status = 'open'' OR (1') AND " ++
      "(\"net value\" > -3 AND \"net value\" IN ('a,b)', NULL)) OR TRUE)") := by
    decide +kernel
  have hne : openOrders.entries ≠ [] := by decide +kernel
  exact ⟨hcolumns, htext, (readCondition_toCondition openOrders _ hcolumns htext).2 hne⟩

end Document
end FindSelect
