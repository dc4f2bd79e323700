import FindSelect.Proofs.Sql.Compiled

namespace FindSelect

open Text Sql

namespace Value

mutual

/-- The contents of the strings of a value, in order. -/
def strings : Value → List String
  | .string s => [s]
  | .list items => itemStrings items
  | .document entries => entryStrings entries
  | _ => []

def itemStrings : List Value → List String
  | [] => []
  | item :: items => strings item ++ itemStrings items

def entryStrings : List (String × Value) → List String
  | [] => []
  | (_, value) :: entries => strings value ++ entryStrings entries

end

mutual

/-- Values that differ in nothing but the contents of their strings. -/
inductive Alike : Value → Value → Prop where
  | primitive {value : Value} (h : value.isPrimitive = true) : Alike value value
  | string (s t : String) : Alike (.string s) (.string t)
  | list {items items' : List Value} (h : AlikeItems items items') :
      Alike (.list items) (.list items')
  | document {entries entries' : List (String × Value)} (h : AlikeEntries entries entries') :
      Alike (.document entries) (.document entries')

inductive AlikeItems : List Value → List Value → Prop where
  | nil : AlikeItems [] []
  | cons {item item' : Value} {items items' : List Value} (hitem : Alike item item')
      (hitems : AlikeItems items items') : AlikeItems (item :: items) (item' :: items')

inductive AlikeEntries : List (String × Value) → List (String × Value) → Prop where
  | nil : AlikeEntries [] []
  | cons {key : String} {value value' : Value} {entries entries' : List (String × Value)}
      (hvalue : Alike value value') (hentries : AlikeEntries entries entries') :
      AlikeEntries ((key, value) :: entries) ((key, value') :: entries')

end

mutual

/-- The contents of strings make no difference to which columns are named. -/
theorem AlikeEntries.columnKeys_eq : {entries entries' : List (String × Value)} →
    AlikeEntries entries entries' → columnKeys entries' = columnKeys entries
  | _, _, .nil => rfl
  | _, _, .cons hvalue hentries => by
    rw [columnKeys, columnKeys, hvalue.entryColumns_eq, hentries.columnKeys_eq]

theorem Alike.entryColumns_eq {key : String} : {value value' : Value} → Alike value value' →
    entryColumns key value' = entryColumns key value
  | _, _, .primitive _ => rfl
  | _, _, .string _ _ => rfl
  | _, _, .list hitems => by rw [entryColumns, entryColumns, hitems.operandColumns_eq]
  | _, _, .document _ => rfl

theorem AlikeItems.operandColumns_eq : {items items' : List Value} → AlikeItems items items' →
    operandColumns items' = operandColumns items
  | _, _, .nil => rfl
  | _, _, .cons (.document hentries) hitems => by
    rw [operandColumns, operandColumns, hentries.columnKeys_eq, hitems.operandColumns_eq]
  | _, _, .cons (.list _) hitems => by
    simp only [operandColumns, hitems.operandColumns_eq]
  | _, _, .cons (.string _ _) hitems => by
    simp only [operandColumns, hitems.operandColumns_eq]
  | _, _, @AlikeItems.cons item _ _ _ (.primitive h) hitems => by
    cases item <;> simp_all [operandColumns, hitems.operandColumns_eq, isPrimitive]

end

end Value

namespace Sql

/-- Tokens that are equal, or that are both strings. -/
inductive Token.Alike : Token → Token → Prop where
  | same (token : Token) : Alike token token
  | string (s t : List Char) : Alike (.string s) (.string t)

def Token.string? : Token → Option String
  | .string text => some (String.ofList text)
  | _ => none

/-- The contents of the strings among tokens, in order. -/
def tokenStrings (tokens : List Token) : List String := tokens.filterMap Token.string?

@[simp] theorem tokenStrings_append (a b : List Token) :
    tokenStrings (a ++ b) = tokenStrings a ++ tokenStrings b :=
  List.filterMap_append

/-- A separator without strings leaves those of the parts, in order. -/
theorem tokenStrings_intercalate {separator : List Token} (h : tokenStrings separator = [])
    (parts : List (List Token)) :
    tokenStrings (separator.intercalate parts) = parts.flatMap tokenStrings := by
  induction parts with
  | nil => rfl
  | cons part parts ih =>
    cases parts with
    | nil => simp
    | cons next parts =>
      rw [List.intercalate_cons_cons, tokenStrings_append, tokenStrings_append, h, ih]
      simp

theorem tokenStrings_columnTokens (column : String) : tokenStrings (columnTokens column) = [] := by
  unfold columnTokens columnToken
  split
  · rfl
  · split <;> rfl

theorem alike_refl (tokens : List Token) : List.Forall₂ Token.Alike tokens tokens :=
  List.forall₂_same.2 fun token _ => .same token

theorem alike_append {a a' b b' : List Token} (ha : List.Forall₂ Token.Alike a a')
    (hb : List.Forall₂ Token.Alike b b') : List.Forall₂ Token.Alike (a ++ b) (a' ++ b') :=
  List.rel_append ha hb

/-- Parts that are alike in pairs are alike when they are joined. -/
theorem alike_intercalate (separator : List Token) {parts parts' : List (List Token)}
    (h : List.Forall₂ (List.Forall₂ Token.Alike) parts parts') :
    List.Forall₂ Token.Alike (separator.intercalate parts) (separator.intercalate parts') := by
  induction h with
  | nil => exact alike_refl _
  | cons hpart hparts ih =>
    cases hparts with
    | nil => simpa using hpart
    | cons hnext hparts =>
      rw [List.intercalate_cons_cons, List.intercalate_cons_cons]
      exact alike_append (alike_append hpart (alike_refl separator)) ih

end Sql

namespace Literal

theorem tokenStrings_number (text : List Char) : tokenStrings (numberTokens text) = [] := by
  unfold numberTokens
  split <;> rfl

/-- A literal has the strings of the value that it is made of. -/
theorem tokenStrings_of_ofValue {value : Value} {literal : Literal}
    (h : ofValue value = .ok literal) : tokenStrings literal.tokens = value.strings := by
  cases value with
  | null =>
    obtain rfl := Except.ok.inj h
    rfl
  | boolean b =>
    obtain rfl := Except.ok.inj h
    cases b <;> rfl
  | integer n =>
    obtain rfl := Except.ok.inj h
    exact tokenStrings_number _
  | float x =>
    obtain rfl := Except.ok.inj h
    exact tokenStrings_number _
  | string s =>
    obtain rfl := Except.ok.inj h
    simp [tokens, tokenStrings, Token.string?, Value.strings]
  | list items => contradiction
  | document entries => contradiction

/-- The members of a list have the strings of its items. -/
theorem tokenStrings_of_mapM {items : List Value} {literals : List Literal}
    (h : items.mapM ofValue = .ok literals) :
    (literals.map (·.tokens)).flatMap tokenStrings = Value.itemStrings items := by
  have hitems := mapM_eq_ok.1 h
  clear h
  induction hitems with
  | nil => rfl
  | cons hitem _ ih =>
    rw [List.map_cons, List.flatMap_cons, ih, tokenStrings_of_ofValue hitem, Value.itemStrings]

/-- Alike values have constants that differ at most in a string. -/
theorem alike_of_ofValue {value value' : Value} {literal : Literal} (halike : value.Alike value')
    (h : ofValue value = .ok literal) :
    ∃ literal', ofValue value' = .ok literal' ∧
      List.Forall₂ Token.Alike literal.tokens literal'.tokens := by
  cases halike with
  | primitive => exact ⟨literal, h, alike_refl _⟩
  | string s t =>
    obtain rfl := Except.ok.inj h
    exact ⟨.string t, rfl, .cons (.string _ _) .nil⟩
  | list => contradiction
  | document => contradiction

/-- Lists that are alike have members that are alike. -/
theorem alike_of_mapM : {items items' : List Value} → {literals : List Literal} →
    Value.AlikeItems items items' → items.mapM ofValue = .ok literals →
    ∃ literals', items'.mapM ofValue = .ok literals' ∧
      List.Forall₂ (List.Forall₂ Token.Alike) (literals.map (·.tokens)) (literals'.map (·.tokens))
  | _, _, literals, .nil, h => by
    obtain rfl := Except.ok.inj h
    exact ⟨[], rfl, .nil⟩
  | _, _, literals, .cons hitem hitems, h => by
    rw [mapM_eq_ok, List.forall₂_cons_left_iff] at h
    obtain ⟨literal, rest, hliteral, hrest, rfl⟩ := h
    obtain ⟨literal', hliteral', htokens⟩ := alike_of_ofValue hitem hliteral
    obtain ⟨rest', hrest', hmore⟩ := alike_of_mapM hitems (mapM_eq_ok.2 hrest)
    refine ⟨literal' :: rest', ?_, .cons htokens hmore⟩
    exact mapM_eq_ok.2 (.cons hliteral' (mapM_eq_ok.1 hrest'))

end Literal

namespace Comparison

/-- A test has the strings of the operand that its column is compared to. -/
theorem tokenStrings_of_ofOperator {column : String} {comparator : Comparator} {operand : Value}
    {test : Comparison} (h : ofOperator column comparator operand = .ok test) :
    tokenStrings test.tokens = operand.strings := by
  have hcolumn := tokenStrings_columnTokens column
  cases operatorCompiles_of_ofOperator h with
  | @members items literals hliterals =>
    have hcomma : tokenStrings [.comma] = [] := rfl
    have hmembers := tokenStrings_intercalate hcomma (literals.map (·.tokens))
    rw [Literal.tokenStrings_of_mapM hliterals] at hmembers
    rw [tokens, tokenStrings_append, tokenStrings_append, hcolumn, List.nil_append, Value.strings,
      ← hmembers]
    exact List.append_nil _
  | notNull =>
    rw [tokens, tokenStrings_append, hcolumn]
    rfl
  | related _ hliteral =>
    rw [tokens, tokenStrings_append, hcolumn, ← Literal.tokenStrings_of_ofValue hliteral]
    rfl

theorem tokenStrings_of_ofOperators {column : String} {operators : List (String × Value)}
    {tests : List Comparison} (h : ofOperators column operators = .ok tests) :
    (tests.map (·.tokens)).flatMap tokenStrings = Value.entryStrings operators := by
  obtain ⟨-, htests⟩ := ofOperators_eq_ok.1 h
  clear h
  induction htests with
  | nil => rfl
  | cons htest _ ih =>
    obtain ⟨comparator, -, hoperator⟩ := htest
    rw [List.map_cons, List.flatMap_cons, ih, tokenStrings_of_ofOperator hoperator,
      Value.entryStrings]

/-- The tests of a column have the strings of its value, in order. -/
theorem tokenStrings_of_ofColumn {column : String} {value : Value} {tests : List Comparison}
    (h : ofColumn column value = .ok tests) :
    (tests.map (·.tokens)).flatMap tokenStrings = value.strings := by
  have hcolumn := tokenStrings_columnTokens column
  cases columnCompiles_of_ofColumn h with
  | null =>
    have htokens : tokenStrings (isNull column).tokens = [] := by
      rw [tokens, tokenStrings_append, hcolumn]
      rfl
    simpa [Value.strings] using htokens
  | operators htests => rw [tokenStrings_of_ofOperators htests, Value.strings]
  | @literal _ literal _ hliteral =>
    have htokens : tokenStrings (equal column literal).tokens = tokenStrings literal.tokens := by
      rw [tokens, tokenStrings_append, hcolumn]
      rfl
    simpa [← Literal.tokenStrings_of_ofValue hliteral] using htokens

/-- An operator on alike operands gives tests that differ at most in strings. -/
theorem alike_of_ofOperator {column : String} {comparator : Comparator} {operand operand' : Value}
    {test : Comparison} (halike : operand.Alike operand')
    (h : ofOperator column comparator operand = .ok test) :
    ∃ test', ofOperator column comparator operand' = .ok test' ∧
      List.Forall₂ Token.Alike test.tokens test'.tokens := by
  cases halike with
  | primitive => exact ⟨test, h, alike_refl _⟩
  | string s t =>
    cases comparator with
    | oneOf => contradiction
    | relation relation =>
      have hrelated (text : String) : ofOperator column (.relation relation) (.string text) =
          .ok (.related column relation (.string text)) := by
        cases relation <;> rfl
      rw [hrelated] at h
      obtain rfl := Except.ok.inj h
      refine ⟨_, hrelated t, ?_⟩
      exact alike_append (alike_refl _) (.cons (.same _) (.cons (.string _ _) .nil))
  | @list items items' hitems =>
    cases comparator with
    | oneOf =>
      obtain ⟨literals, hliterals, rfl⟩ := map_eq_ok.1 h
      obtain ⟨literals', hliterals', htokens⟩ := Literal.alike_of_mapM hitems hliterals
      refine ⟨.oneOf column literals', map_eq_ok.2 ⟨literals', hliterals', rfl⟩, ?_⟩
      have hmembers := alike_intercalate [.comma] htokens
      exact alike_append (alike_append (alike_refl _) (.cons (.same _) (.cons (.same _) hmembers)))
        (alike_refl _)
    | relation relation => cases relation <;> contradiction
  | document =>
    cases comparator with
    | oneOf => contradiction
    | relation relation => cases relation <;> contradiction

/-- Operator maps that are alike have tests that are alike. -/
theorem alike_of_ofOperators {column : String} {operators operators' : List (String × Value)}
    {tests : List Comparison} (halike : Value.AlikeEntries operators operators')
    (h : ofOperators column operators = .ok tests) :
    ∃ tests', ofOperators column operators' = .ok tests' ∧
      List.Forall₂ (List.Forall₂ Token.Alike) (tests.map (·.tokens)) (tests'.map (·.tokens)) := by
  simp only [ofOperators_eq_ok] at h ⊢
  obtain ⟨hne, htests⟩ := h
  have hne' : operators' ≠ [] := by
    rintro rfl
    cases halike
    exact hne rfl
  simp only [hne', ne_eq, not_false_eq_true, true_and]
  clear hne hne'
  induction htests generalizing operators' with
  | nil =>
    cases halike
    exact ⟨[], .nil, .nil⟩
  | cons htest _ ih =>
    cases halike with
    | cons hvalue hentries =>
      obtain ⟨comparator, hcomparator, hoperator⟩ := htest
      obtain ⟨test', htest', htokens⟩ := alike_of_ofOperator hvalue hoperator
      obtain ⟨tests', htests', hmore⟩ := ih hentries
      exact ⟨test' :: tests', .cons ⟨comparator, hcomparator, htest'⟩ htests', .cons htokens hmore⟩

/-- Alike values of a column have tests that differ at most in strings. -/
theorem alike_of_ofColumn {column : String} {value value' : Value} {tests : List Comparison}
    (halike : value.Alike value') (h : ofColumn column value = .ok tests) :
    ∃ tests', ofColumn column value' = .ok tests' ∧
      List.Forall₂ (List.Forall₂ Token.Alike) (tests.map (·.tokens)) (tests'.map (·.tokens)) := by
  cases halike with
  | primitive => exact ⟨tests, h, List.forall₂_same.2 fun tokens _ => alike_refl tokens⟩
  | string s t =>
    obtain rfl := Except.ok.inj h
    refine ⟨_, rfl, .cons ?_ .nil⟩
    exact alike_append (alike_refl _) (.cons (.same _) (.cons (.string _ _) .nil))
  | list => contradiction
  | document hentries => exact alike_of_ofOperators hentries h

end Comparison

namespace Clause

mutual

/-- The strings of the clauses of entries are those of the entries, in order. -/
theorem EntriesCompile.tokenStrings_eq : {entries : List (String × Value)} →
    {clauses : List Clause} → EntriesCompile entries clauses →
    (allTokens clauses).flatMap tokenStrings = Value.entryStrings entries
  | _, _, .nil => by rw [allTokens, Value.entryStrings, List.flatMap_nil]
  | _, _, .cons hentry hentries => by
    rw [allTokens, Value.entryStrings, List.flatMap_cons, hentry.tokenStrings_eq,
      hentries.tokenStrings_eq]

theorem EntryCompiles.tokenStrings_eq : {key : String} → {value : Value} → {clause : Clause} →
    EntryCompiles key value clause → tokenStrings clause.tokens = value.strings
  | _, _, _, @EntryCompiles.group _ connective _ conditions _ _ hoperands => by
    have hkeyword : tokenStrings [.keyword connective.keyword] = [] := rfl
    rw [tokens, Value.strings, ← hoperands.tokenStrings_eq, ← tokenStrings_intercalate hkeyword,
      tokenStrings_append]
    exact List.append_nil _
  | _, _, _, @EntryCompiles.column _ value tests _ _ htests => by
    have hand : tokenStrings [.keyword "AND"] = [] := rfl
    rw [tokens, ← Comparison.tokenStrings_of_ofColumn htests, ← tokenStrings_intercalate hand,
      tokenStrings_append]
    exact List.append_nil _

theorem OperandsCompile.tokenStrings_eq : {operands : List Value} →
    {conditions : List (List Clause)} → OperandsCompile operands conditions →
    (operandTokens conditions).flatMap tokenStrings = Value.itemStrings operands
  | _, _, .nil => by rw [operandTokens, Value.itemStrings, List.flatMap_nil]
  | _, _, @OperandsCompile.cons entries operands condition conditions hentries hoperands => by
    rw [Value.itemStrings, Value.strings, ← hentries.tokenStrings_eq, ← hoperands.tokenStrings_eq]
    cases condition with
    | nil =>
      rw [operandTokens, allTokens]
      rfl
    | cons clause clauses =>
      have hand : tokenStrings [.keyword "AND"] = [] := rfl
      rw [operandTokens, allTokens, List.flatMap_cons, tokenStrings_intercalate hand]

end

/-- One more operand that is alike: an empty one is written as a constant on both sides. -/
theorem alike_operandTokens {condition condition' : List Clause}
    {conditions conditions' : List (List Clause)}
    (h : List.Forall₂ (List.Forall₂ Token.Alike) (allTokens condition) (allTokens condition'))
    (hmore : List.Forall₂ (List.Forall₂ Token.Alike) (operandTokens conditions)
      (operandTokens conditions')) :
    List.Forall₂ (List.Forall₂ Token.Alike) (operandTokens (condition :: conditions))
      (operandTokens (condition' :: conditions')) := by
  cases condition with
  | nil =>
    cases condition' with
    | nil =>
      rw [operandTokens, operandTokens]
      exact .cons (alike_refl _) hmore
    | cons clause' clauses' => simp [allTokens] at h
  | cons clause clauses =>
    cases condition' with
    | nil => simp [allTokens] at h
    | cons clause' clauses' =>
      rw [operandTokens, operandTokens]
      rw [allTokens, allTokens] at h
      exact .cons (alike_intercalate _ h) hmore

mutual

/-- Alike entries compile to clauses that differ at most in strings. -/
theorem EntriesCompile.alike : {entries entries' : List (String × Value)} →
    {clauses : List Clause} → EntriesCompile entries clauses →
    Value.AlikeEntries entries entries' → ∃ clauses', EntriesCompile entries' clauses' ∧
      List.Forall₂ (List.Forall₂ Token.Alike) (allTokens clauses) (allTokens clauses')
  | _, _, _, .nil, .nil => by
    refine ⟨[], .nil, ?_⟩
    rw [allTokens]
    exact .nil
  | _, _, _, .cons hentry hentries, .cons hvalue hrest => by
    obtain ⟨clause', hclause', htokens⟩ := hentry.alike hvalue
    obtain ⟨clauses', hclauses', hmore⟩ := hentries.alike hrest
    refine ⟨clause' :: clauses', .cons hclause' hclauses', ?_⟩
    rw [allTokens, allTokens]
    exact .cons htokens hmore

theorem EntryCompiles.alike : {key : String} → {value value' : Value} → {clause : Clause} →
    EntryCompiles key value clause → value.Alike value' → ∃ clause',
      EntryCompiles key value' clause' ∧ List.Forall₂ Token.Alike clause.tokens clause'.tokens
  | _, _, _, _, @EntryCompiles.group _ connective _ _ hkey hne hoperands, .list hitems => by
    obtain ⟨conditions', hconditions', htokens⟩ := hoperands.alike hitems
    refine ⟨.group connective conditions', .group hkey ?_ hconditions', ?_⟩
    · rintro rfl
      cases hitems
      exact hne rfl
    · rw [tokens, tokens]
      have hinner := alike_intercalate [.keyword connective.keyword] htokens
      exact alike_append (.cons (.same _) hinner) (alike_refl _)
  | _, _, _, _, .column hkey hdollar htests, hvalue => by
    obtain ⟨tests', htests', htokens⟩ := Comparison.alike_of_ofColumn hvalue htests
    refine ⟨.column tests', .column hkey hdollar htests', ?_⟩
    rw [tokens, tokens]
    have hinner := alike_intercalate [.keyword "AND"] htokens
    exact alike_append (.cons (.same _) hinner) (alike_refl _)

theorem OperandsCompile.alike : {operands operands' : List Value} →
    {conditions : List (List Clause)} → OperandsCompile operands conditions →
    Value.AlikeItems operands operands' → ∃ conditions', OperandsCompile operands' conditions' ∧
      List.Forall₂ (List.Forall₂ Token.Alike) (operandTokens conditions)
        (operandTokens conditions')
  | _, _, _, .nil, .nil => by
    refine ⟨[], .nil, ?_⟩
    rw [operandTokens]
    exact .nil
  | _, _, _, .cons hentries hoperands, .cons (.document hdocument) hitems => by
    obtain ⟨condition', hcondition', htokens⟩ := hentries.alike hdocument
    obtain ⟨conditions', hconditions', hmore⟩ := hoperands.alike hitems
    refine ⟨condition' :: conditions', .cons hcondition' hconditions', ?_⟩
    exact alike_operandTokens htokens hmore

end

end Clause

namespace Select

/-- The tokens of a column list. -/
def columnListTokens (columns : List String) : List Token :=
  if columns.isEmpty then [.sign ['*']] else [.comma].intercalate (columns.map columnTokens)

def whereTokens (condition : List Clause) : List Token :=
  if condition.isEmpty then [] else .keyword "WHERE" :: Clause.conditionTokens condition

/-- The tokens of a statement. -/
def tokens (select : Select) : List Token :=
  .keyword "SELECT" :: columnListTokens select.columns ++ .keyword "FROM" ::
    columnTokens select.table ++ whereTokens select.condition ++ [.sign [';']]

/-- The text of a column list has the tokens of its columns. -/
theorem lex_renderColumns {columns : List String} (h : ∀ column ∈ columns, IsIdentifier column) :
    lex (renderColumns columns).toList = some (columnListTokens columns) := by
  unfold renderColumns columnListTokens
  split
  · decide +kernel
  · apply lex_intercalate joins_comma
    rw [List.forall₂_map_right_iff]
    exact List.forall₂_same.2 fun column hcolumn => lex_column (h column hcolumn)

/-- A statement of identifiers is lexed as its tokens, so it ends outside quotes. -/
theorem lex_render {select : Select} (htable : IsIdentifier select.table)
    (hcolumns : ∀ column ∈ select.columns, IsIdentifier column)
    (hcondition : ∀ key ∈ Clause.allSubjects select.condition, IsIdentifier key) :
    lex select.render.toList = some select.tokens := by
  have hselect : lex "SELECT".toList = some [.keyword "SELECT"] := by decide +kernel
  have hlist : lex (' ' :: (renderColumns select.columns).toList) =
      some (columnListTokens select.columns) := by
    rw [lex_blank (by decide), lex_renderColumns hcolumns]
  have hfrom : Joins (' ' :: "FROM".toList ++ [' ']) [.keyword "FROM"] :=
    joins_word (by decide +kernel) (by decide)
  have hwhere : Joins (' ' :: "WHERE".toList ++ [' ']) [.keyword "WHERE"] :=
    joins_word (by decide +kernel) (by decide)
  have hend : lex [';'] = some [.sign [';']] := by decide +kernel
  have htext := hfrom _ _ _ _ (lex_append_break hselect (by decide) hlist) (lex_column htable)
  unfold render tokens whereTokens
  split
  · have hall := lex_append_break htext (by decide) hend
    simpa using hall
  · have hrest := hwhere _ _ _ _ htext (Clause.lex_renderCondition hcondition)
    have hall := lex_append_break hrest (by decide) hend
    simpa using hall

/-- The only strings of a statement are those of its condition. -/
theorem tokenStrings_tokens (select : Select) :
    tokenStrings select.tokens = (Clause.allTokens select.condition).flatMap tokenStrings := by
  have hcolumns : tokenStrings (.keyword "SELECT" :: columnListTokens select.columns) = [] := by
    change tokenStrings (columnListTokens select.columns) = []
    unfold columnListTokens
    split
    · rfl
    · rw [tokenStrings_intercalate rfl]
      simp [tokenStrings_columnTokens]
  have htable : tokenStrings (.keyword "FROM" :: columnTokens select.table) = [] :=
    tokenStrings_columnTokens select.table
  have hwhere : tokenStrings (whereTokens select.condition) =
      (Clause.allTokens select.condition).flatMap tokenStrings := by
    unfold whereTokens
    split
    · rename_i hempty
      rw [List.isEmpty_iff.1 hempty, Clause.allTokens]
      rfl
    · exact tokenStrings_intercalate rfl _
  rw [tokens, tokenStrings_append, tokenStrings_append, tokenStrings_append, hcolumns, htable,
    hwhere]
  exact List.append_nil _

/-- Conditions that are alike make clauses that are alike, or none on both sides. -/
theorem alike_whereTokens {condition condition' : List Clause}
    (h : List.Forall₂ (List.Forall₂ Token.Alike) (Clause.allTokens condition)
      (Clause.allTokens condition')) :
    List.Forall₂ Token.Alike (whereTokens condition) (whereTokens condition') := by
  cases condition with
  | nil =>
    cases condition' with
    | nil => exact alike_refl _
    | cons clause' clauses' => simp [Clause.allTokens] at h
  | cons clause clauses =>
    cases condition' with
    | nil => simp [Clause.allTokens] at h
    | cons clause' clauses' => exact .cons (.same _) (alike_intercalate _ h)

end Select

namespace FindCall

/-- The statement of a call of identifiers ends outside quotes, and its strings are those of
    the conditions, in order. A call with other contents in these strings has a statement too,
    with the same tokens but for these strings. -/
theorem tokenStrings_toSql (call : FindCall) (sql : String) (htable : Plain call.table.toList)
    (hcolumns : ∀ key ∈ Value.columnKeys call.conditions.entries, IsIdentifier key)
    (hprojection : ∀ key ∈ call.projection.keys, IsIdentifier key)
    (h : call.toSql.result = .ok sql) :
    ∃ tokens, lex sql.toList = some tokens ∧
      tokenStrings tokens = Value.entryStrings call.conditions.entries ∧
      ∀ call' : FindCall, call'.table = call.table → call'.projection = call.projection →
        Value.AlikeEntries call.conditions.entries call'.conditions.entries →
        ∃ sql' tokens', call'.toSql.result = .ok sql' ∧ lex sql'.toList = some tokens' ∧
          tokenStrings tokens' = Value.entryStrings call'.conditions.entries ∧
          List.Forall₂ Token.Alike tokens tokens' := by
  obtain ⟨condition, columns, hcondition, hlist, rfl⟩ := result_toSql_eq_ok.1 h
  have htable : IsIdentifier call.table := by
    refine ⟨call.table.toList, ?_⟩
    rw [identifier_of_plain htable, String.ofList_toList]
  have hlist' : ∀ column ∈ columns, IsIdentifier column := by
    rw [Select.columnsOf_eq_ok hlist]
    exact hprojection
  have hlex {condition : List Clause}
      (hkeys : ∀ key ∈ Clause.allSubjects condition,
        key ∈ Value.columnKeys call.conditions.entries) :
      lex (⟨columns, call.table, condition⟩ : Select).render.toList =
        some (⟨columns, call.table, condition⟩ : Select).tokens :=
    Select.lex_render htable hlist' fun key hkey => hcolumns key (hkeys key hkey)
  refine ⟨_, hlex hcondition.subjects_subset, ?_, ?_⟩
  · rw [Select.tokenStrings_tokens, hcondition.tokenStrings_eq]
  · intro call' htable' hprojection' halike
    obtain ⟨condition', hcondition', htokens⟩ := hcondition.alike halike
    have hkeys := hcondition'.subjects_subset
    rw [halike.columnKeys_eq] at hkeys
    refine ⟨_, _, ?_, hlex hkeys, ?_, ?_⟩
    · refine result_toSql_eq_ok.2 ⟨condition', columns, hcondition', ?_, ?_⟩
      · rw [hprojection', hlist]
      · rw [htable']
    · rw [Select.tokenStrings_tokens, hcondition'.tokenStrings_eq]
    · exact alike_append (alike_append (alike_refl _) (Select.alike_whereTokens htokens))
        (alike_refl _)

/-- A call whose strings begin with quotes, end in them or hold nothing else. -/
def quotedOrders : FindCall where
  table := "orders"
  conditions := .ofEntries [("$or", .list [
    .document [("status", .string "');--"),
      ("\"net value\"", .document [("$in", .list [.string "'", .null, .string "a''"])])],
    .document []])]
  projection := .ofEntries [("status", .integer 1)]

theorem tokenStrings_quotedOrders :
    quotedOrders.toSql.result = .ok ("SELECT status FROM orders WHERE ((status = ''');--') AND " ++
        "(\"net value\" IN ('''', NULL, 'a''''')) OR TRUE);") ∧
      ∃ tokens, lex ("SELECT status FROM orders WHERE ((status = ''');--') AND " ++
          "(\"net value\" IN ('''', NULL, 'a''''')) OR TRUE);").toList = some tokens ∧
        tokenStrings tokens = ["');--", "'", "a''"] ∧
        ∀ call' : FindCall, call'.table = "orders" → call'.projection = quotedOrders.projection →
          Value.AlikeEntries quotedOrders.conditions.entries call'.conditions.entries →
          ∃ sql' tokens', call'.toSql.result = .ok sql' ∧ lex sql'.toList = some tokens' ∧
            tokenStrings tokens' = Value.entryStrings call'.conditions.entries ∧
            List.Forall₂ Token.Alike tokens tokens' := by
  have hsql : quotedOrders.toSql.result =
      .ok ("SELECT status FROM orders WHERE ((status = ''');--') AND " ++
        "(\"net value\" IN ('''', NULL, 'a''''')) OR TRUE);") := by decide +kernel
  have hstatus : IsIdentifier "status" := ⟨"status".toList, by decide +kernel⟩
  have hvalue : IsIdentifier "\"net value\"" := ⟨"net value".toList, by decide +kernel⟩
  have hcolumns : ∀ key ∈ Value.columnKeys quotedOrders.conditions.entries, IsIdentifier key := by
    have hkeys : Value.columnKeys quotedOrders.conditions.entries =
        ["status", "\"net value\""] := by
      decide +kernel
    rw [hkeys]
    simp [hstatus, hvalue]
  have hprojection : ∀ key ∈ quotedOrders.projection.keys, IsIdentifier key := by
    have hkeys : quotedOrders.projection.keys = ["status"] := by decide +kernel
    rw [hkeys]
    simp [hstatus]
  have hstrings : Value.entryStrings quotedOrders.conditions.entries = ["');--", "'", "a''"] := by
    decide +kernel
  rw [← hstrings]
  exact ⟨hsql, tokenStrings_toSql quotedOrders _ (by decide +kernel) hcolumns hprojection hsql⟩

end FindCall
end FindSelect
