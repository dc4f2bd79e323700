import FindSelect.Proofs.Find.Faults
import FindSelect.Proofs.Sql.Compiled

namespace FindSelect

open Text Sql

namespace Sql

open LexState

def Token.semicolon : Token := .sign [';']

/-- The number of parentheses that are open after some tokens. There is none if one was closed
    that was not open, or if a semicolon came before. -/
def nesting : Nat → List Token → Option Nat
  | depth, [] => some depth
  | depth, token :: tokens =>
    if token = .opening then nesting (depth + 1) tokens
    else if token = .closing then if depth = 0 then none else nesting (depth - 1) tokens
    else if token = .semicolon then none
    else nesting depth tokens

/-- A text that keeps to itself: its quotes and parentheses are closed in their turn, and no
    semicolon stands outside quotes. -/
def Contained (text : String) : Prop :=
  ∃ tokens, lex text.toList = some tokens ∧ nesting 0 tokens = some 0

/-- One statement: its quotes and parentheses are closed in their turn, and of the semicolons
    outside quotes there is only the one that ends it. -/
def IsStatement (sql : String) : Prop :=
  ∃ body tokens, sql = body ++ ";" ∧ lex sql.toList = some (tokens ++ [.semicolon]) ∧
    nesting 0 tokens = some 0

/-- A token that neither opens nor closes anything, nor ends a statement. -/
def Token.IsInner (token : Token) : Prop :=
  token ≠ .opening ∧ token ≠ .closing ∧ token ≠ .semicolon

theorem Token.isInner_word (text : List Char) : IsInner (.word text) := by
  simp [IsInner, opening, closing, semicolon]

theorem Token.isInner_name (text : List Char) : IsInner (.name text) := by
  simp [IsInner, opening, closing, semicolon]

theorem Token.isInner_string (text : List Char) : IsInner (.string text) := by
  simp [IsInner, opening, closing, semicolon]

section Nesting

variable {tokens : List Token}

/-- The parentheses that are open after some tokens are those the next ones begin with. -/
theorem nesting_append (depth : Nat) (tokens more : List Token) :
    nesting depth (tokens ++ more) = (nesting depth tokens).bind (nesting · more) := by
  induction tokens generalizing depth with
  | nil => rfl
  | cons token tokens ih =>
    simp only [List.cons_append, nesting]
    split
    · exact ih (depth + 1)
    split
    · split
      · rfl
      · exact ih (depth - 1)
    split
    · rfl
    · exact ih depth

/-- Parentheses that are open before make no difference to those after. -/
theorem nesting_add {depth after : Nat} (h : nesting depth tokens = some after) (n : Nat) :
    nesting (depth + n) tokens = some (after + n) := by
  induction tokens generalizing depth with
  | nil =>
    obtain rfl := Option.some.inj h
    rfl
  | cons token tokens ih =>
    simp only [nesting] at h ⊢
    split at h
    · rename_i hopening
      rw [if_pos hopening, Nat.add_right_comm]
      exact ih h
    rename_i hopening
    rw [if_neg hopening]
    split at h
    · rename_i hclosing
      rw [if_pos hclosing]
      split at h
      · contradiction
      · -- The depth is above zero without the parentheses before, so it is with them.
        have hsub : depth + n - 1 = depth - 1 + n := by omega
        rw [if_neg (by omega), hsub]
        exact ih h
    rename_i hclosing
    rw [if_neg hclosing]
    split at h
    · contradiction
    · rename_i hsemicolon
      rw [if_neg hsemicolon]
      exact ih h

/-- Tokens that open and close nothing leave the parentheses as they are. -/
theorem nesting_of_forall (h : ∀ token ∈ tokens, token.IsInner) (depth : Nat) :
    nesting depth tokens = some depth := by
  induction tokens with
  | nil => rfl
  | cons token tokens ih =>
    rw [List.forall_mem_cons] at h
    obtain ⟨hopening, hclosing, hsemicolon⟩ := h.1
    rw [nesting, if_neg hopening, if_neg hclosing, if_neg hsemicolon, ih h.2]

end Nesting

namespace Contained

variable {a b : String}

/-- Two texts that keep to themselves do so with a separator between them that does. -/
theorem joined {separator : String} {joint : List Token} (hjoins : Joins separator.toList joint)
    (hjoint : nesting 0 joint = some 0) (ha : Contained a) (hb : Contained b) :
    Contained (a ++ separator ++ b) := by
  obtain ⟨ta, hlex, hta⟩ := ha
  obtain ⟨tb, hlex', htb⟩ := hb
  refine ⟨ta ++ joint ++ tb, ?_, ?_⟩
  · simpa using hjoins _ _ _ _ hlex hlex'
  · rw [nesting_append, nesting_append, hta, Option.bind_some, hjoint, Option.bind_some, htb]

theorem spaced (ha : Contained a) (hb : Contained b) : Contained (a ++ " " ++ b) := by
  have hspace : Joins " ".toList [] := by
    intro x y tx ty hx hy
    have hrest : lex (' ' :: y) = some ty := by rw [lex_blank (by decide), hy]
    simpa using lex_append_break hx (by decide) hrest
  exact joined hspace rfl ha hb

/-- Texts that keep to themselves do so when they are joined. -/
theorem intercalate {separator : String} {joint : List Token}
    (hjoins : Joins separator.toList joint) (hjoint : nesting 0 joint = some 0)
    {texts : List String} (h : ∀ text ∈ texts, Contained text) :
    Contained (separator.intercalate texts) := by
  induction texts with
  | nil => exact ⟨[], rfl, rfl⟩
  | cons text texts ih =>
    rw [List.forall_mem_cons] at h
    cases texts with
    | nil => simpa using h.1
    | cons next texts =>
      rw [String.intercalate_cons_cons]
      exact joined hjoins hjoint h.1 (ih h.2)

/-- A text that keeps to itself can be put in parentheses. -/
theorem parenthesised (h : Contained a) : Contained ("(" ++ a ++ ")") := by
  obtain ⟨tokens, hlex, htokens⟩ := h
  refine ⟨.opening :: tokens ++ [.closing], ?_, ?_⟩
  · simpa using lex_parenthesised hlex
  · have hinner : nesting 1 tokens = some 1 := nesting_add htokens 1
    rw [List.cons_append, nesting, if_pos rfl, nesting_append, hinner]
    rfl

/-- An identifier keeps to itself, whatever stands between its quotes. -/
theorem of_isIdentifier {key : String} (h : IsIdentifier key) : Contained key := by
  refine ⟨columnTokens key, lex_column h, nesting_of_forall ?_ 0⟩
  intro token htoken
  unfold columnTokens at htoken
  split at htoken
  · contradiction
  · obtain rfl := List.mem_singleton.1 htoken
    unfold columnToken
    split
    · exact Token.isInner_name _
    · exact Token.isInner_word _

end Contained

/-- The characters that can end more than a name: quotes, parentheses and semicolons. -/
def isDelimiter (c : Char) : Bool := isQuoteMark c || c == '(' || c == ')' || c == ';'

/-- A state outside quotes in which nothing but a part of a name was begun. -/
def LexState.IsClear : LexState → Prop
  | .between | .word _ => True
  | .quoted _ _ | .ended _ _ => False
  | .relation first => isDelimiter first = false

theorem isInner_sign {c : Char} (h : isDelimiter c = false) : Token.IsInner (.sign [c]) := by
  simp only [isDelimiter, Bool.or_eq_false_iff, beq_eq_false_iff_ne] at h
  obtain ⟨⟨⟨-, hopening⟩, hclosing⟩, hsemicolon⟩ := h
  simp [Token.IsInner, Token.opening, Token.closing, Token.semicolon, hopening, hclosing,
    hsemicolon]

theorem LexState.IsClear.pending {s : LexState} (h : s.IsClear) :
    ∀ token ∈ s.pending, token.IsInner := by
  cases s with
  | between => simp [LexState.pending]
  | word read => exact List.forall_mem_singleton.2 (Token.isInner_word read)
  | quoted => contradiction
  | ended => contradiction
  | relation first => exact List.forall_mem_singleton.2 (isInner_sign h)

theorem isClear_begin {c : Char} (h : isDelimiter c = false) :
    (begin c).1.IsClear ∧ ∀ token ∈ (begin c).2, token.IsInner := by
  unfold begin
  split
  · exact ⟨trivial, by simp⟩
  split
  · subst c
    contradiction
  split
  · subst c
    contradiction
  split
  · exact ⟨trivial, by simp⟩
  split
  · exact ⟨h, by simp⟩
  · exact ⟨trivial, List.forall_mem_singleton.2 (isInner_sign h)⟩

/-- A character that is no delimiter goes on with the name or the sign before it, or begins one. -/
theorem LexState.IsClear.step {s : LexState} (hs : s.IsClear) {c : Char}
    (hc : isDelimiter c = false) :
    (s.step c).1.IsClear ∧ ∀ token ∈ (s.step c).2, token.IsInner := by
  obtain ⟨hnext, htokens⟩ := isClear_begin hc
  have hbegin (hjoin : s.join? c = none) :
      (s.step c).1.IsClear ∧ ∀ token ∈ (s.step c).2, token.IsInner := by
    rw [LexState.step, hjoin]
    exact ⟨hnext, List.forall_mem_append.2 ⟨hs.pending, htokens⟩⟩
  cases s with
  | between => exact hbegin rfl
  | quoted => contradiction
  | ended => contradiction
  | word read =>
    by_cases hword : (isPlain c || isExponentSign read c) = true
    · rw [LexState.step, join?, if_pos hword]
      exact ⟨trivial, by simp⟩
    · exact hbegin (by rw [join?, if_neg hword])
  | relation first =>
    by_cases hsign : c = '=' ∨ (first = '<' ∧ c = '>')
    · rw [LexState.step, join?, if_pos hsign]
      exact ⟨trivial, by simp [Token.IsInner, Token.opening, Token.closing, Token.semicolon]⟩
    · exact hbegin (by rw [join?, if_neg hsign])

/-- Text without delimiters completes only tokens that open and close nothing. -/
theorem LexState.IsClear.run {s : LexState} (hs : s.IsClear) {text : List Char}
    (h : ∀ c ∈ text, isDelimiter c = false) :
    (s.run text).1.IsClear ∧ ∀ token ∈ (s.run text).2, token.IsInner := by
  induction text generalizing s with
  | nil => exact ⟨hs, by simp [LexState.run]⟩
  | cons c text ih =>
    rw [List.forall_mem_cons] at h
    obtain ⟨hnext, htokens⟩ := hs.step h.1
    obtain ⟨hlast, hmore⟩ := ih hnext h.2
    exact ⟨hlast, List.forall_mem_append.2 ⟨htokens, hmore⟩⟩

/-- A text without delimiters keeps to itself. -/
theorem Contained.of_forall {text : String} (h : ∀ c ∈ text.toList, isDelimiter c = false) :
    Contained text := by
  have hstart : LexState.IsClear .between := trivial
  obtain ⟨hclear, htokens⟩ := hstart.run h
  have hquoted : (LexState.run .between text.toList).1.isQuoted = false := by
    cases hstate : (LexState.run .between text.toList).1 with
    | quoted mark read =>
      rw [hstate] at hclear
      contradiction
    | _ => rfl
  refine ⟨_, lex_of_run rfl hquoted, nesting_of_forall ?_ 0⟩
  exact List.forall_mem_append.2 ⟨htokens, hclear.pending⟩

end Sql

/-- Every literal keeps to itself: the quotes in a string are doubled. -/
theorem Literal.contained_render (literal : Literal) : Contained literal.render := by
  have hnumber (text : List Char) : ∀ token ∈ numberTokens text, token.IsInner := by
    unfold numberTokens
    split
    · simp [Token.IsInner, Token.opening, Token.closing, Token.semicolon]
    · simpa using Token.isInner_word text
  refine ⟨literal.tokens, literal.lex_render, nesting_of_forall ?_ 0⟩
  cases literal with
  | null => exact List.forall_mem_singleton.2 (Token.isInner_word _)
  | boolean b => cases b <;> exact List.forall_mem_singleton.2 (Token.isInner_word _)
  | integer n => exact hnumber _
  | float x => exact hnumber _
  | string s => exact List.forall_mem_singleton.2 (Token.isInner_string _)

/-- A test keeps to itself if its column does. -/
theorem Comparison.contained_render {test : Comparison} (h : Contained test.subject) :
    Contained test.render := by
  cases test with
  | isNull column =>
    have hwords : Contained "IS NULL" := .of_forall (by simp [isDelimiter, isQuoteMark])
    have htext : (isNull column).render = column ++ " " ++ "IS NULL" := by
      simp [render, ← String.toList_inj]
    rw [htext]
    exact h.spaced hwords
  | isNotNull column =>
    have hwords : Contained "IS NOT NULL" := .of_forall (by simp [isDelimiter, isQuoteMark])
    have htext : (isNotNull column).render = column ++ " " ++ "IS NOT NULL" := by
      simp [render, ← String.toList_inj]
    rw [htext]
    exact h.spaced hwords
  | equal column literal =>
    have hsign : Contained "=" := .of_forall (by simp [isDelimiter, isQuoteMark])
    have htext : (equal column literal).render = column ++ " " ++ "=" ++ " " ++ literal.render := by
      simp [render, ← String.toList_inj]
    rw [htext]
    exact (h.spaced hsign).spaced literal.contained_render
  | related column relation literal =>
    have hsign : Contained relation.symbol := by
      apply Contained.of_forall
      cases relation <;> simp [Relation.symbol, isDelimiter, isQuoteMark]
    exact (h.spaced hsign).spaced literal.contained_render
  | oneOf column literals =>
    have hword : Contained "IN" := .of_forall (by simp [isDelimiter, isQuoteMark])
    have hliterals : Contained (", ".intercalate (literals.map (·.render))) := by
      refine .intercalate joins_comma (by decide +kernel) ?_
      simpa using fun literal _ => literal.contained_render
    have htext : (oneOf column literals).render = column ++ " " ++ "IN" ++ " " ++
        ("(" ++ ", ".intercalate (literals.map (·.render)) ++ ")") := by
      simp [render, ← String.toList_inj]
    rw [htext]
    exact (h.spaced hword).spaced hliterals.parenthesised

namespace Clause

theorem contained_and {texts : List String} (h : ∀ text ∈ texts, Contained text) :
    Contained (" AND ".intercalate texts) :=
  .intercalate joins_and (by decide +kernel) h

mutual

/-- A clause keeps to itself if all its columns do. -/
theorem contained_render : (clause : Clause) → (∀ key ∈ clause.subjects, Contained key) →
    Contained clause.render
  | .column tests, h => by
    rw [subjects, List.forall_mem_map] at h
    refine (contained_and ?_).parenthesised
    exact List.forall_mem_map.2 fun test htest => Comparison.contained_render (h test htest)
  | .group connective operands, h => by
    rw [subjects] at h
    have hjoint : nesting 0 [.keyword connective.keyword] = some 0 := by
      cases connective <;> decide +kernel
    exact (Contained.intercalate (joins_keyword connective) hjoint
      (contained_renderOperands operands h)).parenthesised

theorem contained_renderOperands : (operands : List (List Clause)) →
    (∀ key ∈ operandSubjects operands, Contained key) →
    ∀ text ∈ renderOperands operands, Contained text
  | [], _ => by simp [renderOperands]
  | [] :: operands, h => by
    rw [operandSubjects, allSubjects, List.nil_append] at h
    rw [renderOperands, List.forall_mem_cons]
    exact ⟨.of_forall (by simp [isDelimiter, isQuoteMark]), contained_renderOperands operands h⟩
  | (clause :: clauses) :: operands, h => by
    rw [operandSubjects, allSubjects, List.forall_mem_append, List.forall_mem_append] at h
    obtain ⟨⟨hclause, hclauses⟩, hoperands⟩ := h
    rw [renderOperands, List.forall_mem_cons]
    have hall : ∀ text ∈ clause.render :: renderAll clauses, Contained text :=
      List.forall_mem_cons.2 ⟨contained_render clause hclause, contained_renderAll clauses hclauses⟩
    exact ⟨contained_and hall, contained_renderOperands operands hoperands⟩

theorem contained_renderAll : (clauses : List Clause) →
    (∀ key ∈ allSubjects clauses, Contained key) → ∀ text ∈ renderAll clauses, Contained text
  | [], _ => by simp [renderAll]
  | clause :: clauses, h => by
    rw [allSubjects, List.forall_mem_append] at h
    rw [renderAll, List.forall_mem_cons]
    exact ⟨contained_render clause h.1, contained_renderAll clauses h.2⟩

end

end Clause

/-- A statement is one statement if each of its names keeps to itself. -/
theorem Select.isStatement_render (select : Select) (htable : Contained select.table)
    (hcolumns : ∀ column ∈ select.columns, Contained column)
    (hcondition : ∀ key ∈ Clause.allSubjects select.condition, Contained key) :
    IsStatement select.render := by
  have hselect : Contained "SELECT" := .of_forall (by simp [isDelimiter, isQuoteMark])
  have hfrom : Contained "FROM" := .of_forall (by simp [isDelimiter, isQuoteMark])
  have hwhere : Contained "WHERE" := .of_forall (by simp [isDelimiter, isQuoteMark])
  have hlist : Contained (renderColumns select.columns) := by
    unfold renderColumns
    split
    · exact .of_forall (by simp [isDelimiter, isQuoteMark])
    · exact .intercalate joins_comma (by decide +kernel) hcolumns
  have hrows := ((hselect.spaced hlist).spaced hfrom).spaced htable
  have hended {body : String} (h : Contained body) : IsStatement (body ++ ";") := by
    obtain ⟨tokens, hlex, htokens⟩ := h
    refine ⟨body, tokens, rfl, ?_, htokens⟩
    rw [String.toList_append]
    exact lex_append_break hlex (by decide) (by decide +kernel)
  unfold render
  split
  · simpa [String.append_assoc] using hended hrows
  · have hcondition := Clause.contained_and (Clause.contained_renderAll _ hcondition)
    have hall := hended ((hrows.spaced hwhere).spaced hcondition)
    simpa [String.append_assoc, Clause.renderCondition] using hall

/-- A text has one statement if its table and its bare columns keep to themselves. Columns in
    quotes and all values do so whatever they hold. -/
theorem isStatement_of_findToSql (text sql : String) (call : FindCall)
    (hparse : FindCall.parse text = .ok call) (htable : Contained call.table)
    (hcolumns : ∀ key ∈ Value.columnKeys call.conditions.entries ++ call.projection.keys,
      IsIdentifier key ∨ Contained key)
    (h : (findToSql text).result = .ok sql) : IsStatement sql := by
  have hcontained : ∀ key ∈ Value.columnKeys call.conditions.entries ++ call.projection.keys,
      Contained key := by
    intro key hkey
    rcases hcolumns key hkey with hidentifier | hcontained
    · exact .of_isIdentifier hidentifier
    · exact hcontained
  rw [List.forall_mem_append] at hcontained
  obtain ⟨other, hother, hsql⟩ := result_findToSql_eq_ok.1 h
  obtain rfl : call = other := Except.ok.inj (hparse.symm.trans hother)
  obtain ⟨condition, columns, hcondition, hlist, rfl⟩ := FindCall.result_toSql_eq_ok.1 hsql
  refine Select.isStatement_render ⟨columns, call.table, condition⟩ htable ?_ ?_
  · rw [Select.columnsOf_eq_ok hlist]
    exact hcontained.2
  · intro key hkey
    exact hcontained.1 key (hcondition.subjects_subset key hkey)

/-- Bare names are copied, so one with a semicolon ends the statement early. -/
theorem not_isStatement_of_findToSql :
    ¬ ∀ text sql : String, (findToSql text).result = .ok sql → IsStatement sql := by
  intro h
  obtain ⟨body, tokens, -, hlex, hnesting⟩ := h "db.t.find(\x7ba;b: 1\x7d)"
    "SELECT * FROM t WHERE (a;b = 1);" (by decide +kernel)
  have hwhole : lex "SELECT * FROM t WHERE (a;b = 1);".toList =
      some ([.keyword "SELECT", .sign ['*'], .keyword "FROM", .keyword "t", .keyword "WHERE",
        .opening, .keyword "a", .semicolon, .keyword "b", .sign ['='], .keyword "1", .closing] ++
          [.semicolon]) := by decide +kernel
  rw [hwhole, Option.some.injEq, List.append_left_inj] at hlex
  rw [← hlex] at hnesting
  revert hnesting
  decide +kernel

theorem isStatement_of_findToSql_quotedColumn :
    FindCall.parse "db.t.find(\x7b'a;b': \");\", f(x): 1\x7d, \x7b'(': 1\x7d)" =
      .ok ⟨"t", .ofEntries [("\"a;b\"", .string ");"), ("f(x)", .integer 1)],
        .ofEntries [("\"(\"", .integer 1)]⟩ ∧
    IsStatement "SELECT \"(\" FROM t WHERE (\"a;b\" = ');') AND (f(x) = 1);" := by
  have hparse : FindCall.parse "db.t.find(\x7b'a;b': \");\", f(x): 1\x7d, \x7b'(': 1\x7d)" =
      .ok ⟨"t", .ofEntries [("\"a;b\"", .string ");"), ("f(x)", .integer 1)],
        .ofEntries [("\"(\"", .integer 1)]⟩ := by decide +kernel
  have htable : Contained "t" := .of_forall (by simp [isDelimiter, isQuoteMark])
  have hcall : Contained "f(x)" :=
    ⟨[.keyword "f", .opening, .keyword "x", .closing], by decide +kernel, by decide +kernel⟩
  refine ⟨hparse, isStatement_of_findToSql _ _ _ hparse htable ?_ (by decide +kernel)⟩
  have hkeys : Value.columnKeys (Document.ofEntries
      [("\"a;b\"", .string ");"), ("f(x)", .integer 1)]).entries ++
      (Document.ofEntries [("\"(\"", .integer 1)]).keys =
      [identifier "a;b".toList, "f(x)", identifier "(".toList] := by decide +kernel
  intro key hkey
  rw [hkeys, List.mem_cons, List.mem_cons, List.mem_singleton] at hkey
  rcases hkey with hkey | hkey | hkey
  · exact .inl ⟨"a;b".toList, hkey⟩
  · exact .inr (hkey ▸ hcall)
  · exact .inl ⟨"(".toList, hkey⟩

end FindSelect
