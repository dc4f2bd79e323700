import Mathlib.Data.List.Forall2
import FindSelect.Proofs.Decimal.Written
import FindSelect.Proofs.Sql.Token
import FindSelect.Sql.Select

namespace FindSelect

open Text Sql

namespace Sql

open LexState

def Token.keyword (text : String) : Token := .word text.toList

def Token.opening : Token := .sign ['(']

def Token.closing : Token := .sign [')']

def Token.comma : Token := .sign [',']

/-- A separator whose tokens stand between those of the texts that it joins. -/
def Joins (separator : List Char) (tokens : List Token) : Prop :=
  ∀ (a b : List Char) (ta tb : List Token), lex a = some ta → lex b = some tb →
    lex (a ++ separator ++ b) = some (ta ++ tokens ++ tb)

theorem joins_comma : Joins ", ".toList [.comma] := by
  intro a b ta tb ha hb
  have hrest : lex (',' :: ' ' :: b) = some (.comma :: tb) := by
    rw [lex_sign (by decide +kernel), lex_blank (by decide), hb]
    rfl
  simpa using lex_append_break ha (by decide) hrest

/-- A plain word with a blank on both sides stands between two texts as one token. -/
theorem joins_word {word : List Char} (hword : Plain word) (hne : word ≠ []) :
    Joins (' ' :: word ++ [' ']) [.word word] := by
  intro a b ta tb ha hb
  have hspaced : lex (' ' :: b) = some tb := by rw [lex_blank (by decide), hb]
  have hrest : lex (word ++ ' ' :: b) = some (.word word :: tb) :=
    lex_append_break (lex_plain hword hne) (by decide) hspaced
  have hall : lex (' ' :: (word ++ ' ' :: b)) = some (.word word :: tb) := by
    rw [lex_blank (by decide), hrest]
  simpa using lex_append_break ha (by decide) hall

/-- The keyword of a connective stands between its operands as one token. -/
theorem joins_keyword (connective : Connective) :
    Joins (" " ++ connective.keyword ++ " ").toList [.keyword connective.keyword] := by
  have htext : (" " ++ connective.keyword ++ " ").toList =
      ' ' :: connective.keyword.toList ++ [' '] := by simp
  rw [htext]
  exact joins_word (by cases connective <;> decide +kernel) (by cases connective <;> decide)

/-- The texts of a list are lexed one by one, with the separators between. -/
theorem lex_intercalate {separator : String} {joint : List Token}
    (hjoins : Joins separator.toList joint) {texts : List String} {tokens : List (List Token)}
    (h : List.Forall₂ (fun text ts => lex text.toList = some ts) texts tokens) :
    lex (separator.intercalate texts).toList = some (joint.intercalate tokens) := by
  rw [String.toList_intercalate]
  induction h with
  | nil => rfl
  | @cons text ts texts tokens htext hrest ih =>
    cases hrest with
    | nil => simpa using htext
    | cons hnext hrest =>
      simp only [List.map_cons, List.intercalate_cons_cons] at ih ⊢
      exact hjoins _ _ _ _ htext ih

/-- Parentheses around a text are tokens around its tokens. -/
theorem lex_parenthesised {text : List Char} {tokens : List Token} (h : lex text = some tokens) :
    lex ('(' :: text ++ [')']) = some (.opening :: tokens ++ [.closing]) := by
  have hclosing : lex [')'] = some [.closing] := by decide +kernel
  rw [List.cons_append, lex_sign (by decide +kernel), lex_append_break h (by decide) hclosing]
  rfl

/-- The tokens of a number: its sign and a word. -/
def numberTokens : List Char → List Token
  | '-' :: digits => [.sign ['-'], .word digits]
  | digits => [.word digits]

theorem run_unsigned {text : List Char} (h : Unsigned text) :
    run .between text = (.word text, []) := by
  cases h with
  | nan => decide +kernel
  | infinite => decide +kernel
  | plain hfirst hrest => exact run_plain (isPlain_of_isDigit hfirst) hrest
  | @scaled first mantissa digits hfirst hmantissa hdigits =>
    have hplain : Plain (mantissa ++ ['e']) := plain_append hmantissa (by decide +kernel)
    have hsign : isExponentSign (first :: (mantissa ++ ['e'])) '-' = true := by
      simp [isExponentSign, hfirst, List.getLast?_cons]
    have hstep : step (.word (first :: (mantissa ++ ['e']))) '-' =
        (.word (first :: (mantissa ++ ['e', '-'])), []) := by
      simp [step, join?, hsign]
    have htext : first :: mantissa ++ 'e' :: '-' :: digits =
        (first :: (mantissa ++ ['e'])) ++ '-' :: digits := by simp
    rw [htext, run_append, run_plain (isPlain_of_isDigit hfirst) hplain]
    simp [run, hstep, run_word hdigits]

theorem numberTokens_of_unsigned {text : List Char} (h : Unsigned text) :
    numberTokens text = [.word text] := by
  unfold numberTokens
  split
  · rename_i digits
    exact absurd rfl (h.ne_minus_cons digits)
  · rfl

/-- A number is lexed as its sign and one word. -/
theorem lex_numeral {text : List Char} (h : Numeral text) :
    lex text = some (numberTokens text) := by
  obtain ⟨sign, body, rfl, hsign, hbody⟩ := h
  have hlex : lex body = some [.word body] := by
    simpa [pending] using lex_of_run (run_unsigned hbody) rfl
  rcases hsign with rfl | rfl
  · rw [List.nil_append, hlex, numberTokens_of_unsigned hbody]
  · rw [List.singleton_append, lex_sign (by decide +kernel), hlex]
    rfl

/-- A key that names a column: a plain name, or any other name in double quotes. -/
def IsIdentifier (key : String) : Prop := ∃ name, key = identifier name

/-- Undoes the doubling of a mark. -/
def undoubled (mark : Char) : List Char → List Char
  | c :: d :: rest =>
    if c = mark ∧ d = mark then c :: undoubled mark rest else c :: undoubled mark (d :: rest)
  | text => text

/-- What is doubled can be read back. -/
theorem undoubled_doubled (mark : Char) (text : List Char) :
    undoubled mark (doubled mark text) = text := by
  induction text with
  | nil => rfl
  | cons c text ih =>
    by_cases hc : c = mark
    · subst hc
      have hcons : doubled c (c :: text) = c :: c :: doubled c text := by simp [doubled]
      rw [hcons, undoubled, if_pos ⟨rfl, rfl⟩, ih]
    · have hcons : doubled mark (c :: text) = c :: doubled mark text := by simp [doubled, hc]
      rw [hcons]
      cases hrest : doubled mark text with
      | nil =>
        rw [hrest] at ih
        simpa [undoubled] using ih
      | cons d rest => rw [undoubled, if_neg (fun h => hc h.1), ← hrest, ih]

/-- The token of a column. -/
def columnToken (column : String) : Token :=
  match column.toList with
  | '"' :: rest => .name (undoubled '"' rest.dropLast)
  | text => .word text

/-- The tokens of a column; an empty name leaves none. -/
def columnTokens (column : String) : List Token :=
  if column = "" then [] else [columnToken column]

theorem columnToken_of_plain {name : List Char} (h : Plain name) :
    columnToken (String.ofList name) = .word name := by
  unfold columnToken
  split
  · rename_i rest hname
    rw [String.toList_ofList] at hname
    exact absurd hname (ne_quote_cons_of_plain h rest)
  · rw [String.toList_ofList]

theorem columnToken_quotedWith (name : List Char) :
    columnToken (String.ofList (quotedWith '"' name)) = .name name := by
  simp [columnToken, quotedWith, undoubled_doubled]

/-- A column is lexed as one name, unless that name is empty. -/
theorem lex_column {key : String} (h : IsIdentifier key) :
    lex key.toList = some (columnTokens key) := by
  obtain ⟨name, rfl⟩ := h
  by_cases hplain : Plain name
  · rw [identifier_of_plain hplain, String.toList_ofList]
    by_cases hempty : name = []
    · subst hempty
      decide
    · have hne : String.ofList name ≠ "" := by simpa using hempty
      rw [columnTokens, if_neg hne, columnToken_of_plain hplain, lex_plain hplain hempty]
  · have hne : String.ofList (quotedWith '"' name) ≠ "" := by simp [quotedWith]
    rw [identifier_of_not_plain hplain, String.toList_ofList, columnTokens, if_neg hne,
      columnToken_quotedWith]
    exact lex_quotedWith .double name

end Sql

def Literal.tokens : Literal → List Token
  | .null => [.keyword "NULL"]
  | .boolean true => [.keyword "TRUE"]
  | .boolean false => [.keyword "FALSE"]
  | .integer n => numberTokens (writeInt n.toInt)
  | .float x => numberTokens (x.write Value.numberLayout)
  | .string s => [.string s.toList]

/-- The text of a literal has the tokens of that literal. -/
theorem Literal.lex_render (literal : Literal) :
    lex literal.render.toList = some literal.tokens := by
  cases literal with
  | null => decide +kernel
  | boolean b => cases b <;> decide +kernel
  | integer n => simpa [render, tokens] using lex_numeral (numeral_writeInt n.toInt)
  | float x => simpa [render, tokens] using lex_numeral x.numeral_write
  | string s => simpa [render, tokens, Mark.char, Mark.token] using lex_quotedWith .single s.toList

namespace Comparison

/-- The column that is tested. -/
def subject : Comparison → String
  | .isNull column | .isNotNull column | .equal column _ | .related column _ _
  | .oneOf column _ => column

def tokens : Comparison → List Token
  | .isNull column => columnTokens column ++ [.keyword "IS", .keyword "NULL"]
  | .isNotNull column => columnTokens column ++ [.keyword "IS", .keyword "NOT", .keyword "NULL"]
  | .equal column literal => columnTokens column ++ .sign ['='] :: literal.tokens
  | .related column relation literal =>
    columnTokens column ++ .sign relation.symbol.toList :: literal.tokens
  | .oneOf column literals =>
    columnTokens column ++ .keyword "IN" :: .opening ::
      [.comma].intercalate (literals.map (·.tokens)) ++ [.closing]

/-- The sign of a relation is one token, in front of those of its right side. -/
theorem lex_relation (relation : Relation) {text : List Char} {tokens : List Token}
    (h : lex text = some tokens) :
    lex (relation.symbol.toList ++ ' ' :: text) =
      some (.sign relation.symbol.toList :: tokens) := by
  have hsymbol : lex relation.symbol.toList = some [.sign relation.symbol.toList] := by
    cases relation <;> decide +kernel
  exact lex_append_break hsymbol (by decide) (by rw [lex_blank (by decide), h])

/-- The text of a test has the tokens of that test, if its column is an identifier. -/
theorem lex_render {test : Comparison} (h : IsIdentifier test.subject) :
    lex test.render.toList = some test.tokens := by
  have hcolumn := lex_column h
  cases test with
  | isNull column =>
    have hrest : lex (' ' :: "IS NULL".toList) = some [.keyword "IS", .keyword "NULL"] := by
      decide +kernel
    simpa [render, tokens, subject] using lex_append_break hcolumn (by decide) hrest
  | isNotNull column =>
    have hrest : lex (' ' :: "IS NOT NULL".toList) =
        some [.keyword "IS", .keyword "NOT", .keyword "NULL"] := by decide +kernel
    simpa [render, tokens, subject] using lex_append_break hcolumn (by decide) hrest
  | equal column literal =>
    have hrest : lex (' ' :: '=' :: ' ' :: literal.render.toList) =
        some (.sign ['='] :: literal.tokens) := by
      rw [lex_blank (by decide), lex_sign (by decide +kernel), lex_blank (by decide),
        literal.lex_render]
      rfl
    simpa [render, tokens, subject] using lex_append_break hcolumn (by decide) hrest
  | related column relation literal =>
    have hrest : lex (' ' :: (relation.symbol.toList ++ ' ' :: literal.render.toList)) =
        some (.sign relation.symbol.toList :: literal.tokens) := by
      rw [lex_blank (by decide), lex_relation relation literal.lex_render]
    simpa [render, tokens, subject] using lex_append_break hcolumn (by decide) hrest
  | oneOf column literals =>
    have hlist : lex (", ".intercalate (literals.map (·.render))).toList =
        some ([.comma].intercalate (literals.map (·.tokens))) := by
      apply lex_intercalate joins_comma
      rw [List.forall₂_map_left_iff, List.forall₂_map_right_iff]
      exact List.forall₂_same.2 fun literal _ => literal.lex_render
    have hparens := lex_parenthesised hlist
    have hword : lex ['I', 'N'] = some [.keyword "IN"] := by decide +kernel
    have hspaced : lex
        (' ' :: '(' :: (", ".intercalate (literals.map (·.render))).toList ++ [')']) =
        some (.opening :: [.comma].intercalate (literals.map (·.tokens)) ++ [.closing]) := by
      rw [List.cons_append, lex_blank (by decide)]
      exact hparens
    have hrest := lex_append_break hword (by decide) hspaced
    have hall : lex (' ' :: 'I' :: 'N' :: ' ' :: '(' ::
        (", ".intercalate (literals.map (·.render))).toList ++ [')']) =
        some (.keyword "IN" :: .opening :: [.comma].intercalate (literals.map (·.tokens)) ++
          [.closing]) := by
      rw [List.cons_append, lex_blank (by decide)]
      exact hrest
    simpa [render, tokens, subject] using lex_append_break hcolumn (by decide) hall

end Comparison

namespace Clause

mutual

/-- The columns that a clause tests. -/
def subjects : Clause → List String
  | .column tests => tests.map (·.subject)
  | .group _ operands => operandSubjects operands

def operandSubjects : List (List Clause) → List String
  | [] => []
  | clauses :: operands => allSubjects clauses ++ operandSubjects operands

def allSubjects : List Clause → List String
  | [] => []
  | clause :: clauses => subjects clause ++ allSubjects clauses

end

mutual

def tokens : Clause → List Token
  | .column tests =>
    .opening :: [.keyword "AND"].intercalate (tests.map (·.tokens)) ++ [.closing]
  | .group connective operands =>
    .opening :: [.keyword connective.keyword].intercalate (operandTokens operands) ++ [.closing]

def operandTokens : List (List Clause) → List (List Token)
  | [] => []
  | [] :: operands => [.keyword "TRUE"] :: operandTokens operands
  | (clause :: clauses) :: operands =>
    [.keyword "AND"].intercalate (tokens clause :: allTokens clauses) :: operandTokens operands

def allTokens : List Clause → List (List Token)
  | [] => []
  | clause :: clauses => tokens clause :: allTokens clauses

end

def conditionTokens (condition : List Clause) : List Token :=
  [.keyword "AND"].intercalate (allTokens condition)

theorem joins_and : Joins " AND ".toList [.keyword "AND"] := joins_keyword .all

mutual

/-- The text of a clause has the tokens of that clause, if its columns are identifiers. The
    recursion is that of rendering: through the operands of a connective and through all their
    clauses. -/
theorem lex_render : (clause : Clause) → (∀ key ∈ clause.subjects, IsIdentifier key) →
    lex clause.render.toList = some clause.tokens
  | .column tests, h => by
    have htests : lex (" AND ".intercalate (tests.map (·.render))).toList =
        some ([.keyword "AND"].intercalate (tests.map (·.tokens))) := by
      apply lex_intercalate joins_and
      rw [List.forall₂_map_left_iff, List.forall₂_map_right_iff]
      refine List.forall₂_same.2 fun test htest => Comparison.lex_render (h _ ?_)
      rw [subjects]
      exact List.mem_map_of_mem htest
    simpa [render, tokens] using lex_parenthesised htests
  | .group connective operands, h => by
    rw [subjects] at h
    have hoperands := lex_intercalate (joins_keyword connective) (lex_renderOperands operands h)
    simpa [render, tokens] using lex_parenthesised hoperands

theorem lex_renderOperands : (operands : List (List Clause)) →
    (∀ key ∈ operandSubjects operands, IsIdentifier key) →
    List.Forall₂ (fun text ts => lex text.toList = some ts) (renderOperands operands)
      (operandTokens operands)
  | [], _ => by
    rw [renderOperands, operandTokens]
    exact .nil
  | [] :: operands, h => by
    rw [operandSubjects, allSubjects, List.nil_append] at h
    rw [renderOperands, operandTokens]
    exact .cons (by decide +kernel) (lex_renderOperands operands h)
  | (clause :: clauses) :: operands, h => by
    rw [operandSubjects, allSubjects, List.forall_mem_append, List.forall_mem_append] at h
    obtain ⟨⟨hclause, hclauses⟩, hoperands⟩ := h
    rw [renderOperands, operandTokens]
    have hfirst : List.Forall₂ (fun text ts => lex text.toList = some ts)
        (clause.render :: renderAll clauses) (clause.tokens :: allTokens clauses) :=
      .cons (lex_render clause hclause) (lex_renderAll clauses hclauses)
    exact .cons (lex_intercalate joins_and hfirst) (lex_renderOperands operands hoperands)

theorem lex_renderAll : (clauses : List Clause) → (∀ key ∈ allSubjects clauses, IsIdentifier key) →
    List.Forall₂ (fun text ts => lex text.toList = some ts) (renderAll clauses) (allTokens clauses)
  | [], _ => by
    rw [renderAll, allTokens]
    exact .nil
  | clause :: clauses, h => by
    rw [allSubjects, List.forall_mem_append] at h
    rw [renderAll, allTokens]
    exact .cons (lex_render clause h.1) (lex_renderAll clauses h.2)

end

/-- The text of a condition has the tokens of its clauses, with `AND` between them. -/
theorem lex_renderCondition {condition : List Clause}
    (h : ∀ key ∈ allSubjects condition, IsIdentifier key) :
    lex (renderCondition condition).toList = some (conditionTokens condition) :=
  lex_intercalate joins_and (lex_renderAll condition h)

end Clause
end FindSelect
