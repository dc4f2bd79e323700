import FindSelect.Proofs.Sql.Rendered

namespace FindSelect.Sql

open Text

/-- The words that the grammar of conditions reserves. -/
inductive Keyword where
  | and
  | or
  | not
  | is
  | isIn
  | null
  | yes
  | no
  deriving DecidableEq, Repr

def Keyword.text : Keyword → String
  | .and => "AND"
  | .or => "OR"
  | .not => "NOT"
  | .is => "IS"
  | .isIn => "IN"
  | .null => "NULL"
  | .yes => "TRUE"
  | .no => "FALSE"

/-- The keywords that stand for constants. -/
def Keyword.isConstant : Keyword → Bool
  | .null | .yes | .no => true
  | _ => false

/-- The keyword that a word is, in upper or lower case. -/
def keyword? (word : List Char) : Option Keyword :=
  [Keyword.and, .or, .not, .is, .isIn, .null, .yes, .no].find? fun keyword =>
    keyword.text.toList == word.map Char.toUpper

/-- What a test compares: a bare name, a number or a constant with its sign, a name
    in quotes, or a string. -/
inductive Operand where
  | word (negative : Bool) (text : List Char)
  | name (text : List Char)
  | string (text : List Char)
  deriving DecidableEq, Repr

/-- An atomic comparison. -/
inductive Test where
  | isNull (operand : Operand)
  | isNotNull (operand : Operand)
  | compared (left : Operand) (relation : List Char) (right : Operand)
  | memberOf (operand : Operand) (members : List Operand)
  deriving DecidableEq, Repr

/-- A boolean expression over atomic comparisons. -/
inductive Expr where
  | constant (b : Bool)
  | test (t : Test)
  | not (e : Expr)
  | and (left right : Expr)
  | or (left right : Expr)
  deriving DecidableEq, Repr

/-- The truth value of an expression, given those of the comparisons. -/
def Expr.eval (truth : Test → Bool) : Expr → Bool
  | .constant b => b
  | .test t => truth t
  | .not e => !e.eval truth
  | .and left right => left.eval truth && right.eval truth
  | .or left right => left.eval truth || right.eval truth

/-- Reads an operand. Of the keywords only the constants can be one. -/
def readOperand : List Token → Option (Operand × List Token)
  | .string text :: rest => some (.string text, rest)
  | .name text :: rest => some (.name text, rest)
  | .word text :: rest =>
    if (keyword? text).all Keyword.isConstant then some (.word false text, rest) else none
  | .sign sign :: .word text :: rest =>
    if sign = ['-'] ∧ keyword? text = none then some (.word true text, rest) else none
  | _ => none

def readSingle (tokens : List Token) : Option Operand :=
  match readOperand tokens with
  | some (operand, []) => some operand
  | _ => none

/-- Reads the members of a list up to its closing parenthesis. -/
def readMembers (tokens : List Token) : Option (List Operand × List Token) :=
  let inner := tokens.takeWhile (· != .closing)
  match tokens.dropWhile (· != .closing) with
  | [] => none
  | _ :: rest =>
    if inner = [] then some ([], rest)
    else ((inner.splitOn .comma).mapM readSingle).map fun members => (members, rest)

def relations : List (List Char) :=
  ["=".toList, "!=".toList, "<>".toList, "<".toList, "<=".toList, ">".toList, ">=".toList]

def Token.keyword? : Token → Option Keyword
  | .word text => Sql.keyword? text
  | _ => none

/-- Reads what follows the first operand of a comparison. -/
def readPredicate (left : Operand) : List Token → Option (Test × List Token)
  | .sign relation :: rest =>
    if relation ∈ relations then
      (readOperand rest).map fun (right, rest) => (.compared left relation right, rest)
    else none
  | first :: second :: rest =>
    if first.keyword? = some .is then
      if second.keyword? = some .null then some (.isNull left, rest)
      else match rest with
        | third :: rest =>
          if second.keyword? = some .not ∧ third.keyword? = some .null then
            some (.isNotNull left, rest)
          else none
        | [] => none
    else if first.keyword? = some .isIn ∧ second = .opening then
      (readMembers rest).map fun (members, rest) => (.memberOf left members, rest)
    else none
  | _ => none

/-- Reads an atomic comparison. -/
def readTest (tokens : List Token) : Option (Test × List Token) := do
  let (left, rest) ← readOperand tokens
  readPredicate left rest

mutual

/-- Reads terms joined by `OR`. The number bounds the depth of the recursion. -/
def readAny : Nat → List Token → Option (Expr × List Token)
  | 0, _ => none
  | n + 1, tokens => do
    let (left, rest) ← readAll n tokens
    match rest with
    | [] => some (left, [])
    | token :: more =>
      if token.keyword? = some .or then
        let (right, rest) ← readAny n more
        some (.or left right, rest)
      else some (left, token :: more)

/-- Reads factors joined by `AND`, which binds tighter than `OR`. -/
def readAll : Nat → List Token → Option (Expr × List Token)
  | 0, _ => none
  | n + 1, tokens => do
    let (left, rest) ← readFactor n tokens
    match rest with
    | [] => some (left, [])
    | token :: more =>
      if token.keyword? = some .and then
        let (right, rest) ← readAll n more
        some (.and left right, rest)
      else some (left, token :: more)

/-- Reads a comparison, a constant, a negation or an expression in parentheses. -/
def readFactor : Nat → List Token → Option (Expr × List Token)
  | 0, _ => none
  | _ + 1, [] => none
  | n + 1, token :: more =>
    if token = .opening then do
      let (e, rest) ← readAny n more
      match rest with
      | [] => none
      | last :: rest => if last = .closing then some (e, rest) else none
    else match token.keyword? with
      | some .not => (readFactor n more).map fun (e, rest) => (.not e, rest)
      | some .yes => some (.constant true, more)
      | some .no => some (.constant false, more)
      | _ => (readTest (token :: more)).map fun (t, rest) => (.test t, rest)

end

/-- Reads a whole condition. A level of the grammar is entered at most once for each
    token, so the bound is never met. -/
def readCondition (text : List Char) : Option Expr := do
  let tokens ← lex text
  match ← readAny (3 * tokens.length + 3) tokens with
  | (e, []) => some e
  | _ => none

mutual

/-- The tokens of a comparison, of a constant, or of an expression in parentheses. -/
inductive Factor : List Token → Expr → Prop where
  | yes : Factor [.keyword "TRUE"] (.constant true)
  | test {first : Token} {more : List Token} {t : Test} (hopening : first ≠ .opening)
      (hkeyword : first.keyword? = none)
      (hread : ∀ rest, readTest (first :: more ++ rest) = some (t, rest)) :
      Factor (first :: more) (.test t)
  | group {tokens : List Token} {e : Expr} (h : Condition tokens e) :
      Factor (.opening :: tokens ++ [.closing]) e

/-- The tokens of factors joined by `AND`. -/
inductive Term : List Token → Expr → Prop where
  | factor {tokens : List Token} {e : Expr} (h : Factor tokens e) : Term tokens e
  | and {left right : List Token} {e f : Expr} (hleft : Factor left e) (hright : Term right f) :
      Term (left ++ .keyword "AND" :: right) (.and e f)

/-- The tokens of terms joined by `OR`. -/
inductive Condition : List Token → Expr → Prop where
  | term {tokens : List Token} {e : Expr} (h : Term tokens e) : Condition tokens e
  | or {left right : List Token} {e f : Expr} (hleft : Term left e) (hright : Condition right f) :
      Condition (left ++ .keyword "OR" :: right) (.or e f)

end

/-- The tokens after an expression do not go on with the given keyword. -/
def EndsBefore (keyword : Keyword) (rest : List Token) : Prop :=
  ∀ token ∈ rest.head?, token.keyword? ≠ some keyword

mutual

/-- A factor is read back from its tokens, whatever follows it. The recursion is on the derivation,
    and the bound pays for three levels of the grammar at each token. -/
theorem readFactor_of_factor : {tokens : List Token} → {e : Expr} → Factor tokens e →
    (n : Nat) → (rest : List Token) → 3 * tokens.length ≤ n →
    readFactor n (tokens ++ rest) = some (e, rest)
  | _, _, .yes, n, rest, hn => by
    obtain ⟨m, rfl⟩ : ∃ m, n = m + 1 := ⟨n - 1, by simp at hn; omega⟩
    have hopening : Token.keyword "TRUE" ≠ .opening := by decide
    have hkeyword : (Token.keyword "TRUE").keyword? = some .yes := by decide
    rw [List.singleton_append, readFactor, if_neg hopening, hkeyword]
  | _, _, .test hopening hkeyword hread, n, rest, hn => by
    obtain ⟨m, rfl⟩ : ∃ m, n = m + 1 := ⟨n - 1, by simp at hn; omega⟩
    have hrest := hread rest
    rw [List.cons_append] at hrest ⊢
    rw [readFactor, if_neg hopening, hkeyword]
    simp [hrest]
  | _, _, @Factor.group tokens e h, n, rest, hn => by
    obtain ⟨m, rfl⟩ : ∃ m, n = m + 1 := ⟨n - 1, by simp at hn; omega⟩
    have hinner : readAny m (tokens ++ .closing :: rest) = some (e, .closing :: rest) := by
      refine readAny_of_condition h m _ (by simp at hn; omega) ?_ ?_
      · simp [EndsBefore, Token.closing, Token.keyword?]
      · simp [EndsBefore, Token.closing, Token.keyword?]
    have htokens : .opening :: tokens ++ [.closing] ++ rest =
        .opening :: (tokens ++ .closing :: rest) := by simp
    rw [htokens, readFactor, if_pos rfl, hinner]
    simp

/-- A term is read back from its tokens if no `AND` follows it. -/
theorem readAll_of_term : {tokens : List Token} → {e : Expr} → Term tokens e →
    (n : Nat) → (rest : List Token) → 3 * tokens.length + 1 ≤ n → EndsBefore .and rest →
    readAll n (tokens ++ rest) = some (e, rest)
  | tokens, e, .factor h, n, rest, hn, hrest => by
    obtain ⟨m, rfl⟩ : ∃ m, n = m + 1 := ⟨n - 1, by omega⟩
    rw [readAll, readFactor_of_factor h m rest (by omega)]
    cases rest with
    | nil => rfl
    | cons token more =>
      have htoken : token.keyword? ≠ some .and := hrest token (by simp)
      simp [htoken]
  | _, _, @Term.and left right e f hleft hright, n, rest, hn, hrest => by
    obtain ⟨m, rfl⟩ : ∃ m, n = m + 1 := ⟨n - 1, by omega⟩
    simp only [List.length_append, List.length_cons] at hn
    have hand : (Token.keyword "AND").keyword? = some .and := by decide
    have hmore := readAll_of_term hright m rest (by omega) hrest
    rw [List.append_assoc, List.cons_append, readAll,
      readFactor_of_factor hleft m _ (by omega)]
    simp [hand, hmore]

/-- A condition is read back from its tokens if neither `AND` nor `OR` follows it. -/
theorem readAny_of_condition : {tokens : List Token} → {e : Expr} → Condition tokens e →
    (n : Nat) → (rest : List Token) → 3 * tokens.length + 2 ≤ n → EndsBefore .and rest →
    EndsBefore .or rest → readAny n (tokens ++ rest) = some (e, rest)
  | tokens, e, .term h, n, rest, hn, hand, hor => by
    obtain ⟨m, rfl⟩ : ∃ m, n = m + 1 := ⟨n - 1, by omega⟩
    rw [readAny, readAll_of_term h m rest (by omega) hand]
    cases rest with
    | nil => rfl
    | cons token more =>
      have htoken : token.keyword? ≠ some .or := hor token (by simp)
      simp [htoken]
  | _, _, @Condition.or left right e f hleft hright, n, rest, hn, hand, hor => by
    obtain ⟨m, rfl⟩ : ∃ m, n = m + 1 := ⟨n - 1, by omega⟩
    simp only [List.length_append, List.length_cons] at hn
    have hkeyword : (Token.keyword "OR").keyword? = some .or := by decide
    have hends : EndsBefore .and (.keyword "OR" :: (right ++ rest)) := by
      intro token htoken
      obtain rfl : Token.keyword "OR" = token := by simpa using htoken
      decide
    have hmore := readAny_of_condition hright m rest (by omega) hand hor
    rw [List.append_assoc, List.cons_append, readAny, readAll_of_term hleft m _ (by omega) hends]
    simp [hkeyword, hmore]

end

/-- Every text of the grammar is read as the expression that it stands for. -/
theorem readCondition_of_condition {text : List Char} {tokens : List Token} {e : Expr}
    (htext : lex text = some tokens) (h : Condition tokens e) : readCondition text = some e := by
  have hread := readAny_of_condition h (3 * tokens.length + 3) [] (by omega)
    (by simp [EndsBefore]) (by simp [EndsBefore])
  rw [List.append_nil] at hread
  simp [readCondition, htext, hread]

/-- Terms are joined by `AND` to a term with the meaning of both. -/
theorem Term.append : {left right : List Token} → {e f : Expr} → Term left e → Term right f →
    ∃ g, Term (left ++ .keyword "AND" :: right) g ∧
      ∀ truth, g.eval truth = (e.eval truth && f.eval truth)
  | _, _, _, f, .factor h, hright => ⟨.and _ f, .and h hright, fun _ => rfl⟩
  | _, right, _, f, @Term.and a b e' f' ha hb, hright => by
    obtain ⟨g, hg, heval⟩ := Term.append hb hright
    refine ⟨.and e' g, ?_, ?_⟩
    · have hterm := Term.and ha hg
      rwa [← List.cons_append, ← List.append_assoc] at hterm
    · intro truth
      simp [Expr.eval, heval, Bool.and_assoc]

/-- Any terms are joined by `AND` to a term that holds when all of them do. -/
theorem Term.join {parts : List (List Token)} {es : List Expr} (h : List.Forall₂ Term parts es)
    (hne : es ≠ []) : ∃ g, Term ([Token.keyword "AND"].intercalate parts) g ∧
      ∀ truth, g.eval truth = es.all (·.eval truth) := by
  induction h with
  | nil => contradiction
  | @cons part e parts es hpart hparts ih =>
    cases hparts with
    | nil => exact ⟨e, by simpa using hpart, by simp⟩
    | @cons next f parts es hnext hparts =>
      obtain ⟨g, hg, heval⟩ := ih (by simp)
      obtain ⟨joined, hjoined, hjoin⟩ := hpart.append hg
      refine ⟨joined, ?_, ?_⟩
      · rw [List.intercalate_cons_cons]
        simpa using hjoined
      · intro truth
        simp only [hjoin, heval, List.all_cons]

/-- Any terms are joined by `OR` to a condition that holds when one of them does. -/
theorem Condition.join {parts : List (List Token)} {es : List Expr}
    (h : List.Forall₂ Term parts es) (hne : es ≠ []) :
    ∃ g, Condition ([Token.keyword "OR"].intercalate parts) g ∧
      ∀ truth, g.eval truth = es.any (·.eval truth) := by
  induction h with
  | nil => contradiction
  | @cons part e parts es hpart hparts ih =>
    cases hparts with
    | nil => exact ⟨e, .term (by simpa using hpart), by simp⟩
    | @cons next f parts es hnext hparts =>
      obtain ⟨g, hg, heval⟩ := ih (by simp)
      refine ⟨.or e g, ?_, ?_⟩
      · rw [List.intercalate_cons_cons]
        simpa using Condition.or hpart hg
      · intro truth
        simp only [Expr.eval, heval, List.any_cons]

end FindSelect.Sql
