import FindSelect.Proofs.Text.Plain

namespace FindSelect.Sql

open Text

/-- A lexical unit of a statement. Keywords, bare names and unsigned numbers are
    words; names and strings in quotes are kept decoded. -/
inductive Token where
  | word (text : List Char)
  | name (text : List Char)
  | string (text : List Char)
  | sign (text : List Char)
  deriving DecidableEq, Repr

/-- The two quotes of a statement: single ones for strings, double ones for names. -/
inductive Mark where
  | single
  | double
  deriving DecidableEq, Repr

def Mark.char : Mark → Char
  | .single => '\''
  | .double => '"'

/-- What a text in quotes stands for. -/
def Mark.token : Mark → List Char → Token
  | .single => .string
  | .double => .name

/-- What the characters since the last complete token have begun. -/
inductive LexState where
  | between
  | word (read : List Char)
  /-- Inside quotes; what was read is decoded. -/
  | quoted (mark : Mark) (read : List Char)
  /-- After a mark inside quotes, which ends them unless the next character doubles it. -/
  | ended (mark : Mark) (read : List Char)
  | relation (first : Char)
  deriving DecidableEq, Repr

namespace LexState

/-- The token that ends where the state is left. -/
def pending : LexState → List Token
  | .between | .quoted _ _ => []
  | .word read => [.word read]
  | .ended mark read => [mark.token read]
  | .relation first => [.sign [first]]

/-- A sign inside a number: it follows the letter of an exponent. -/
def isExponentSign (read : List Char) (c : Char) : Bool :=
  (c == '-' || c == '+') && read.head?.any Char.isDigit &&
    read.getLast?.any fun last => last == 'e' || last == 'E'

/-- Goes on with the token that was begun, if the character belongs to it. -/
def join? (c : Char) : LexState → Option (LexState × List Token)
  | .between => none
  | .word read =>
    if isPlain c || isExponentSign read c then some (.word (read ++ [c]), []) else none
  | .quoted mark read =>
    if c = mark.char then some (.ended mark read, []) else some (.quoted mark (read ++ [c]), [])
  | .ended mark read => if c = mark.char then some (.quoted mark (read ++ [c]), []) else none
  | .relation first =>
    if c = '=' ∨ (first = '<' ∧ c = '>') then some (.between, [.sign [first, c]]) else none

/-- Begins a token, or passes over a blank. -/
def begin (c : Char) : LexState × List Token :=
  if isBlank c then (.between, [])
  else if c = '\'' then (.quoted .single [], [])
  else if c = '"' then (.quoted .double [], [])
  else if isPlain c then (.word [c], [])
  else if c = '<' ∨ c = '>' ∨ c = '!' then (.relation c, [])
  else (.between, [.sign [c]])

def step (s : LexState) (c : Char) : LexState × List Token :=
  match s.join? c with
  | some next => next
  | none => ((begin c).1, s.pending ++ (begin c).2)

/-- The state after a text, and the tokens that were completed on the way. -/
def run : LexState → List Char → LexState × List Token
  | s, [] => (s, [])
  | s, c :: rest => ((run (s.step c).1 rest).1, (s.step c).2 ++ (run (s.step c).1 rest).2)

def isQuoted : LexState → Bool
  | .quoted _ _ => true
  | _ => false

/-- The state after one text is the one in which the next begins. -/
theorem run_append (s : LexState) (a b : List Char) :
    s.run (a ++ b) = (((s.run a).1.run b).1, (s.run a).2 ++ ((s.run a).1.run b).2) := by
  induction a generalizing s with
  | nil => rfl
  | cons c a ih => simp [run, ih]

end LexState

/-- The tokens of a text; none if it ends inside quotes. -/
def lex (text : List Char) : Option (List Token) :=
  let result := LexState.run .between text
  if result.1.isQuoted then none else some (result.2 ++ result.1.pending)

/-- The characters that end every token before them. -/
def isBreak (c : Char) : Bool := c == ' ' || c == ')' || c == ',' || c == ';'

open LexState

theorem lex_eq_some {text : List Char} {tokens : List Token} (h : lex text = some tokens) :
    (run .between text).1.isQuoted = false ∧
      tokens = (run .between text).2 ++ (run .between text).1.pending := by
  simp only [lex] at h
  split at h
  · contradiction
  · rename_i hquoted
    exact ⟨by simpa using hquoted, (Option.some.inj h).symm⟩

/-- The tokens of a text are those completed on the way and the one that is pending at the end. -/
theorem lex_of_run {text : List Char} {s : LexState} {tokens : List Token}
    (h : run .between text = (s, tokens)) (hs : s.isQuoted = false) :
    lex text = some (tokens ++ s.pending) := by
  simp [lex, h, hs]

/-- Outside quotes a break never joins the token before it. -/
theorem join?_break {s : LexState} {c : Char} (hs : s.isQuoted = false) (hc : isBreak c = true) :
    s.join? c = none := by
  have hcases : c = ' ' ∨ c = ')' ∨ c = ',' ∨ c = ';' := by
    simpa [isBreak, or_assoc] using hc
  have hplain : isPlain c = false := by
    rcases hcases with rfl | rfl | rfl | rfl <;> decide +kernel
  cases s with
  | between => rfl
  | quoted mark read => simp [isQuoted] at hs
  | word read =>
    have hsign : isExponentSign read c = false := by
      rcases hcases with rfl | rfl | rfl | rfl <;> simp [isExponentSign]
    simp [join?, hplain, hsign]
  | ended mark read =>
    rcases hcases with rfl | rfl | rfl | rfl <;> cases mark <;> simp [join?, Mark.char]
  | relation first =>
    rcases hcases with rfl | rfl | rfl | rfl <;> simp [join?]

/-- Texts are lexed apart where the second begins with a break. -/
theorem lex_append_break {a b : List Char} {c : Char} {ta tb : List Token}
    (ha : lex a = some ta) (hc : isBreak c = true) (hb : lex (c :: b) = some tb) :
    lex (a ++ c :: b) = some (ta ++ tb) := by
  obtain ⟨hs, rfl⟩ := lex_eq_some ha
  obtain ⟨hs', rfl⟩ := lex_eq_some hb
  have hstart : step .between c = ((begin c).1, (begin c).2) := rfl
  have hstep : (run .between a).1.step c =
      ((begin c).1, (run .between a).1.pending ++ (begin c).2) := by
    rw [step, join?_break hs hc]
  simp only [run, hstart] at hs'
  rw [lex, run_append]
  simp only [run, hstep, hstart, hs', Bool.false_eq_true, if_false, List.append_assoc]

theorem lex_blank {c : Char} (hc : isBlank c = true) (text : List Char) :
    lex (c :: text) = lex text := by
  have hstep : step .between c = (.between, []) := by simp [step, join?, begin, pending, hc]
  simp [lex, run, hstep]

/-- A character that is a token of its own. -/
theorem lex_sign {c : Char} (hc : begin c = (.between, [.sign [c]])) (text : List Char) :
    lex (c :: text) = (lex text).map (.sign [c] :: ·) := by
  have hstep : step .between c = (.between, [.sign [c]]) := by simp [step, join?, pending, hc]
  simp only [lex, run, hstep]
  split <;> simp

/-- Plain characters go on with a word. -/
theorem run_word {text : List Char} (h : Plain text) (read : List Char) :
    run (.word read) text = (.word (read ++ text), []) := by
  induction text generalizing read with
  | nil => simp [run]
  | cons c text ih =>
    have hc : isPlain c = true := h c List.mem_cons_self
    have hstep : step (.word read) c = (.word (read ++ [c]), []) := by simp [step, join?, hc]
    simp [run, hstep, ih fun d hd => h d (List.mem_cons_of_mem c hd)]

theorem begin_plain {c : Char} (h : isPlain c = true) : begin c = (.word [c], []) := by
  have hsingle : c ≠ '\'' := ne_of_isPlain h (by decide +kernel)
  have hdouble : c ≠ '"' := ne_of_isPlain h (by decide +kernel)
  simp [begin, isBlank_eq_false_of_isPlain h, hsingle, hdouble, h]

theorem run_plain {c : Char} {text : List Char} (hc : isPlain c = true) (h : Plain text) :
    run .between (c :: text) = (.word (c :: text), []) := by
  have hstep : step .between c = (.word [c], []) := by
    simp [step, join?, pending, begin_plain hc]
  simp [run, hstep, run_word h]

/-- A plain text is one word. -/
theorem lex_plain {text : List Char} (h : Plain text) (hne : text ≠ []) :
    lex text = some [.word text] := by
  cases text with
  | nil => exact absurd rfl hne
  | cons c text =>
    have hrun := run_plain (h c List.mem_cons_self) fun d hd => h d (List.mem_cons_of_mem c hd)
    simpa [pending] using lex_of_run hrun rfl

/-- A doubled mark inside quotes stands for itself. -/
theorem run_doubled (mark : Mark) (read text : List Char) :
    run (.quoted mark read) (doubled mark.char text) = (.quoted mark (read ++ text), []) := by
  induction text generalizing read with
  | nil => simp [doubled, run]
  | cons c text ih =>
    have hcons : doubled mark.char (c :: text) =
        (if c = mark.char then [mark.char, mark.char] else [c]) ++ doubled mark.char text := rfl
    have hchar : run (.quoted mark read) (if c = mark.char then [mark.char, mark.char] else [c]) =
        (.quoted mark (read ++ [c]), []) := by
      by_cases hc : c = mark.char <;> simp [hc, run, step, join?]
    rw [hcons, run_append, hchar, ih]
    simp

/-- A text in quotes is one token, whatever it holds. -/
theorem lex_quotedWith (mark : Mark) (text : List Char) :
    lex (quotedWith mark.char text) = some [mark.token text] := by
  have hopen : step .between mark.char = (.quoted mark [], []) := by
    cases mark <;> decide +kernel
  have hclose : run (.quoted mark text) [mark.char] = (.ended mark text, []) := by
    simp [run, step, join?]
  have hrun : run .between (quotedWith mark.char text) = (.ended mark text, []) := by
    simp only [quotedWith, List.cons_append, run, hopen]
    rw [run_append, run_doubled]
    simp [hclose]
  simpa [pending] using lex_of_run hrun rfl

end FindSelect.Sql
