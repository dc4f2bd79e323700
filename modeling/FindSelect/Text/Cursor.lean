import FindSelect.Outcome
import FindSelect.Text.Blank

namespace FindSelect.Text

/-- Why a span that was begun could not be closed: the text ended inside a
    quoted text, or with a bracket or brace still open. -/
inductive OpenSpan where
  | quote
  | bracket
  deriving DecidableEq, Repr

/-- A text and a position in it, counted in characters. Nothing keeps the
    position inside the text: a cursor that has stepped over the end stays
    usable, and only a bare token can no longer be read from it. -/
structure Cursor where
  input : List Char
  position : Nat
  deriving DecidableEq, Repr

namespace Cursor

/-- A cursor in front of the first character. -/
def start (input : List Char) : Cursor := ⟨input, 0⟩

/-- Everything from the cursor to the end. -/
def rest (c : Cursor) : List Char := c.input.drop c.position

/-- The character under the cursor. -/
def current? (c : Cursor) : Option Char := c.input[c.position]?

def atEnd (c : Cursor) : Bool := c.input.length ≤ c.position

/-- The number of characters ahead; none once the end is passed. -/
def remaining (c : Cursor) : Nat := c.input.length - c.position

/-- Moves on by `n` characters, over the end if need be. -/
def advance (n : Nat) (c : Cursor) : Cursor := { c with position := c.position + n }

/-- Moves over the longest run of characters that satisfy `p`. -/
def skipWhile (p : Char → Bool) (c : Cursor) : Cursor := c.advance (c.rest.takeWhile p).length

def skipBlanks (c : Cursor) : Cursor := c.skipWhile isBlank

def skipGap (c : Cursor) : Cursor := c.skipWhile isSeparator

/-- Reads a quoted text whose opening quote is under the cursor and returns what
    stands between the quotes. Without a closing quote the cursor is left at the
    end, and without an opening one where it was. -/
def takeQuoted (c : Cursor) : Except OpenSpan (List Char) × Cursor :=
  match c.rest with
  | [] => (.error .quote, c)
  | quote :: rest =>
    if isQuoteMark quote then
      let contents := rest.takeWhile (· != quote)
      if contents.length < rest.length then (.ok contents, c.advance (contents.length + 2))
      else (.error .quote, { c with position := c.input.length })
    else (.error .quote, c)

/-- The length of the shortest span that closes every opening bracket read so
    far. `quote` is the quote that is open, inside which brackets are plain
    characters, and `depth` counts the brackets that are open. -/
def spanLength (opening closing : Char) :
    (quote : Option Char) → (depth : Nat) → List Char → Except OpenSpan Nat
  | none, _, [] => .error .bracket
  | some _, _, [] => .error .quote
  | some quote, depth, c :: rest =>
    (spanLength opening closing (if c = quote then none else some quote) depth rest).map (· + 1)
  | none, depth, c :: rest =>
    if isQuoteMark c then (spanLength opening closing (some c) depth rest).map (· + 1)
    else if c = opening then (spanLength opening closing none (depth + 1) rest).map (· + 1)
    else if c = closing then
      if depth = 1 then .ok 1 else (spanLength opening closing none (depth - 1) rest).map (· + 1)
    else (spanLength opening closing none depth rest).map (· + 1)

/-- Reads a bracketed span whose opening bracket is under the cursor, with both
    brackets. A span that does not close leaves the cursor at the end, and a
    missing opening bracket where it was. -/
def takeEnclosed (opening closing : Char) (c : Cursor) : Except OpenSpan (List Char) × Cursor :=
  if c.current? = some opening then
    match spanLength opening closing none 0 c.rest with
    | .ok n => (.ok (c.rest.take n), c.advance n)
    | .error fault => (.error fault, { c with position := c.input.length })
  else (.error .bracket, c)

/-- Reads the characters up to a separator, a character of `stops` or the end;
    there may be none. Past the end there is no text to cut the token from. -/
def takeToken (stops : List Char) (c : Cursor) : Option (List Char × Cursor) :=
  if c.position ≤ c.input.length then
    let token := c.rest.takeWhile fun ch => !(isSeparator ch || stops.contains ch)
    some (token, c.advance token.length)
  else none

/-- `d` is a cursor over the same text, at the position of `c` or after it. -/
def Leads (c d : Cursor) : Prop := d.input = c.input ∧ c.position ≤ d.position

theorem Leads.refl (c : Cursor) : c.Leads c := ⟨rfl, Nat.le_refl _⟩

theorem Leads.trans {c d e : Cursor} (h : c.Leads d) (h' : d.Leads e) : c.Leads e :=
  ⟨h'.1.trans h.1, Nat.le_trans h.2 h'.2⟩

theorem leads_advance (n : Nat) (c : Cursor) : c.Leads (c.advance n) := ⟨rfl, Nat.le_add_right _ _⟩

theorem leads_skipWhile (p : Char → Bool) (c : Cursor) : c.Leads (c.skipWhile p) :=
  leads_advance _ c

theorem length_rest (c : Cursor) : c.rest.length = c.remaining := by simp [rest, remaining]

theorem current?_eq_head?_rest (c : Cursor) : c.current? = c.rest.head? := by
  simp [current?, rest, List.head?_drop]

/-- What reading a quoted text comes to: no quote is under the cursor, or the run of other
    characters after it is followed by a second one, or that run is all that is left. -/
inductive QuotedOutcome (c : Cursor) : Except OpenSpan (List Char) × Cursor → Prop where
  | absent (hquote : c.current?.any isQuoteMark = false) : QuotedOutcome c (.error .quote, c)
  | closed {mark : Char} {text : List Char} (hrest : c.rest = mark :: text)
      (hmark : isQuoteMark mark = true)
      (hclosed : (text.takeWhile (· != mark)).length < text.length) :
      QuotedOutcome c
        (.ok (text.takeWhile (· != mark)), c.advance ((text.takeWhile (· != mark)).length + 2))
  | unclosed {mark : Char} {text : List Char} (hrest : c.rest = mark :: text)
      (hmark : isQuoteMark mark = true)
      (hopen : ¬ (text.takeWhile (· != mark)).length < text.length) :
      QuotedOutcome c (.error .quote, { c with position := c.input.length })

/-- Reading a quoted text has one of the three outcomes. -/
theorem quotedOutcome_takeQuoted (c : Cursor) : QuotedOutcome c c.takeQuoted := by
  unfold takeQuoted
  split
  · rename_i hrest
    exact .absent (by rw [current?_eq_head?_rest, hrest]; rfl)
  rename_i mark text hrest
  split
  · rename_i hmark
    dsimp only
    split
    · rename_i hclosed
      exact .closed hrest hmark hclosed
    · rename_i hopen
      exact .unclosed hrest hmark hopen
  · rename_i hmark
    exact .absent (by rw [current?_eq_head?_rest, hrest]; exact Bool.eq_false_iff.2 hmark)

/-- A quoted text takes its contents and two quotes. -/
theorem takeQuoted_ok {c d : Cursor} {contents : List Char}
    (h : c.takeQuoted = (.ok contents, d)) :
    contents.length ≤ c.remaining ∧ d = c.advance (contents.length + 2) := by
  have houtcome := quotedOutcome_takeQuoted c
  rw [h] at houtcome
  cases houtcome with
  | closed hrest _ hclosed =>
    refine ⟨?_, rfl⟩
    rw [← length_rest, hrest, List.length_cons]
    omega

/-- What one character does in the search for the end of a span: the open quote and the number of
    open brackets after it, or nothing if it is the bracket that ends the span. -/
inductive ScanStep (opening closing : Char) :
    Option Char → Nat → Char → Option (Option Char × Nat) → Prop where
  | quoted (mark : Char) (depth : Nat) (c : Char) :
      ScanStep opening closing (some mark) depth c
        (some (if c = mark then none else some mark, depth))
  | quote {depth : Nat} {c : Char} (hquote : isQuoteMark c = true) :
      ScanStep opening closing none depth c (some (some c, depth))
  | opening {depth : Nat} {c : Char} (hquote : ¬ isQuoteMark c = true) (hopening : c = opening) :
      ScanStep opening closing none depth c (some (none, depth + 1))
  | closing {depth : Nat} {c : Char} (hquote : ¬ isQuoteMark c = true) (hopening : c ≠ opening)
      (hclosing : c = closing) (hdepth : depth ≠ 1) :
      ScanStep opening closing none depth c (some (none, depth - 1))
  | last {depth : Nat} {c : Char} (hquote : ¬ isQuoteMark c = true) (hopening : c ≠ opening)
      (hclosing : c = closing) (hdepth : depth = 1) : ScanStep opening closing none depth c none
  | other {depth : Nat} {c : Char} (hquote : ¬ isQuoteMark c = true) (hopening : c ≠ opening)
      (hclosing : c ≠ closing) : ScanStep opening closing none depth c (some (none, depth))

/-- A step that does not end the span leaves a bracket open, if there was one before it. -/
theorem ScanStep.depth_pos {opening closing c : Char} {quote : Option Char} {depth : Nat}
    {next : Option Char × Nat} (h : ScanStep opening closing quote depth c (some next))
    (hdepth : 0 < depth) : 0 < next.2 := by
  cases h with
  | opening => exact Nat.succ_pos depth
  | closing _ _ _ hlast =>
    dsimp only
    omega
  | _ => exact hdepth

/-- The search goes on after each character as its step says, whatever text follows. -/
theorem exists_scanStep (opening closing : Char) (quote : Option Char) (depth : Nat) (c : Char) :
    ∃ next, ScanStep opening closing quote depth c next ∧ ∀ text,
      spanLength opening closing quote depth (c :: text) = next.elim (.ok 1) fun (quote, depth) =>
        (spanLength opening closing quote depth text).map (· + 1) := by
  cases quote with
  | some mark => exact ⟨_, .quoted mark depth c, fun _ => rfl⟩
  | none =>
    by_cases hquote : isQuoteMark c = true
    · exact ⟨_, .quote hquote, fun _ => if_pos hquote⟩
    by_cases hopening : c = opening
    · refine ⟨_, .opening hquote hopening, fun text => ?_⟩
      rw [spanLength, if_neg hquote, if_pos hopening, Option.elim]
    by_cases hclosing : c = closing
    · by_cases hdepth : depth = 1
      · refine ⟨_, .last hquote hopening hclosing hdepth, fun text => ?_⟩
        rw [spanLength, if_neg hquote, if_neg hopening, if_pos hclosing, if_pos hdepth, Option.elim]
      · refine ⟨_, .closing hquote hopening hclosing hdepth, fun text => ?_⟩
        rw [spanLength, if_neg hquote, if_neg hopening, if_pos hclosing, if_neg hdepth, Option.elim]
    · refine ⟨_, .other hquote hopening hclosing, fun text => ?_⟩
      rw [spanLength, if_neg hquote, if_neg hopening, if_neg hclosing, Option.elim]

/-- A closed span has at least its closing bracket. -/
theorem spanLength_pos {opening closing : Char} {quote : Option Char} {depth n : Nat}
    {text : List Char} (h : spanLength opening closing quote depth text = .ok n) : 0 < n := by
  cases text with
  | nil => cases quote <;> simp [spanLength] at h
  | cons c text =>
    obtain ⟨next, -, hlength⟩ := exists_scanStep opening closing quote depth c
    rw [hlength] at h
    cases next with
    | none =>
      obtain rfl := Except.ok.inj h
      exact Nat.one_pos
    | some next =>
      obtain ⟨m, -, rfl⟩ := map_eq_ok.1 h
      exact Nat.succ_pos m

/-- A span is read exactly if it begins under the cursor and the search finds its end. -/
theorem takeEnclosed_eq_ok {opening closing : Char} {c d : Cursor} {span : List Char} :
    c.takeEnclosed opening closing = (.ok span, d) ↔ c.current? = some opening ∧
      ∃ n, spanLength opening closing none 0 c.rest = .ok n ∧ span = c.rest.take n ∧
        d = c.advance n := by
  unfold takeEnclosed
  split
  · rename_i hcurrent
    cases spanLength opening closing none 0 c.rest <;> simp [hcurrent, eq_comm]
  · rename_i hcurrent
    simp [hcurrent]

/-- Without its bracket a span leaves the cursor where it was, and without an end it fails as the
    search does. -/
theorem takeEnclosed_eq_error {opening closing : Char} {c d : Cursor} {fault : OpenSpan} :
    c.takeEnclosed opening closing = (.error fault, d) ↔
      c.current? ≠ some opening ∧ fault = .bracket ∧ d = c ∨
        c.current? = some opening ∧ spanLength opening closing none 0 c.rest = .error fault ∧
          d = { c with position := c.input.length } := by
  unfold takeEnclosed
  split
  · rename_i hcurrent
    cases spanLength opening closing none 0 c.rest <;> simp [hcurrent, eq_comm]
  · rename_i hcurrent
    simp [hcurrent, eq_comm]

/-- A bracketed span is exactly what the cursor moves over. -/
theorem takeEnclosed_ok {opening closing : Char} {c d : Cursor} {span : List Char}
    (h : c.takeEnclosed opening closing = (.ok span, d)) :
    span.length ≤ c.remaining ∧ ∃ n, 0 < n ∧ span = c.rest.take n ∧ d = c.advance n := by
  obtain ⟨-, n, hn, rfl, rfl⟩ := takeEnclosed_eq_ok.1 h
  refine ⟨?_, n, spanLength_pos hn, rfl, rfl⟩
  rw [← length_rest]
  exact (List.take_sublist n c.rest).length_le

/-- A bare token is read exactly if the cursor is not past the end. -/
theorem takeToken_eq_some {stops : List Char} {c d : Cursor} {token : List Char} :
    c.takeToken stops = some (token, d) ↔ c.position ≤ c.input.length ∧
      token = c.rest.takeWhile (fun ch => !(isSeparator ch || stops.contains ch)) ∧
      d = c.skipWhile fun ch => !(isSeparator ch || stops.contains ch) := by
  unfold takeToken
  split
  · rename_i hposition
    simp [hposition, skipWhile, eq_comm]
  · rename_i hposition
    simp [hposition]

/-- Moving forward never leaves more text ahead. -/
theorem Leads.remaining_le {c d : Cursor} (h : c.Leads d) : d.remaining ≤ c.remaining := by
  obtain ⟨hinput, hposition⟩ := h
  simp only [remaining, hinput]
  omega

/-- Moving on from inside the text leaves less text ahead. -/
theorem Leads.remaining_lt {c d : Cursor} (h : c.Leads d) (hmoved : c.position < d.position)
    (hinside : c.position < c.input.length) : d.remaining < c.remaining := by
  simp only [remaining, h.1]
  omega

theorem position_lt_of_atEnd_eq_false {c : Cursor} (h : c.atEnd = false) :
    c.position < c.input.length := by
  simpa [atEnd] using h

/-- Moving on from the first character after the separators leaves less text
    ahead. -/
theorem Leads.remaining_lt_of_skip {c d : Cursor} (h : c.skipGap.Leads d)
    (hmoved : c.skipGap.position < d.position) (hend : c.skipGap.atEnd = false) :
    d.remaining < c.remaining :=
  Nat.lt_of_lt_of_le (h.remaining_lt hmoved (position_lt_of_atEnd_eq_false hend))
    (leads_skipWhile _ c).remaining_le

theorem remaining_advance_skip {c : Cursor} {n : Nat} (hpos : 0 < n)
    (hend : c.skipGap.atEnd = false) :
    (c.skipGap.advance n).remaining < c.remaining :=
  (leads_advance n _).remaining_lt_of_skip (Nat.lt_add_of_pos_right hpos) hend

theorem rest_advance (n : Nat) (c : Cursor) : (c.advance n).rest = c.rest.drop n := by
  simp [rest, advance, List.drop_drop]

/-- Skipping a run of characters drops it from the text ahead. -/
theorem rest_skipWhile (p : Char → Bool) (c : Cursor) :
    (c.skipWhile p).rest = c.rest.dropWhile p := by
  rw [skipWhile, rest_advance]
  induction c.rest with
  | nil => rfl
  | cons ch rest ih =>
    by_cases h : p ch <;> simp [h, ih]

end Cursor
end FindSelect.Text
