import Mathlib.Data.List.TakeWhile
import Mathlib.Tactic.Common
import FindSelect.Text.Cursor

namespace FindSelect.Text

/-- A text that does not begin with a character that satisfies `p`. -/
def StopsBefore (p : Char → Bool) (text : List Char) : Prop := ∀ c ∈ text.head?, p c = false

theorem stopsBefore_nil (p : Char → Bool) : StopsBefore p [] := by
  intro c hc
  contradiction

theorem stopsBefore_cons {p : Char → Bool} {c : Char} (h : p c = false) (text : List Char) :
    StopsBefore p (c :: text) := by
  intro d hd
  obtain rfl : c = d := by simpa using hd
  exact h

/-- A run of characters is not made longer by a text that stops it. -/
theorem takeWhile_append_stop {p : Char → Bool} {suffix : List Char} (h : StopsBefore p suffix)
    (text : List Char) : (text ++ suffix).takeWhile p = text.takeWhile p := by
  induction text with
  | nil =>
    cases suffix with
    | nil => rfl
    | cons c suffix => simp [h c (by simp)]
  | cons c text ih =>
    by_cases hc : p c = true
    · simp [hc, ih]
    · simp [hc]

/-- Where a run of characters is dropped, a text that stops it is left whole. -/
theorem dropWhile_append_stop {p : Char → Bool} {suffix : List Char} (h : StopsBefore p suffix)
    (text : List Char) : (text ++ suffix).dropWhile p = text.dropWhile p ++ suffix := by
  induction text with
  | nil =>
    cases suffix with
    | nil => rfl
    | cons c suffix => simp [h c (by simp)]
  | cons c text ih =>
    by_cases hc : p c = true
    · simp [hc, ih]
    · simp [hc]

/-- A run of characters is taken off whole where another text stops it. -/
theorem takeWhile_append_of_stops {p : Char → Bool} {run text : List Char}
    (hrun : ∀ c ∈ run, p c = true) (htext : StopsBefore p text) :
    (run ++ text).takeWhile p = run := by
  rw [takeWhile_append_stop htext, List.takeWhile_eq_self_iff.2 hrun]

/-- Where a text is a run of characters up to the stop, only what stops it is left. -/
theorem dropWhile_append_of_stops {p : Char → Bool} {run text : List Char}
    (hrun : ∀ c ∈ run, p c = true) (htext : StopsBefore p text) :
    (run ++ text).dropWhile p = text := by
  rw [dropWhile_append_stop htext, List.dropWhile_eq_nil_iff.2 hrun, List.nil_append]

/-- No character of a text without the mark is the mark. -/
theorem bne_of_not_mem {mark : Char} {text : List Char} (h : mark ∉ text) :
    ∀ c ∈ text, (c != mark) = true := by
  intro c hc
  rw [bne_iff_ne]
  rintro rfl
  exact h hc

/-- A mark stops the run of characters that are not it. -/
theorem stopsBefore_mark (mark : Char) (text : List Char) :
    StopsBefore (· != mark) (mark :: text) :=
  stopsBefore_cons (by simp) text

/-- The brackets of mappings and those of lists. -/
def AreBrackets (opening closing : Char) : Prop :=
  opening = '{' ∧ closing = '}' ∨ opening = '[' ∧ closing = ']'

theorem braces : AreBrackets '{' '}' := .inl ⟨rfl, rfl⟩

theorem squares : AreBrackets '[' ']' := .inr ⟨rfl, rfl⟩

def isBracket (c : Char) : Bool := c == '{' || c == '}' || c == '[' || c == ']'

theorem isBracket_iff {c : Char} :
    isBracket c = true ↔ c = '{' ∨ c = '}' ∨ c = '[' ∨ c = ']' := by
  simp [isBracket, or_assoc]

theorem isQuoteMark_iff {c : Char} : isQuoteMark c = true ↔ c = '"' ∨ c = '\'' := by
  simp [isQuoteMark]

theorem isSeparator_of_isBlank {c : Char} (h : isBlank c = true) : isSeparator c = true := by
  simp [isSeparator, h]

theorem isQuoteMark_eq_false_of_isSeparator {c : Char} (h : isSeparator c = true) :
    isQuoteMark c = false := by
  refine Bool.eq_false_iff.2 ?_
  intro hquote
  rcases isQuoteMark_iff.1 hquote with rfl | rfl <;> exact absurd h (by decide)

/-- The two brackets differ, and neither of them is a quote. -/
theorem AreBrackets.spec {opening closing : Char} (h : AreBrackets opening closing) :
    isQuoteMark opening = false ∧ isQuoteMark closing = false ∧ closing ≠ opening ∧
      isBracket opening = true ∧ isBracket closing = true := by
  rcases h with ⟨rfl, rfl⟩ | ⟨rfl, rfl⟩ <;> decide

theorem AreBrackets.isBlank_eq_false {opening closing : Char} (h : AreBrackets opening closing) :
    isBlank opening = false ∧ isBlank closing = false := by
  rcases h with ⟨rfl, rfl⟩ | ⟨rfl, rfl⟩ <;> decide

/-- White space after a character that is not blank is trimmed off. -/
theorem trimEnd_append {text after : List Char} (hafter : ∀ c ∈ after, isBlank c = true)
    (hlast : StopsBefore isBlank text.reverse) : trimEnd (text ++ after) = text := by
  have hreverse : ∀ c ∈ after.reverse, isBlank c = true := by
    intro c hc
    exact hafter c (List.mem_reverse.1 hc)
  rw [trimEnd, List.reverse_append, dropWhile_append_of_stops hreverse hlast, List.reverse_reverse]

/-- A text without white space is left as it is. -/
theorem trim_of_forall {text : List Char} (h : ∀ c ∈ text, isBlank c = false) :
    trim text = text := by
  have hdrop {text : List Char} (h : ∀ c ∈ text, isBlank c = false) :
      text.dropWhile isBlank = text := by
    cases text with
    | nil => rfl
    | cons c text => simp [h c List.mem_cons_self]
  have hreverse : ∀ c ∈ text.reverse, isBlank c = false :=
    fun c hc => h c (List.mem_reverse.1 hc)
  rw [trim, trimStart, hdrop h, trimEnd, hdrop hreverse, List.reverse_reverse]

/-- Trimming takes white space off up to the first and the last character that are not blank. -/
theorem trim_between {first last : Char} (hfirst : isBlank first = false)
    (hlast : isBlank last = false) {before inner after : List Char}
    (hbefore : ∀ c ∈ before, isBlank c = true) (hafter : ∀ c ∈ after, isBlank c = true) :
    trim (before ++ (first :: inner ++ [last]) ++ after) = first :: inner ++ [last] := by
  have hstart : trimStart (before ++ (first :: inner ++ [last]) ++ after) =
      first :: inner ++ [last] ++ after := by
    rw [trimStart, List.append_assoc]
    exact dropWhile_append_of_stops hbefore (stopsBefore_cons hfirst _)
  have hstops : StopsBefore isBlank (first :: inner ++ [last]).reverse := by
    rw [List.reverse_append]
    exact stopsBefore_cons hlast _
  rw [trim, hstart, trimEnd_append hafter hstops]

theorem trim_ends {first last : Char} (hfirst : isBlank first = false)
    (hlast : isBlank last = false) (inner : List Char) :
    trim (first :: inner ++ [last]) = first :: inner ++ [last] := by
  have htrim : trim ([] ++ (first :: inner ++ [last]) ++ []) = first :: inner ++ [last] :=
    trim_between hfirst hlast (by simp) (by simp)
  simpa using htrim

/-- Trimming takes white space off up to the brackets around a text. -/
theorem trim_enclosed {opening closing : Char} (h : AreBrackets opening closing)
    {before inner after : List Char} (hbefore : ∀ c ∈ before, isBlank c = true)
    (hafter : ∀ c ∈ after, isBlank c = true) :
    trim (before ++ (opening :: inner ++ [closing]) ++ after) = opening :: inner ++ [closing] :=
  trim_between h.isBlank_eq_false.1 h.isBlank_eq_false.2 hbefore hafter

theorem trim_brackets {opening closing : Char} (h : AreBrackets opening closing)
    (inner : List Char) : trim (opening :: inner ++ [closing]) = opening :: inner ++ [closing] :=
  trim_ends h.isBlank_eq_false.1 h.isBlank_eq_false.2 inner

/-- Characters that are not blank survive trimming. -/
theorem mem_trim {text : List Char} {c : Char} (h : c ∈ text) (hc : isBlank c = false) :
    c ∈ trim text := by
  have hdrop {text : List Char} (h : c ∈ text) : c ∈ text.dropWhile isBlank := by
    rw [← List.takeWhile_append_dropWhile (p := isBlank) (l := text)] at h
    rcases List.mem_append.1 h with h | h
    · have hblank := List.mem_takeWhile_imp h
      rw [hc] at hblank
      contradiction
    · exact h
  have hstart : c ∈ trimStart text := hdrop h
  exact List.mem_reverse.2 (hdrop (List.mem_reverse.2 hstart))

/-- Unwrapping gives back what was put between brackets. -/
theorem unwrap?_brackets (opening closing : Char) (inner : List Char) :
    unwrap? opening closing (opening :: inner ++ [closing]) = some inner := by
  simp [unwrap?, dropLast?]

theorem unwrap?_trim_brackets {opening closing : Char} (h : AreBrackets opening closing)
    (inner : List Char) :
    unwrap? opening closing (trim (opening :: inner ++ [closing])) = some inner := by
  rw [trim_brackets h, unwrap?_brackets]

/-- A text whose quotes are closed and whose brackets, where they do not stand between
    quotes, are closed in their turn. -/
inductive Balanced : List Char → Prop where
  | nil : Balanced []
  | char {c : Char} (hquote : isQuoteMark c = false) (hbracket : isBracket c = false) :
      Balanced [c]
  | quoted {mark : Char} {contents : List Char} (hmark : isQuoteMark mark = true)
      (hcontents : mark ∉ contents) : Balanced (mark :: contents ++ [mark])
  | enclosed {opening closing : Char} {inner : List Char}
      (hbrackets : AreBrackets opening closing) (hinner : Balanced inner) :
      Balanced (opening :: inner ++ [closing])
  | append {a b : List Char} (ha : Balanced a) (hb : Balanced b) : Balanced (a ++ b)

/-- A text without quotes and brackets is balanced. -/
theorem balanced_of_forall {text : List Char}
    (h : ∀ c ∈ text, isQuoteMark c = false ∧ isBracket c = false) : Balanced text := by
  induction text with
  | nil => exact .nil
  | cons c text ih =>
    obtain ⟨hquote, hbracket⟩ := h c List.mem_cons_self
    have hrest := ih fun d hd => h d (List.mem_cons_of_mem c hd)
    exact .append (.char hquote hbracket) hrest

/-- Separators and colons are balanced text. -/
theorem balanced_of_separators {text : List Char}
    (h : ∀ c ∈ text, isSeparator c = true ∨ c = ':') : Balanced text := by
  apply balanced_of_forall
  intro c hc
  rcases h c hc with hgap | rfl
  · refine ⟨isQuoteMark_eq_false_of_isSeparator hgap, Bool.eq_false_iff.2 ?_⟩
    intro hbracket
    rcases isBracket_iff.1 hbracket with rfl | rfl | rfl | rfl <;> exact absurd hgap (by decide)
  · decide

namespace Cursor

theorem map_add (x : Except OpenSpan Nat) (m n : Nat) :
    (x.map (· + m)).map (· + n) = x.map (· + (m + n)) := by
  cases x with
  | error fault => rfl
  | ok k => exact congrArg Except.ok (Nat.add_assoc k m n)

/-- The search for a closing bracket passes over the contents of a quoted text. -/
theorem spanLength_quoted {mark : Char} {contents : List Char} (h : mark ∉ contents)
    (opening closing : Char) (depth : Nat) (rest : List Char) :
    spanLength opening closing (some mark) depth (contents ++ mark :: rest) =
      (spanLength opening closing none depth rest).map (· + (contents.length + 1)) := by
  induction contents with
  | nil => simp [spanLength]
  | cons c contents ih =>
    rw [List.mem_cons, not_or] at h
    have hc : c ≠ mark := fun heq => h.1 heq.symm
    rw [List.cons_append, spanLength, if_neg hc, ih h.2, map_add, List.length_cons]

/-- A bracket of the other kind is passed over. -/
theorem spanLength_passed {opening closing c : Char} (hquote : isQuoteMark c = false)
    (hopening : c ≠ opening) (hclosing : c ≠ closing) (depth : Nat) (rest : List Char) :
    spanLength opening closing none depth (c :: rest) =
      (spanLength opening closing none depth rest).map (· + 1) := by
  simp [spanLength, hquote, hopening, hclosing]

/-- An opening bracket is one more to be closed. -/
theorem spanLength_opening {opening : Char} (hquote : isQuoteMark opening = false)
    (closing : Char) (depth : Nat) (rest : List Char) :
    spanLength opening closing none depth (opening :: rest) =
      (spanLength opening closing none (depth + 1) rest).map (· + 1) := by
  simp [spanLength, hquote]

/-- A closing bracket ends the span if it closes the last open one. -/
theorem spanLength_closing {opening closing : Char} (h : AreBrackets opening closing)
    (depth : Nat) (rest : List Char) :
    spanLength opening closing none (depth + 1) (closing :: rest) =
      if depth = 0 then .ok 1
      else (spanLength opening closing none depth rest).map (· + 1) := by
  obtain ⟨-, hquote, hne, -⟩ := h.spec
  simp [spanLength, hquote, hne]

/-- The search for a closing bracket passes over a balanced text. -/
theorem spanLength_balanced {opening closing : Char} (hbrackets : AreBrackets opening closing)
    {text : List Char} (h : Balanced text) (depth : Nat) (rest : List Char) :
    spanLength opening closing none (depth + 1) (text ++ rest) =
      (spanLength opening closing none (depth + 1) rest).map (· + text.length) := by
  induction h generalizing depth rest with
  | nil =>
    rw [List.nil_append]
    cases spanLength opening closing none (depth + 1) rest <;> rfl
  | @char c hquote hbracket =>
    obtain ⟨-, -, -, hopening, hclosing⟩ := hbrackets.spec
    refine spanLength_passed hquote ?_ ?_ (depth + 1) rest
    · rintro rfl
      simp [hopening] at hbracket
    · rintro rfl
      simp [hclosing] at hbracket
  | @quoted mark contents hmark hcontents =>
    have hquoted := spanLength_quoted hcontents opening closing (depth + 1) rest
    rw [List.append_assoc, List.cons_append, List.singleton_append, spanLength, if_pos hmark,
      hquoted, map_add]
    simp
  | @enclosed first last inner hinner _ ih =>
    have hlength : (first :: inner ++ [last]).length = 1 + (inner.length + 1) := by simp; omega
    rw [hlength, List.append_assoc, List.cons_append, List.singleton_append]
    by_cases hsame : first = opening
    · obtain rfl : last = closing := by
        rcases hbrackets with ⟨rfl, rfl⟩ | ⟨rfl, rfl⟩ <;>
          rcases hinner with ⟨rfl, rfl⟩ | ⟨rfl, rfl⟩ <;> simp_all
      subst hsame
      rw [spanLength_opening hbrackets.spec.1, ih, spanLength_closing hbrackets, if_neg (by omega),
        map_add, map_add]
    · have hother : isQuoteMark first = false ∧ isQuoteMark last = false ∧ first ≠ closing ∧
          last ≠ opening ∧ last ≠ closing := by
        rcases hbrackets with ⟨rfl, rfl⟩ | ⟨rfl, rfl⟩ <;>
          rcases hinner with ⟨rfl, rfl⟩ | ⟨rfl, rfl⟩ <;> simp_all [isQuoteMark]
      -- Brackets of the other kind are plain characters to this search.
      obtain ⟨hquote, hquote', hclosing, hopening', hclosing'⟩ := hother
      rw [spanLength_passed hquote hsame hclosing, ih,
        spanLength_passed hquote' hopening' hclosing', map_add, map_add]
  | @append a b _ _ iha ihb =>
    rw [List.append_assoc, iha, ihb, map_add, List.length_append, Nat.add_comm]

end Cursor
end FindSelect.Text
