import FindSelect.Proofs.Text.Cursor

namespace FindSelect.Text

/-- The quote that is open after one more character. -/
def quoteStep : Option Char → Char → Option Char
  | some mark, c => if c = mark then none else some mark
  | none, c => if isQuoteMark c then some c else none

/-- The quote that is open after a text, given the one that is open before it. -/
def quoteAfter (quote : Option Char) (text : List Char) : Option Char := text.foldl quoteStep quote

/-- A text in which every quote that is opened is closed. -/
def QuotesClosed (text : List Char) : Prop := quoteAfter none text = none

theorem quoteAfter_cons (quote : Option Char) (c : Char) (text : List Char) :
    quoteAfter quote (c :: text) = quoteAfter (quoteStep quote c) text := rfl

/-- The quote that is open after the first text is the one the second begins with. -/
theorem quoteAfter_append (quote : Option Char) (a b : List Char) :
    quoteAfter quote (a ++ b) = quoteAfter (quoteAfter quote a) b :=
  List.foldl_append

/-- A text without quotes leaves none open. -/
theorem quotesClosed_of_forall {text : List Char} (h : ∀ c ∈ text, isQuoteMark c = false) :
    QuotesClosed text := by
  induction text with
  | nil => rfl
  | cons c text ih =>
    have hstep : quoteStep none c = none := by simp [quoteStep, h c List.mem_cons_self]
    rw [QuotesClosed, quoteAfter_cons, hstep]
    exact ih fun d hd => h d (List.mem_cons_of_mem c hd)

/-- A closed text in front of another one makes no difference to the other. -/
theorem QuotesClosed.append_iff {a b : List Char} (ha : QuotesClosed a) :
    QuotesClosed (a ++ b) ↔ QuotesClosed b := by
  rw [QuotesClosed, quoteAfter_append, ha, QuotesClosed]

theorem quotesClosed_cons {c : Char} (hc : isQuoteMark c = false) {text : List Char} :
    QuotesClosed (c :: text) ↔ QuotesClosed text := by
  have hsingle : QuotesClosed [c] := quotesClosed_of_forall (by simpa using hc)
  exact hsingle.append_iff

/-- Brackets around a text leave its quotes as they are. -/
theorem QuotesClosed.enclosed {opening closing : Char} (hbrackets : AreBrackets opening closing)
    {inner : List Char} (h : QuotesClosed inner) :
    QuotesClosed (opening :: inner ++ [closing]) := by
  obtain ⟨hopening, hclosing, -⟩ := hbrackets.spec
  have hlast : QuotesClosed [closing] := (quotesClosed_cons hclosing).2 rfl
  exact (quotesClosed_cons hopening).2 (h.append_iff.2 hlast)

/-- Where an open quote is closed, its contents end at the next mark. -/
theorem exists_of_quoteAfter_some {mark : Char} {text : List Char}
    (h : quoteAfter (some mark) text = none) :
    ∃ contents rest, text = contents ++ mark :: rest ∧ mark ∉ contents ∧ QuotesClosed rest := by
  induction text with
  | nil => contradiction
  | cons c text ih =>
    rw [quoteAfter_cons] at h
    by_cases hc : c = mark
    · subst hc
      rw [quoteStep, if_pos rfl] at h
      exact ⟨[], text, rfl, by simp, h⟩
    · rw [quoteStep, if_neg hc] at h
      obtain ⟨contents, rest, rfl, hcontents, hrest⟩ := ih h
      refine ⟨c :: contents, rest, rfl, ?_, hrest⟩
      rw [List.mem_cons, not_or]
      exact ⟨fun heq => hc heq.symm, hcontents⟩

namespace Cursor

/-- A step of the search for a closing bracket moves the open quote on. -/
theorem ScanStep.eq_quoteStep {opening closing c : Char} {quote : Option Char} {depth : Nat}
    {next : Option Char × Nat} (h : ScanStep opening closing quote depth c (some next)) :
    next.1 = quoteStep quote c := by
  cases h with
  | quoted mark => rfl
  | quote hquote => exact (if_pos hquote).symm
  | opening hquote => exact (if_neg hquote).symm
  | closing hquote => exact (if_neg hquote).symm
  | other hquote => exact (if_neg hquote).symm

/-- A span that is found ends in the closing bracket, with every quote in it closed. -/
theorem spanLength_eq_ok {opening closing : Char} {quote : Option Char} {depth n : Nat}
    {text : List Char} (h : spanLength opening closing quote depth text = .ok n) :
    ∃ inner rest, text = inner ++ closing :: rest ∧ n = inner.length + 1 ∧
      quoteAfter quote inner = none := by
  induction text generalizing quote depth n with
  | nil => cases quote <;> simp [spanLength] at h
  | cons c text ih =>
    obtain ⟨next, hstep, hlength⟩ := exists_scanStep opening closing quote depth c
    rw [hlength] at h
    cases next with
    | none =>
      obtain rfl := Except.ok.inj h
      cases hstep with
      | last _ _ hclosing => exact ⟨[], text, by rw [hclosing]; rfl, rfl, rfl⟩
    | some next =>
      obtain ⟨m, hm, rfl⟩ := map_eq_ok.1 h
      obtain ⟨inner, rest, rfl, rfl, hquote⟩ := ih hm
      rw [hstep.eq_quoteStep] at hquote
      exact ⟨c :: inner, rest, rfl, rfl, hquote⟩

/-- The search for a closing bracket ends inside quotes only if the text does. -/
theorem quoteAfter_of_spanLength {opening closing : Char} {quote : Option Char} {depth : Nat}
    {text : List Char} (h : spanLength opening closing quote depth text = .error .quote) :
    quoteAfter quote text ≠ none := by
  induction text generalizing quote depth with
  | nil =>
    cases quote with
    | none => simp [spanLength] at h
    | some mark => simp [quoteAfter]
  | cons c text ih =>
    obtain ⟨next, hstep, hlength⟩ := exists_scanStep opening closing quote depth c
    rw [hlength] at h
    cases next with
    | none => contradiction
    | some next =>
      rw [quoteAfter_cons, ← hstep.eq_quoteStep]
      exact ih (map_eq_error.1 h)

/-- A span in brackets has every quote in it closed. -/
theorem exists_of_takeEnclosed {opening closing : Char} (hbrackets : AreBrackets opening closing)
    {c d : Cursor} {span : List Char} (h : c.takeEnclosed opening closing = (.ok span, d)) :
    ∃ inner, span = opening :: inner ++ [closing] ∧ QuotesClosed inner ∧
      c.rest = span ++ d.rest := by
  obtain ⟨hquote, -, hne, -⟩ := hbrackets.spec
  obtain ⟨hcurrent, n, hn, rfl, rfl⟩ := takeEnclosed_eq_ok.1 h
  obtain ⟨inner, rest, hrest, rfl, hclosed⟩ := spanLength_eq_ok hn
  rw [current?_eq_head?_rest, hrest] at hcurrent
  cases inner with
  | nil =>
    obtain rfl : closing = opening := by simpa using hcurrent
    contradiction
  | cons first inner =>
    obtain rfl : first = opening := by simpa using hcurrent
    have hstep : quoteStep none first = none := by simp [quoteStep, hquote]
    rw [quoteAfter_cons, hstep] at hclosed
    refine ⟨inner, ?_, hclosed, ?_⟩
    · have hparts : c.rest = (first :: inner ++ [closing]) ++ rest := by simp [hrest]
      have hlength : (first :: inner ++ [closing]).length = (first :: inner).length + 1 := by
        simp
      rw [hparts, ← hlength, List.take_left]
    · rw [rest_advance, List.take_append_drop]

/-- In a text without open quotes a span that does not end lacks its bracket. -/
theorem eq_bracket_of_takeEnclosed {opening closing : Char} {c d : Cursor} {fault : OpenSpan}
    (hclosed : QuotesClosed c.rest) (h : c.takeEnclosed opening closing = (.error fault, d)) :
    fault = .bracket := by
  rcases takeEnclosed_eq_error.1 h with ⟨-, hfault, -⟩ | ⟨-, hspan, -⟩
  · exact hfault
  · cases fault with
    | bracket => rfl
    | quote => exact absurd hclosed (quoteAfter_of_spanLength hspan)

/-- In a text without open quotes a quoted text ends, and so do those after it. -/
theorem exists_of_quotesClosed {c : Cursor} (hclosed : QuotesClosed c.rest)
    (hquote : c.current?.any isQuoteMark = true) :
    ∃ contents d, c.takeQuoted = (.ok contents, d) ∧ QuotesClosed d.rest := by
  obtain ⟨mark, hcurrent, hmark⟩ := (Option.any_eq_true _ _).1 hquote
  rw [current?_eq_head?_rest, List.head?_eq_some_iff] at hcurrent
  obtain ⟨text, htext⟩ := hcurrent
  have hstep : quoteStep none mark = some mark := by simp [quoteStep, hmark]
  rw [htext, QuotesClosed, quoteAfter_cons, hstep] at hclosed
  obtain ⟨contents, rest, rfl, hcontents, hrest⟩ := exists_of_quoteAfter_some hclosed
  obtain ⟨d, hd, hmore⟩ := takeQuoted_of_rest htext hmark hcontents
  exact ⟨contents, d, hd, hmore ▸ hrest⟩

/-- Separators in front of a text make no difference to its quotes. -/
theorem quotesClosed_skipGap {c : Cursor} (h : QuotesClosed c.rest) :
    QuotesClosed c.skipGap.rest := by
  have hgap : QuotesClosed (c.rest.takeWhile isSeparator) := by
    apply quotesClosed_of_forall
    intro ch hch
    exact isQuoteMark_eq_false_of_isSeparator (List.mem_takeWhile_imp hch)
  rw [skipGap, rest_skipWhile]
  rw [← List.takeWhile_append_dropWhile (p := isSeparator) (l := c.rest)] at h
  exact hgap.append_iff.1 h

end Cursor
end FindSelect.Text
