import FindSelect.Proofs.Text.Nesting

namespace FindSelect.Text

/-- A text that has as many closing brackets as opening ones outside quoted strings, and that ends
    there in a closing bracket. -/
structure Enclosed (opening closing : Char) (text : List Char) : Prop where
  balanced : (unquoted text).count closing = (unquoted text).count opening
  quotes : QuotesClosed text
  ends : text.getLast? = some closing

theorem enclosed_iff {opening closing : Char} {text : List Char} :
    Enclosed opening closing text ↔
      (unquoted text).count closing = (unquoted text).count opening ∧ QuotesClosed text ∧
        text.getLast? = some closing :=
  ⟨fun h => ⟨h.balanced, h.quotes, h.ends⟩, fun h => ⟨h.1, h.2.1, h.2.2⟩⟩

instance (opening closing : Char) (text : List Char) : Decidable (Enclosed opening closing text) :=
  decidable_of_iff _ enclosed_iff.symm

/-- The shortest beginning of a text that satisfies `P`. -/
structure Shortest (P : List Char → Prop) (text span : List Char) : Prop where
  isPrefix : span <+: text
  holds : P span
  least : ∀ start, start <+: text → P start → span.length ≤ start.length

namespace Shortest

variable {P Q : List Char → Prop} {text span : List Char}

/-- One character is the shortest beginning if it satisfies what the empty text does not. -/
theorem single {ch : Char} (hnil : ¬ Q []) (h : Q [ch]) : Shortest Q (ch :: text) [ch] where
  isPrefix := ⟨text, rfl⟩
  holds := h
  least := by
    intro start _ hstart
    apply List.length_pos_iff.2
    rintro rfl
    exact hnil hstart

/-- A character in front of a text is one in front of its shortest beginning, if it passes the
    condition on. -/
theorem cons {ch : Char} (hnil : ¬ Q []) (hcons : ∀ start, Q (ch :: start) ↔ P start)
    (h : Shortest P text span) : Shortest Q (ch :: text) (ch :: span) where
  isPrefix := (List.prefix_cons_inj ch).2 h.isPrefix
  holds := (hcons span).2 h.holds
  least := by
    intro start hbegins hstart
    cases start with
    | nil => exact absurd hstart hnil
    | cons first start =>
      obtain ⟨rfl, hrest⟩ := List.cons_prefix_cons.1 hbegins
      exact Nat.succ_le_succ (h.least start hrest ((hcons start).1 hstart))

/-- There is at most one shortest beginning. -/
theorem eq {other : List Char} (h : Shortest P text span) (h' : Shortest P text other) :
    span = other := by
  have hle := h.least other h'.isPrefix h'.holds
  have hge := h'.least span h.isPrefix h.holds
  exact (List.prefix_of_prefix_length_le h.isPrefix h'.isPrefix hle).eq_of_length_le hge

/-- What follows the shortest beginning makes no difference. -/
theorem of_isPrefix {other : List Char} (h : Shortest P text span) (hbegins : span <+: other) :
    Shortest P other span where
  isPrefix := hbegins
  holds := h.holds
  least := by
    intro start hstart hP
    by_contra hshorter
    have hle : start.length ≤ span.length := by omega
    have hinside : start <+: span := List.prefix_of_prefix_length_le hstart hbegins hle
    exact hshorter (h.least start (hinside.trans h.isPrefix) hP)

end Shortest

/-- Read with `quote` open and `depth` brackets open, a text closes all of these brackets, and ends
    outside quoted strings in a closing bracket. -/
structure Settles (opening closing : Char) (quote : Option Char) (depth : Nat)
    (text : List Char) : Prop where
  count : (unquotedFrom quote text).count closing =
    (unquotedFrom quote text).count opening + depth
  quotes : quoteAfter quote text = none
  ends : text.getLast? = some closing

namespace Settles

variable {opening closing : Char} {quote : Option Char} {depth : Nat}

theorem iff_enclosed {text : List Char} :
    Settles opening closing none 0 text ↔ Enclosed opening closing text :=
  ⟨fun h => ⟨h.count, h.quotes, h.ends⟩, fun h => ⟨h.balanced, h.quotes, h.ends⟩⟩

/-- The empty text does not end in a closing bracket. -/
theorem not_nil : ¬ Settles opening closing quote depth [] := by
  intro h
  have hends := h.ends
  contradiction

/-- The closing bracket by itself settles one that is open. -/
theorem closing_single (hclosing : isQuoteMark closing = false) (hne : closing ≠ opening) :
    Settles opening closing none 1 [closing] where
  count := by
    have hshown : unquotedFrom none [closing] = [closing] := unquoted_cons hclosing []
    rw [hshown, List.count_singleton_self, List.count_eq_zero.2 (by simpa using hne.symm)]
  quotes := (quotesClosed_cons hclosing).2 rfl
  ends := rfl

/-- A character after which a bracket is open is not the last one. -/
theorem cons_iff {ch : Char} {depth' : Nat} (hdepth : 0 < depth')
    (hcount : depth + (shown quote ch).count opening = depth' + (shown quote ch).count closing)
    (text : List Char) :
    Settles opening closing quote depth (ch :: text) ↔
      Settles opening closing (quoteStep quote ch) depth' text := by
  have hunquoted : unquotedFrom quote (ch :: text) =
      shown quote ch ++ unquotedFrom (quoteStep quote ch) text := rfl
  constructor
  · intro h
    have hclosed := h.count
    rw [hunquoted, List.count_append, List.count_append] at hclosed
    refine ⟨by omega, h.quotes, ?_⟩
    cases text with
    | nil =>
      -- Nothing is left to close the brackets that are still open.
      have hnone : unquotedFrom (quoteStep quote ch) [] = [] := rfl
      rw [hnone] at hclosed
      simp only [List.count_nil] at hclosed
      omega
    | cons next text => exact List.getLast?_cons_cons.symm.trans h.ends
  · intro h
    refine ⟨?_, h.quotes, ?_⟩
    · have hclosed := h.count
      rw [hunquoted, List.count_append, List.count_append]
      omega
    · cases text with
      | nil => exact absurd h not_nil
      | cons next text => exact List.getLast?_cons_cons.trans h.ends

end Settles

/-- What a search for the end of a span finds in a text, with `quote` and `depth` brackets open: the
    length of the shortest beginning that settles them, or what is open at the end. -/
inductive SpanFound (opening closing : Char) (quote : Option Char) (depth : Nat)
    (text : List Char) : Except OpenSpan Nat → Prop where
  | ok {span : List Char} (h : Shortest (Settles opening closing quote depth) text span) :
      SpanFound opening closing quote depth text (.ok span.length)
  | error (h : ∀ start, start <+: text → ¬ Settles opening closing quote depth start) :
      SpanFound opening closing quote depth text
        (.error (if quoteAfter quote text = none then .bracket else .quote))

/-- One more character in front of a text, after which a bracket is open. -/
theorem SpanFound.cons {opening closing ch : Char} {quote : Option Char} {depth depth' : Nat}
    {text : List Char} {result : Except OpenSpan Nat} (hdepth : 0 < depth')
    (hcount : depth + (shown quote ch).count opening = depth' + (shown quote ch).count closing)
    (h : SpanFound opening closing (quoteStep quote ch) depth' text result) :
    SpanFound opening closing quote depth (ch :: text) (result.map (· + 1)) := by
  have hcons : ∀ start, Settles opening closing quote depth (ch :: start) ↔
      Settles opening closing (quoteStep quote ch) depth' start :=
    Settles.cons_iff hdepth hcount
  cases h with
  | ok hspan => exact .ok (hspan.cons Settles.not_nil hcons)
  | error hnone =>
    apply SpanFound.error
    intro start hbegins hstart
    cases start with
    | nil => exact Settles.not_nil hstart
    | cons first start =>
      obtain ⟨rfl, hrest⟩ := List.cons_prefix_cons.1 hbegins
      exact hnone start hrest ((hcons start).1 hstart)

namespace Cursor

section Enclosed

variable {opening closing : Char}

/-- While a bracket is open, the search finds the shortest beginning that closes it. The induction
    is on the text; every character but the last one leaves a bracket open. -/
theorem spanFound_spanLength (hne : closing ≠ opening) (hclosing : isQuoteMark closing = false)
    (quote : Option Char) {depth : Nat} (hdepth : 0 < depth) (text : List Char) :
    SpanFound opening closing quote depth text (spanLength opening closing quote depth text) := by
  induction text generalizing quote depth with
  | nil =>
    have hnone : ∀ start, start <+: [] → ¬ Settles opening closing quote depth start := by
      intro start hbegins
      rw [List.prefix_nil.1 hbegins]
      exact Settles.not_nil
    cases quote with
    | none => exact .error hnone
    | some mark => exact .error hnone
  | cons ch text ih =>
    obtain ⟨next, hstep, hlength⟩ := exists_scanStep opening closing quote depth ch
    rw [hlength]
    cases next with
    | none =>
      cases hstep with
      | last _ _ hlast hdepth =>
        subst hlast hdepth
        exact .ok (.single Settles.not_nil (.closing_single hclosing hne))
    | some next =>
      obtain ⟨quote', depth'⟩ := next
      obtain rfl : quote' = quoteStep quote ch := hstep.eq_quoteStep
      have hdepth' : 0 < depth' := hstep.depth_pos hdepth
      exact (ih (quoteStep quote ch) hdepth').cons hdepth' (hstep.count hne hdepth)

/-- From an opening bracket on, the search finds the shortest beginning that closes it. -/
theorem spanFound_opening (hne : closing ≠ opening) (hopening : isQuoteMark opening = false)
    (hclosing : isQuoteMark closing = false) (text : List Char) :
    SpanFound opening closing none 0 (opening :: text)
      (spanLength opening closing none 0 (opening :: text)) := by
  have hstep : quoteStep none opening = none := by simp [quoteStep, hopening]
  have hshown : shown none opening = [opening] := if_pos ⟨rfl, hopening⟩
  have hcount : 0 + (shown none opening).count opening =
      1 + (shown none opening).count closing := by
    rw [hshown, List.count_singleton_self, List.count_eq_zero.2 (by simpa using hne)]
  rw [spanLength_opening hopening]
  apply SpanFound.cons Nat.one_pos hcount
  rw [hstep]
  exact spanFound_spanLength hne hclosing none Nat.one_pos text

/-- What is read from an opening bracket on: the shortest beginning of the text ahead that is
    enclosed, or why there is none. -/
theorem takeEnclosed_cases (hne : closing ≠ opening) (hopening : isQuoteMark opening = false)
    (hclosing : isQuoteMark closing = false) {c : Cursor} (hcurrent : c.current? = some opening) :
    (∃ span, Shortest (Enclosed opening closing) c.rest span ∧
      c.takeEnclosed opening closing = (.ok span, c.advance span.length)) ∨
    (∀ start, start <+: c.rest → ¬ Enclosed opening closing start) ∧
      c.takeEnclosed opening closing =
        (.error (if QuotesClosed c.rest then .bracket else .quote),
          { c with position := c.input.length }) := by
  obtain ⟨text, htext⟩ := List.head?_eq_some_iff.1 ((current?_eq_head?_rest c).symm.trans hcurrent)
  have hfound := spanFound_opening hne hopening hclosing text
  have hsettles : Settles opening closing none 0 = Enclosed opening closing :=
    funext fun _ => propext Settles.iff_enclosed
  rw [← htext] at hfound
  generalize hresult : spanLength opening closing none 0 c.rest = result at hfound
  cases hfound with
  | @ok span hspan =>
    rw [hsettles] at hspan
    refine .inl ⟨span, hspan, takeEnclosed_eq_ok.2 ⟨hcurrent, span.length, hresult, ?_, rfl⟩⟩
    exact List.prefix_iff_eq_take.1 hspan.isPrefix
  | error hnone =>
    rw [hsettles] at hnone
    exact .inr ⟨hnone, takeEnclosed_eq_error.2 (.inr ⟨hcurrent, hresult, rfl⟩)⟩

/-- A span is read exactly if it is the shortest one, of which there is one at most. -/
theorem takeEnclosed_eq_ok_iff (hne : closing ≠ opening) (hopening : isQuoteMark opening = false)
    (hclosing : isQuoteMark closing = false) {c d : Cursor} {span : List Char}
    (hcurrent : c.current? = some opening) :
    c.takeEnclosed opening closing = (.ok span, d) ↔
      Shortest (Enclosed opening closing) c.rest span ∧ d = c.advance span.length := by
  rcases takeEnclosed_cases hne hopening hclosing hcurrent with
    ⟨shortest, hshortest, hread⟩ | ⟨hnone, hread⟩
  · rw [hread, Prod.mk.injEq, Except.ok.injEq]
    constructor
    · rintro ⟨rfl, rfl⟩
      exact ⟨hshortest, rfl⟩
    · rintro ⟨hspan, rfl⟩
      obtain rfl := hshortest.eq hspan
      exact ⟨rfl, rfl⟩
  · rw [hread]
    constructor
    · intro h
      simp at h
    · rintro ⟨hspan, -⟩
      exact absurd hspan.holds (hnone span hspan.isPrefix)

/-- A shortest span begins with the bracket under the cursor. -/
theorem current?_of_shortest {c e : Cursor} {span : List Char}
    (h : Shortest (Enclosed opening closing) c.rest span) (hbegins : span <+: e.rest) :
    e.current? = c.current? := by
  cases span with
  | nil =>
    have hends := h.holds.ends
    contradiction
  | cons first inner =>
    obtain ⟨after, hafter⟩ := h.isPrefix
    obtain ⟨after', hafter'⟩ := hbegins
    rw [current?_of_rest hafter.symm, current?_of_rest hafter'.symm]

end Enclosed

/-- Reading from an opening bracket on succeeds exactly if some beginning of the text ahead is
    enclosed. It returns the shortest one and stops right after it, whatever follows there. Without
    one, the cursor is left at the end, and the fault tells whether that lies inside quotes. -/
theorem takeEnclosed_shortest (opening closing : Char) (hne : opening ≠ closing)
    (hopening : isQuoteMark opening = false) (hclosing : isQuoteMark closing = false) (c : Cursor)
    (hcurrent : c.current? = some opening) :
    ((∃ span d, c.takeEnclosed opening closing = (.ok span, d)) ↔
      ∃ start, start <+: c.rest ∧ Enclosed opening closing start) ∧
    (∀ span d, c.takeEnclosed opening closing = (.ok span, d) ↔
      Shortest (Enclosed opening closing) c.rest span ∧ d = c.advance span.length) ∧
    (∀ span d, c.takeEnclosed opening closing = (.ok span, d) → ∀ e : Cursor, span <+: e.rest →
      e.takeEnclosed opening closing = (.ok span, e.advance span.length)) ∧
    ((¬ ∃ start, start <+: c.rest ∧ Enclosed opening closing start) →
      c.takeEnclosed opening closing =
        (.error (if QuotesClosed c.rest then .bracket else .quote),
          { c with position := c.input.length })) := by
  have hiff {e d : Cursor} {span : List Char} (he : e.current? = some opening) :
      e.takeEnclosed opening closing = (.ok span, d) ↔
        Shortest (Enclosed opening closing) e.rest span ∧ d = e.advance span.length :=
    takeEnclosed_eq_ok_iff hne.symm hopening hclosing he
  have hcases := takeEnclosed_cases hne.symm hopening hclosing hcurrent
  refine ⟨⟨?_, ?_⟩, fun span d => hiff hcurrent, ?_, ?_⟩
  · rintro ⟨span, d, hread⟩
    obtain ⟨hspan, -⟩ := (hiff hcurrent).1 hread
    exact ⟨span, hspan.isPrefix, hspan.holds⟩
  · rintro ⟨start, hbegins, hstart⟩
    rcases hcases with ⟨span, -, hread⟩ | ⟨hnone, -⟩
    · exact ⟨span, _, hread⟩
    · exact absurd hstart (hnone start hbegins)
  · intro span d hread e hbegins
    obtain ⟨hspan, -⟩ := (hiff hcurrent).1 hread
    have he := (current?_of_shortest hspan hbegins).trans hcurrent
    exact (hiff he).2 ⟨hspan.of_isPrefix hbegins, rfl⟩
  · intro hnone
    rcases hcases with ⟨span, hspan, -⟩ | ⟨-, hread⟩
    · exact absurd ⟨span, hspan.isPrefix, hspan.holds⟩ hnone
    · exact hread

/-- Parentheses with a quoted one between them, and parentheses in which a quote is left open. -/
theorem takeEnclosed_shortest_parentheses :
    let c : Cursor := ⟨"f(a, ')', (b)) + (c)".toList, 1⟩
    let d : Cursor := ⟨"f((a), ')".toList, 1⟩
    c.current? = some '(' ∧ d.current? = some '(' ∧
      Shortest (Enclosed '(' ')') c.rest "(a, ')', (b))".toList ∧
      (∀ text, (Cursor.start ("(a, ')', (b))".toList ++ text)).takeEnclosed '(' ')' =
        (.ok "(a, ')', (b))".toList, ⟨"(a, ')', (b))".toList ++ text, 13⟩)) ∧
      (¬ ∃ start, start <+: d.rest ∧ Enclosed '(' ')' start) ∧
      d.takeEnclosed '(' ')' = (.error .quote, ⟨d.input, 9⟩) := by
  intro c d
  have hc := takeEnclosed_shortest '(' ')' (by decide) (by decide) (by decide) c (by decide +kernel)
  have hd := takeEnclosed_shortest '(' ')' (by decide) (by decide) (by decide) d (by decide +kernel)
  have hread : c.takeEnclosed '(' ')' = (.ok "(a, ')', (b))".toList, ⟨c.input, 14⟩) := by
    decide +kernel
  have hfault : d.takeEnclosed '(' ')' = (.error .quote, ⟨d.input, 9⟩) := by decide +kernel
  refine ⟨by decide +kernel, by decide +kernel, ((hc.2.1 _ _).1 hread).1, ?_, ?_, hfault⟩
  · intro text
    exact hc.2.2.1 _ _ hread _ ⟨text, rfl⟩
  · rw [← hd.1, hfault]
    simp

end Cursor
end FindSelect.Text
