import FindSelect.Find.Call
import FindSelect.Proofs.Document.Concatenation
import FindSelect.Proofs.Document.Rewriting
import FindSelect.Proofs.Document.Stepwise

namespace FindSelect

open Text

namespace SyntaxError

/-- The text that an error carries, if it carries one. -/
def text? : SyntaxError → Option String
  | .openQuote text | .unbalancedList text | .unbalancedBraces text | .malformedArguments text
  | .openOperators text | .openDocument text | .valueBeforeKey text | .malformedScalar text =>
    some text
  | .invalidCall _ | .overrun => none

/-- A text is refused with the error when it is read by itself, as what it is in a call. -/
inductive Refuses (e : SyntaxError) (text : List Char) : Prop where
  | scalar (h : readScalar text = .error e)
  | values (h : readValues text = .error e)
  | operators (h : readOperators text = .error e)
  | conditions (h : readConditions text = .error e)
  | document (h : readDocument text = .error e)
  | arguments (h : FindCall.queryAndProjection text = .error e)

/-- The text that an error carries stands in `text` in one piece, and it is refused with the same
    error when it is read by itself. -/
def PointsInto (e : SyntaxError) (text : List Char) : Prop :=
  ∃ part, e.text? = some (String.ofList part) ∧ part <:+: text ∧ e.Refuses part

/-- An error that points into a part of a text points into the text. -/
theorem PointsInto.mono {e : SyntaxError} {part text : List Char} (h : e.PointsInto part)
    (hpart : part <:+: text) : e.PointsInto text := by
  obtain ⟨carried, htext, hcarried, hrefuses⟩ := h
  exact ⟨carried, htext, hcarried.trans hpart, hrefuses⟩

/-- An error that carries the whole text, less the white space around it. -/
theorem pointsInto_of_trim {e : SyntaxError} {text : List Char}
    (htext : e.text? = some (String.ofList (trim text))) (h : e.Refuses (trim text)) :
    e.PointsInto text :=
  ⟨trim text, htext, trim_isInfix text, h⟩

end SyntaxError

namespace Text.Cursor

theorem rest_skipGap_suffix (c : Cursor) : c.skipGap.rest <:+ c.rest :=
  (movesOver_skipWhile isSeparator c).suffix

end Text.Cursor

/-- If every step of a loop cuts its pieces from the text ahead, so does the loop. -/
theorem CutLoop.exists_infix_of_mem {α : Type} {R : α → List Char → Prop}
    {step : Cursor → Except CutFault (List α × Cursor)} {loop : Cursor → Cut α}
    (h : CutLoop step loop)
    (hstep : ∀ c d pieces, c.atEnd = false → step c = .ok (pieces, d) →
      d.rest <:+ c.rest ∧ ∀ piece ∈ pieces, ∃ t, R piece t ∧ t <:+: c.rest) (n : Nat) :
    ∀ c : Cursor, c.remaining < n →
      ∀ piece ∈ (loop c).pieces, ∃ t, R piece t ∧ t <:+: c.rest := by
  induction n with
  | zero =>
    intro c hlength
    omega
  | succ n ih =>
    intro c hlength piece hpiece
    have hgap := c.rest_skipGap_suffix
    cases hend : c.skipGap.atEnd with
    | true =>
      rw [h.done c hend] at hpiece
      contradiction
    | false =>
      cases hcut : step c.skipGap with
      | error fault =>
        rw [h.stopped c fault hend hcut] at hpiece
        contradiction
      | ok result =>
        obtain ⟨pieces, d⟩ := result
        obtain ⟨hlt, hloop⟩ := h.next c d pieces hend hcut
        obtain ⟨hrest, hpieces⟩ := hstep c.skipGap d pieces hend hcut
        rw [hloop] at hpiece
        rcases List.mem_append.1 hpiece with hpiece | hpiece
        · obtain ⟨t, hpiece, ht⟩ := hpieces piece hpiece
          exact ⟨t, hpiece, ht.trans hgap.isInfix⟩
        · obtain ⟨t, hpiece, ht⟩ := ih d (by omega) piece hpiece
          exact ⟨t, hpiece, ht.trans (hrest.trans hgap).isInfix⟩

/-- The value of an entry stands in the text that is cut. -/
theorem stands_of_mem_cutEntries (kind : Mapping) (inner : List Char) :
    ∀ entry ∈ (cutEntries kind (.start inner)).pieces,
      ∃ t, entry.2.Stands t ∧ t <:+: inner := by
  refine (cutLoop_cutEntries kind).exists_infix_of_mem ?_ _ (.start inner) (Nat.lt_succ_self _)
  intro c d pieces _ hcut
  obtain ⟨⟨entry, e⟩, hentry, hpair⟩ := map_eq_ok.1 hcut
  obtain ⟨rfl, rfl⟩ := Prod.mk.inj hpair
  obtain ⟨key, -, gap, value, hover, -, -, hstands, -⟩ :=
    exists_of_cutEntry hentry id fun _ text => text
  refine ⟨hover.suffix, ?_⟩
  intro other hother
  obtain rfl := List.mem_singleton.1 hother
  refine ⟨value, hstands, hover.isInfix ?_⟩
  exact ((List.suffix_append gap value).trans (List.suffix_append key _)).isInfix

/-- An item stands in the text that is cut. -/
theorem stands_of_mem_cutItems (inner : List Char) :
    ∀ piece ∈ (cutItems (.start inner)).pieces, ∃ t, piece.Stands t ∧ t <:+: inner := by
  refine cutLoop_cutItems.exists_infix_of_mem ?_ _ (.start inner) (Nat.lt_succ_self _)
  intro c d pieces _ hcut
  obtain ⟨⟨piece, e⟩, hitem, hpair⟩ := map_eq_ok.1 hcut
  obtain ⟨rfl, rfl⟩ := Prod.mk.inj hpair
  obtain ⟨t, hstands, hover⟩ := stands_of_cutItem hitem
  refine ⟨hover.suffix, ?_⟩
  intro other hother
  obtain rfl := List.mem_singleton.1 hother
  exact ⟨t, hstands, hover.isInfix (List.infix_refl t)⟩

/-- The span of a document stands in the text that is cut. -/
theorem infix_of_mem_cutConditions (inner : List Char) :
    ∀ span ∈ (cutConditions (.start inner)).pieces, ∃ t, t = span ∧ t <:+: inner := by
  refine cutLoop_cutConditions.exists_infix_of_mem ?_ _ (.start inner) (Nat.lt_succ_self _)
  intro c d pieces _ hcut
  rcases cutCondition_eq_ok hcut with ⟨span, rfl, hread⟩ | ⟨contents, rfl, -, hread⟩ | ⟨rfl, -, rfl⟩
  · have hover := Cursor.movesOver_takeEnclosed hread
    refine ⟨hover.suffix, ?_⟩
    intro other hother
    obtain rfl := List.mem_singleton.1 hother
    exact ⟨other, rfl, hover.isInfix (List.infix_refl other)⟩
  · obtain ⟨mark, -, -, hover⟩ := Cursor.movesOver_takeQuoted hread
    exact ⟨hover.suffix, by simp⟩
  · rw [Cursor.rest_advance]
    exact ⟨List.drop_suffix 1 _, by simp⟩

/-- An error for a fault in a mapping carries the text of the mapping, unless the end was passed. -/
theorem Mapping.text?_ofFault (kind : Mapping) (text : List Char) {fault : CutFault}
    (h : kind.ofFault text fault ≠ .overrun) :
    (kind.ofFault text fault).text? = some (String.ofList text) := by
  cases fault with
  | overrun => exact absurd rfl h
  | emptyKey => rfl
  | _ => cases kind <;> rfl

theorem text?_itemsFault (text : List Char) {fault : CutFault}
    (h : itemsFault text fault ≠ .overrun) :
    (itemsFault text fault).text? = some (String.ofList text) := by
  cases fault with
  | overrun => exact absurd rfl h
  | _ => rfl

/-- An error for a fault in a list of documents carries the text of the list, unless the end was
    passed. -/
theorem text?_conditionsFault (text : List Char) {fault : CutFault}
    (h : conditionsFault text fault ≠ .overrun) :
    (conditionsFault text fault).text? = some (String.ofList text) := by
  cases fault with
  | overrun => exact absurd rfl h
  | unclosed span => cases span <;> rfl
  | _ => rfl

section Readers

variable {text : List Char} {e : SyntaxError}

/-- What is read between brackets is refused with an error that points into the text, if the
    errors of its pieces do and those of its faults carry the text. -/
theorem pointsInto_of_readAll {α β : Type} {opening closing : Char} {inner : List Char}
    {cut : Cut α} {ofFault : CutFault → SyntaxError} {f : α → Except SyntaxError β}
    (hunwrap : unwrap? opening closing (trim text) = some inner) (hne : e ≠ .overrun)
    (hrefuses : e.Refuses (trim text))
    (hfault : ∀ fault, ofFault fault ≠ .overrun →
      (ofFault fault).text? = some (String.ofList (trim text)))
    (hpiece : ∀ piece ∈ cut.pieces, f piece = .error e → e.PointsInto inner)
    (h : cut.readAll ofFault f = .error e) : e.PointsInto text := by
  rcases Cut.readAll_eq_error h with ⟨piece, hmem, hread⟩ | ⟨⟨fault, -, rfl⟩, -⟩
  · have hinner := (infix_of_unwrap? hunwrap).trans (trim_isInfix text)
    exact (hpiece piece hmem hread).mono hinner
  · exact SyntaxError.pointsInto_of_trim (hfault fault hne) hrefuses

/-- What a token is refused with points into it. -/
theorem pointsInto_of_readScalar (h : readScalar text = .error e) : e.PointsInto text := by
  apply SyntaxError.pointsInto_of_trim
  · rw [eq_malformed_of_readScalar h]
    rfl
  · exact .scalar (by rw [readScalar_trim, h])

/-- A document is no scalar. -/
theorem readScalar_braced (inner : List Char) :
    readScalar ('{' :: inner ++ ['}']) =
      .error (.malformedScalar (String.ofList ('{' :: inner ++ ['}']))) := by
  cases h : readScalar ('{' :: inner ++ ['}']) with
  | ok value =>
    have hbrace : '{' ∈ trim ('{' :: inner ++ ['}']) := by
      rw [trim_brackets braces]
      exact List.mem_cons_self
    obtain ⟨-, -, hbracket, -⟩ := isTokenChar_spec (isTokenChar_of_readScalar h '{' hbrace)
    contradiction
  | error e => rw [eq_malformed_of_readScalar h, trim_brackets braces]

/-- What an item is refused with points into the text that it was cut from. -/
theorem pointsInto_of_readItem {piece : Piece} (hstands : piece.Stands text)
    (h : readItem piece = .error e) : e.PointsInto text := by
  cases hstands with
  | quoted => contradiction
  | _ => exact pointsInto_of_readScalar h

/-- What a list of primitives is refused with points into it. -/
theorem pointsInto_of_readValues (hne : e ≠ .overrun) (h : readValues text = .error e) :
    e.PointsInto text := by
  have hrefuses : e.Refuses (trim text) := .values (by rw [readValues_trim, h])
  cases hunwrap : unwrap? '[' ']' (trim text) with
  | none =>
    rw [readValues_of_not_unwrap hunwrap] at h
    obtain rfl := Except.error.inj h
    exact SyntaxError.pointsInto_of_trim rfl hrefuses
  | some inner =>
    rw [readValues_of_unwrap hunwrap] at h
    refine pointsInto_of_readAll hunwrap hne hrefuses (fun _ => text?_itemsFault _) ?_ h
    intro piece hpiece hread
    obtain ⟨t, hstands, ht⟩ := stands_of_mem_cutItems inner piece hpiece
    exact (pointsInto_of_readItem hstands hread).mono ht

/-- What a mapping is refused with points into it, if this is so of its values. -/
theorem pointsInto_of_readMap {kind : Mapping} {read : Piece → Except SyntaxError Value}
    (hne : e ≠ .overrun) (hrefuses : e.Refuses (trim text))
    (hvalue : ∀ piece t, piece.Stands t → t.length < text.length → read piece = .error e →
      e.PointsInto t)
    (h : readMap kind text (fun piece _ => read piece) = .error e) : e.PointsInto text := by
  cases hunwrap : unwrap? '{' '}' (trim text) with
  | none =>
    rw [readMap_of_not_unwrap hunwrap] at h
    obtain rfl := Except.error.inj h
    exact SyntaxError.pointsInto_of_trim (by cases kind <;> rfl) hrefuses
  | some inner =>
    rw [readMap_of_unwrap hunwrap, map_eq_error] at h
    refine pointsInto_of_readAll hunwrap hne hrefuses (fun _ => kind.text?_ofFault _) ?_ h
    intro entry hentry hread
    obtain ⟨t, hstands, ht⟩ := stands_of_mem_cutEntries kind inner entry hentry
    have hshort : t.length < text.length := lt_length_of_unwrap? hunwrap ht.length_le
    rcases bind_eq_error.1 hread with hread | ⟨value, -, hread⟩
    · exact (hvalue entry.2 t hstands hshort hread).mono ht
    · contradiction

/-- What the value of an operator is refused with points into the text that it was cut from. -/
theorem pointsInto_of_readOperatorValue {piece : Piece} (hne : e ≠ .overrun)
    (hstands : piece.Stands text) (h : readOperatorValue piece = .error e) :
    e.PointsInto text := by
  cases hstands with
  | quoted => contradiction
  | braced inner =>
    obtain rfl := Except.error.inj h
    exact ⟨_, rfl, List.infix_refl _, .scalar (readScalar_braced inner)⟩
  | bracketed => exact pointsInto_of_readValues hne (map_eq_error.1 h)
  | bare => exact pointsInto_of_readScalar h

theorem pointsInto_of_readOperators (hne : e ≠ .overrun) (h : readOperators text = .error e) :
    e.PointsInto text := by
  have hrefuses : e.Refuses (trim text) := .operators (by rw [readOperators_trim, h])
  rw [readOperators] at h
  refine pointsInto_of_readMap hne hrefuses ?_ h
  intro piece t hstands _ hread
  exact pointsInto_of_readOperatorValue hne hstands hread

/-- What a list of documents is refused with points into it, if this is so of its documents. -/
theorem pointsInto_of_readConditions (hne : e ≠ .overrun)
    (hdocument : ∀ span, span.length < text.length → readDocument span = .error e →
      e.PointsInto span)
    (h : readConditions text = .error e) : e.PointsInto text := by
  have hrefuses : e.Refuses (trim text) := .conditions (by rw [readConditions_trim, h])
  cases hunwrap : unwrap? '[' ']' (trim text) with
  | none =>
    rw [readConditions_of_not_unwrap hunwrap] at h
    obtain rfl := Except.error.inj h
    exact SyntaxError.pointsInto_of_trim rfl hrefuses
  | some inner =>
    rw [readConditions_of_unwrap hunwrap] at h
    refine pointsInto_of_readAll hunwrap hne hrefuses (fun _ => text?_conditionsFault _) ?_ h
    intro span hspan hread
    obtain ⟨t, rfl, ht⟩ := infix_of_mem_cutConditions inner span hspan
    have hshort : t.length < text.length := lt_length_of_unwrap? hunwrap ht.length_le
    exact (hdocument t hshort hread).mono ht

end Readers

/-- What a document is refused with points into it, however deep the fault. The induction is on
    the length of the text, through the lists of documents in it. -/
theorem pointsInto_of_readDocument {e : SyntaxError} (hne : e ≠ .overrun) (n : Nat) :
    ∀ text : List Char, text.length < n → readDocument text = .error e → e.PointsInto text := by
  induction n with
  | zero =>
    intro text hlength
    omega
  | succ n ih =>
    intro text hlength h
    have hrefuses : e.Refuses (trim text) := .document (by rw [readDocument_trim, h])
    rw [readDocument_eq] at h
    split at h
    · contradiction
    refine pointsInto_of_readMap hne hrefuses ?_ h
    intro piece t hstands hshort hread
    cases hstands with
    | quoted => contradiction
    | braced inner => exact pointsInto_of_readOperators hne (map_eq_error.1 hread)
    | bracketed =>
      refine pointsInto_of_readConditions hne ?_ (map_eq_error.1 hread)
      intro span hspan hdocument
      exact ih span (by omega) hdocument
    | bare => exact pointsInto_of_readScalar hread

end FindSelect
