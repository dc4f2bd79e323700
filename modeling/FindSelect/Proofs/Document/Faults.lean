import FindSelect.Proofs.Document.Reader
import FindSelect.Proofs.Document.Scalar
import FindSelect.Proofs.Text.Quotes

namespace FindSelect

open Text

/-- A quote never stands in a bare token that is a scalar. -/
theorem quotesClosed_of_readScalar {token : List Char} {value : Value}
    (h : readScalar token = .ok value) : QuotesClosed token := by
  apply quotesClosed_of_forall
  intro c hc
  by_cases hblank : isBlank c = true
  · exact isQuoteMark_eq_false_of_isSeparator (isSeparator_of_isBlank hblank)
  · have htrim := mem_trim hc (Bool.eq_false_iff.2 hblank)
    obtain ⟨-, hquote, -⟩ := isTokenChar_spec (isTokenChar_of_readScalar h c htrim)
    exact hquote

/-- A token and the text that it leaves make up the text ahead. -/
theorem rest_of_cutToken {stops token : List Char} {c d : Cursor}
    (h : cutToken stops c = .ok (token, d)) : c.rest = token ++ d.rest := by
  obtain ⟨rfl, rfl⟩ := run_of_cutToken h
  rw [Cursor.rest_skipWhile, List.takeWhile_append_dropWhile]

/-- A token cannot be read only past the end of the text. -/
theorem eq_overrun_of_cutToken {stops : List Char} {c : Cursor} {fault : CutFault}
    (h : cutToken stops c = .error fault) : fault = .overrun := by
  unfold cutToken at h
  split at h
  · contradiction
  · exact (Except.error.inj h).symm

section Closed

variable {c d : Cursor}

/-- In a text without open quotes an item can be cut off unless the end is passed. -/
theorem eq_overrun_of_cutItem {fault : CutFault} (hclosed : QuotesClosed c.rest)
    (h : cutItem c = .error fault) : fault = .overrun := by
  unfold cutItem at h
  split at h
  · rename_i hquote
    obtain ⟨contents, e, hread, -⟩ := Cursor.exists_of_quotesClosed hclosed hquote
    rw [hread] at h
    contradiction
  · exact eq_overrun_of_cutToken (map_eq_error.1 h)

/-- After an item that is a primitive no quote is open. -/
theorem quotesClosed_of_cutItem {piece : Piece} {value : Value} (hclosed : QuotesClosed c.rest)
    (h : cutItem c = .ok (piece, d)) (hread : readItem piece = .ok value) :
    QuotesClosed d.rest := by
  rcases cutItem_eq_ok h with ⟨contents, rfl, hquote, htake⟩ | ⟨token, rfl, -, htoken⟩
  · obtain ⟨contents', e, htake', hrest⟩ := Cursor.exists_of_quotesClosed hclosed hquote
    obtain ⟨-, rfl⟩ := Prod.mk.inj (htake.symm.trans htake')
    exact hrest
  · rw [rest_of_cutToken htoken] at hclosed
    exact (quotesClosed_of_readScalar hread).append_iff.1 hclosed

end Closed

/-- Where no quote is left open, a span that does not end has a bracket open. -/
theorem eq_bracket_of_closed {opening closing : Char} {c : Cursor} {fault : CutFault}
    (hclosed : QuotesClosed c.rest) (h : closed (c.takeEnclosed opening closing) = .error fault) :
    fault = .unclosed .bracket := by
  cases hread : c.takeEnclosed opening closing with
  | mk result d =>
    rw [hread] at h
    cases result with
    | ok span => contradiction
    | error span =>
      obtain rfl := Cursor.eq_bracket_of_takeEnclosed hclosed hread
      exact (Except.error.inj h).symm

/-- If every item of a text without open quotes is a primitive, the cutting never stops at
    a quote. -/
theorem fault_cutItems (c : Cursor) (hclosed : QuotesClosed c.rest)
    (hread : ∀ piece ∈ (cutItems c).pieces, ∃ value, readItem piece = .ok value) :
    ∀ fault ∈ (cutItems c).fault, fault = .overrun := by
  fun_induction cutItems c with
  | case1 => simp [Cut.done]
  | case2 c hend fault h =>
    have hfault := eq_overrun_of_cutItem (Cursor.quotesClosed_skipGap hclosed) h
    simp [Cut.stopped, hfault]
  | case3 c hend piece next h hlt ih =>
    obtain ⟨value, hvalue⟩ := hread piece List.mem_cons_self
    refine ih (quotesClosed_of_cutItem (Cursor.quotesClosed_skipGap hclosed) h hvalue) ?_
    intro other hother
    exact hread other (List.mem_cons_of_mem piece hother)

/-- In a text without open quotes a step through a list of documents fails at most at a brace. -/
theorem eq_bracket_of_cutCondition {c : Cursor} {fault : CutFault} (hclosed : QuotesClosed c.rest)
    (h : cutCondition c = .error fault) : fault = .unclosed .bracket := by
  unfold cutCondition at h
  split at h
  · exact eq_bracket_of_closed hclosed (map_eq_error.1 h)
  split at h
  · rename_i hquote
    obtain ⟨contents, d, hread, -⟩ := Cursor.exists_of_quotesClosed hclosed hquote
    rw [hread] at h
    contradiction
  · contradiction

/-- After a step through a list of documents no quote is open. -/
theorem quotesClosed_of_cutCondition {c d : Cursor} {spans : List (List Char)}
    (hclosed : QuotesClosed c.rest) (h : cutCondition c = .ok (spans, d)) :
    QuotesClosed d.rest := by
  rcases cutCondition_eq_ok h with
    ⟨span, -, hread⟩ | ⟨contents, -, hquote, hread⟩ | ⟨-, hquote, rfl⟩
  · obtain ⟨inner, rfl, hinner, hrest⟩ := Cursor.exists_of_takeEnclosed braces hread
    rw [hrest] at hclosed
    exact (hinner.enclosed braces).append_iff.1 hclosed
  · obtain ⟨contents', e, hread', hrest⟩ := Cursor.exists_of_quotesClosed hclosed hquote
    obtain ⟨-, rfl⟩ := Prod.mk.inj (hread.symm.trans hread')
    exact hrest
  · rw [Cursor.rest_advance]
    cases hrest : c.rest with
    | nil => rfl
    | cons ch text =>
      have hch : isQuoteMark ch = false := by
        rw [Cursor.current?_of_rest hrest] at hquote
        simpa using hquote
      rw [hrest] at hclosed
      exact (quotesClosed_cons hch).1 hclosed

/-- In a text without open quotes the cutting of documents stops at most at a brace. -/
theorem fault_cutConditions (c : Cursor) (hclosed : QuotesClosed c.rest) :
    ∀ fault ∈ (cutConditions c).fault, fault = .unclosed .bracket := by
  fun_induction cutConditions c with
  | case1 => simp [Cut.done]
  | case2 c hend fault h =>
    have hfault := eq_bracket_of_cutCondition (Cursor.quotesClosed_skipGap hclosed) h
    simp [Cut.stopped, hfault]
  | case3 c hend spans next h hlt ih =>
    exact ih (quotesClosed_of_cutCondition (Cursor.quotesClosed_skipGap hclosed) h)

/-- A list span as the counting of brackets delivers it, with no quote left open in it. -/
def Piece.Enclosed (piece : Piece) : Prop :=
  ∀ span, piece = .bracketed span → ∃ inner, span = '[' :: inner ++ [']'] ∧ QuotesClosed inner

/-- A list that is cut off is a span with no quote left open in it. -/
theorem enclosed_of_cutPiece {c d : Cursor} {piece : Piece} (h : cutPiece c = .ok (piece, d)) :
    piece.Enclosed := by
  rintro span rfl
  rcases cutPiece_eq_ok h with ⟨_, hspan, -⟩ | ⟨_, hspan, hread⟩ | hitem
  · contradiction
  · obtain rfl := Piece.bracketed.inj hspan
    obtain ⟨inner, hinner, hclosed, -⟩ := Cursor.exists_of_takeEnclosed squares hread
    exact ⟨inner, hinner, hclosed⟩
  · rcases cutItem_eq_ok hitem with ⟨_, hspan, -⟩ | ⟨_, hspan, -⟩
    · contradiction
    · contradiction

/-- A list that is the value of an entry is a span with no quote left open in it. -/
theorem enclosed_of_mem_cutEntries (kind : Mapping) (c : Cursor) :
    ∀ entry ∈ (cutEntries kind c).pieces, entry.2.Enclosed := by
  fun_induction cutEntries kind c with
  | case1 => simp [Cut.done]
  | case2 => simp [Cut.stopped]
  | case3 c hend entry next h hlt ih =>
    obtain ⟨_, _, -, -, -, hpiece⟩ := cutEntry_eq_ok h
    exact Cut.forall_mem_cons (enclosed_of_cutPiece hpiece) ih

namespace SyntaxError

/-- The errors of operator maps. -/
def isOfOperators : SyntaxError → Bool
  | .openOperators _ | .valueBeforeKey _ | .malformedScalar _ | .overrun => true
  | _ => false

/-- The errors of documents. -/
def isOfDocument : SyntaxError → Bool
  | .openDocument _ | .unbalancedBraces _ => true
  | e => e.isOfOperators

/-- Every error of operator maps is one of documents. -/
theorem isOfDocument_of_isOfOperators {e : SyntaxError} (h : e.isOfOperators = true) :
    e.isOfDocument = true := by
  cases e with
  | openDocument => rfl
  | unbalancedBraces => rfl
  | _ => exact h

end SyntaxError

/-- The error of a token is one of operator maps. -/
theorem isOfOperators_of_readScalar {token : List Char} {e : SyntaxError}
    (h : readScalar token = .error e) : e.isOfOperators = true := by
  rw [eq_malformed_of_readScalar h]
  rfl

/-- A list span from a mapping fails at most at an item that is no scalar. -/
theorem isOfOperators_of_readValues {inner : List Char} {e : SyntaxError}
    (hclosed : QuotesClosed inner) (h : readValues ('[' :: inner ++ [']']) = .error e) :
    e.isOfOperators = true := by
  rw [readValues_of_unwrap (unwrap?_trim_brackets squares inner)] at h
  rcases Cut.readAll_eq_error h with ⟨piece, -, hpiece⟩ | ⟨⟨fault, hfault, rfl⟩, hread⟩
  · cases piece with
    | quoted contents => contradiction
    | _ => exact isOfOperators_of_readScalar hpiece
  · obtain rfl := fault_cutItems (.start inner) hclosed hread fault hfault
    rfl

/-- What a mapping reports is the error of a value that is shorter than its text, or a fault
    of its own. -/
theorem readMap_eq_error {kind : Mapping} {text : List Char}
    {read : Piece → Except SyntaxError Value} {e : SyntaxError}
    (h : readMap kind text (fun piece _ => read piece) = .error e) :
    (∃ piece : Piece, piece.length < text.length ∧ piece.Enclosed ∧ read piece = .error e) ∨
      e = kind.unclosed (trim text) ∨ ∃ fault, e = kind.ofFault (trim text) fault := by
  cases hunwrap : unwrap? '{' '}' (trim text) with
  | none =>
    rw [readMap_of_not_unwrap hunwrap] at h
    exact .inr (.inl (Except.error.inj h).symm)
  | some inner =>
    rw [readMap_of_unwrap hunwrap, map_eq_error] at h
    rcases Cut.readAll_eq_error h with ⟨entry, hentry, hread⟩ | ⟨⟨fault, -, hfault⟩, -⟩
    · refine .inl ⟨entry.2, ?_, enclosed_of_mem_cutEntries kind _ entry hentry, ?_⟩
      · exact lt_length_of_unwrap? hunwrap (length_le_of_mem_cutEntries kind _ entry hentry)
      · rcases bind_eq_error.1 hread with hread | ⟨value, -, hvalue⟩
        · exact hread
        · contradiction
    · exact .inr (.inr ⟨fault, hfault⟩)

/-- The error of the value of an operator is one of operator maps. -/
theorem isOfOperators_of_readOperatorValue {piece : Piece} {e : SyntaxError}
    (hpiece : piece.Enclosed) (h : readOperatorValue piece = .error e) :
    e.isOfOperators = true := by
  cases piece with
  | quoted contents => contradiction
  | braced span => exact Except.error.inj h ▸ rfl
  | bracketed span =>
    obtain ⟨inner, rfl, hclosed⟩ := hpiece span rfl
    exact isOfOperators_of_readValues hclosed (map_eq_error.1 h)
  | bare token => exact isOfOperators_of_readScalar h

/-- Operator maps have no errors but their own. -/
theorem isOfOperators_of_readOperators {text : List Char} {e : SyntaxError}
    (h : readOperators text = .error e) : e.isOfOperators = true := by
  rw [readOperators] at h
  rcases readMap_eq_error h with ⟨piece, -, hpiece, hread⟩ | rfl | ⟨fault, rfl⟩
  · exact isOfOperators_of_readOperatorValue hpiece hread
  · rfl
  · cases fault <;> rfl

/-- A list span from a document fails at most in one of its documents, or at a brace. -/
theorem readConditions_eq_error {inner : List Char} {e : SyntaxError}
    (hclosed : QuotesClosed inner) (h : readConditions ('[' :: inner ++ [']']) = .error e) :
    (∃ span, span.length ≤ inner.length ∧ readDocument span = .error e) ∨
      e.isOfDocument = true := by
  rw [readConditions_of_unwrap (unwrap?_trim_brackets squares inner)] at h
  rcases Cut.readAll_eq_error h with ⟨span, hspan, hread⟩ | ⟨⟨fault, hfault, rfl⟩, -⟩
  · have hlength := length_le_of_mem_cutConditions _ span hspan
    simp only [Cursor.remaining, Cursor.start] at hlength
    exact .inl ⟨span, by omega, hread⟩
  · obtain rfl := fault_cutConditions (.start inner) hclosed fault hfault
    exact .inr rfl

/-- Documents have no errors but their own and those of operator maps. The induction is on
    the length of the text. -/
theorem isOfDocument_of_readDocument (n : Nat) : ∀ (text : List Char) (e : SyntaxError),
    text.length < n → readDocument text = .error e → e.isOfDocument = true := by
  induction n with
  | zero =>
    intro text e hlength
    omega
  | succ n ih =>
    intro text e hlength h
    rw [readDocument_eq] at h
    split at h
    · contradiction
    rcases readMap_eq_error h with ⟨piece, hshort, hpiece, hread⟩ | rfl | ⟨fault, rfl⟩
    · cases piece with
      | quoted contents => contradiction
      | braced span =>
        exact SyntaxError.isOfDocument_of_isOfOperators
          (isOfOperators_of_readOperators (map_eq_error.1 hread))
      | bracketed span =>
        obtain ⟨inner, rfl, hclosed⟩ := hpiece span rfl
        rcases readConditions_eq_error hclosed (map_eq_error.1 hread) with
          ⟨element, helement, hdocument⟩ | hfault
        · refine ih element e ?_ hdocument
          simp only [Piece.length, List.length_append, List.length_cons] at hshort
          omega
        · exact hfault
      | bare token =>
        exact SyntaxError.isOfDocument_of_isOfOperators (isOfOperators_of_readScalar hread)
    · rfl
    · cases fault <;> rfl

end FindSelect
