import FindSelect.Document.Cut
import FindSelect.Proofs.Text.Quotes

namespace FindSelect

open Text

/-- What may follow a text and leave its last token as it is: nothing, or a comma first. -/
def Follows (suffix : List Char) : Prop := ∀ c ∈ suffix.head?, c = ','

/-- What may follow a text stops every run that a comma stops. -/
theorem Follows.stopsBefore {suffix : List Char} (h : Follows suffix) {p : Char → Bool}
    (hp : p ',' = false) : StopsBefore p suffix := by
  intro c hc
  rw [h c hc]
  exact hp

/-- Two outcomes of cutting, one for a text and one for the same text with a suffix: what is
    cut off a text is cut off the longer one, which leaves the suffix over. A fault need not
    remain unless there is no suffix. -/
inductive Continued {α : Type} (suffix : List Char) :
    Except CutFault (α × Cursor) → Except CutFault (α × Cursor) → Prop where
  | ok {a : α} {d d' : Cursor} (h : d'.rest = d.rest ++ suffix) :
      Continued suffix (.ok (a, d)) (.ok (a, d'))
  | error {fault : CutFault} {r : Except CutFault (α × Cursor)}
      (h : suffix = [] → r = .error fault) : Continued suffix (.error fault) r

namespace Continued

variable {α β : Type} {suffix : List Char} {r r' : Except CutFault (α × Cursor)}

theorem map (h : Continued suffix r r') (f : α → β) :
    Continued suffix (r.map fun p => (f p.1, p.2)) (r'.map fun p => (f p.1, p.2)) := by
  cases h with
  | ok hrest => exact .ok hrest
  | error hsame =>
    refine .error fun hnil => ?_
    rw [hsame hnil]
    rfl

/-- A second part that is continued from every cursor makes the whole continued. -/
theorem bind (h : Continued suffix r r') {f : α × Cursor → Except CutFault (β × Cursor)}
    (hf : ∀ a d d', d'.rest = d.rest ++ suffix → Continued suffix (f (a, d)) (f (a, d'))) :
    Continued suffix (r >>= f) (r' >>= f) := by
  cases h with
  | ok hrest => exact hf _ _ _ hrest
  | error hsame =>
    refine .error fun hnil => ?_
    rw [hsame hnil]
    rfl

end Continued

section Spans

variable {suffix : List Char} {c c' : Cursor}

/-- Reading a span is continued if a span that ends is found again, and if nothing but the text
    ahead tells why one does not end. -/
theorem continued_closed {r r' : Except OpenSpan (List Char) × Cursor}
    (hok : ∀ text d, r = (.ok text, d) → ∃ d', r' = (.ok text, d') ∧ d'.rest = d.rest ++ suffix)
    (herror : suffix = [] → r'.1 = r.1) : Continued suffix (closed r) (closed r') := by
  obtain ⟨outcome, d⟩ := r
  cases outcome with
  | ok text =>
    obtain ⟨d', rfl, hrest⟩ := hok text d rfl
    exact .ok hrest
  | error span =>
    refine .error fun hnil => ?_
    obtain ⟨outcome', d'⟩ := r'
    obtain rfl : outcome' = .error span := herror hnil
    rfl

/-- A quoted text that ends is read again whatever follows it. -/
theorem continued_takeQuoted (h : c'.rest = c.rest ++ suffix) :
    Continued suffix (closed c.takeQuoted) (closed c'.takeQuoted) := by
  apply continued_closed
  · intro contents d hread
    obtain ⟨mark, hmark, hcontents, hrest⟩ := Cursor.exists_of_takeQuoted hread
    have hrest' : c'.rest = mark :: contents ++ mark :: (d.rest ++ suffix) := by
      rw [h, hrest]
      simp
    exact Cursor.takeQuoted_of_rest hrest' hmark hcontents
  · intro hnil
    rw [hnil, List.append_nil] at h
    unfold Cursor.takeQuoted
    rw [h]
    split
    · rfl
    split
    · dsimp only
      split <;> rfl
    · rfl

/-- A bracket that is closed is closed at the same place in a longer text. -/
theorem spanLength_append {opening closing : Char} {quote : Option Char} {depth n : Nat}
    {text : List Char} (h : Cursor.spanLength opening closing quote depth text = .ok n) :
    Cursor.spanLength opening closing quote depth (text ++ suffix) = .ok n := by
  induction text generalizing quote depth n with
  | nil => cases quote <;> simp [Cursor.spanLength] at h
  | cons ch text ih =>
    obtain ⟨next, -, hlength⟩ := Cursor.exists_scanStep opening closing quote depth ch
    rw [hlength] at h
    rw [List.cons_append, hlength]
    cases next with
    | none => exact h
    | some next =>
      obtain ⟨m, hm, rfl⟩ := map_eq_ok.1 h
      exact congrArg (Except.map (· + 1)) (ih hm)

/-- A span whose brackets close is read again whatever follows it. -/
theorem continued_takeEnclosed {opening closing : Char} (h : c'.rest = c.rest ++ suffix) :
    Continued suffix (closed (c.takeEnclosed opening closing))
      (closed (c'.takeEnclosed opening closing)) := by
  apply continued_closed
  · intro span d hread
    obtain ⟨hcurrent, n, hn, rfl, rfl⟩ := Cursor.takeEnclosed_eq_ok.1 hread
    obtain ⟨inner, more, hparts, rfl, -⟩ := Cursor.spanLength_eq_ok hn
    have hle : inner.length + 1 ≤ c.rest.length := by
      rw [hparts]
      simp
    rw [Cursor.current?_eq_head?_rest, List.head?_eq_some_iff] at hcurrent
    obtain ⟨text, htext⟩ := hcurrent
    have hcurrent' : c'.current? = some opening := by
      rw [Cursor.current?_eq_head?_rest, h, htext, List.cons_append, List.head?_cons]
    have hn' : Cursor.spanLength opening closing none 0 c'.rest = .ok (inner.length + 1) := by
      rw [h]
      exact spanLength_append hn
    refine ⟨_, Cursor.takeEnclosed_eq_ok.2 ⟨hcurrent', _, hn', ?_, rfl⟩, ?_⟩
    · rw [h, List.take_append_of_le_length hle]
    · rw [Cursor.rest_advance, Cursor.rest_advance, h, List.drop_append_of_le_length hle]
  · intro hnil
    rw [hnil, List.append_nil] at h
    unfold Cursor.takeEnclosed
    rw [Cursor.current?_eq_head?_rest, Cursor.current?_eq_head?_rest, h]
    split
    · split <;> rfl
    · rfl

end Spans

section Pieces

variable {suffix : List Char} {c c' : Cursor}

/-- Ahead of some text a token can be read, though it may be empty. -/
theorem cutToken_of_rest_ne_nil {stops : List Char} (h : c.rest ≠ []) :
    ∃ d, cutToken stops c =
        .ok (c.rest.takeWhile fun ch => !(isSeparator ch || stops.contains ch), d) ∧
      d.rest = c.rest.dropWhile fun ch => !(isSeparator ch || stops.contains ch) := by
  have hposition : c.position ≤ c.input.length := by
    by_contra hover
    exact h (Cursor.atEnd_iff.1 (by simp [Cursor.atEnd]; omega))
  refine ⟨c.skipWhile fun ch => !(isSeparator ch || stops.contains ch), ?_, ?_⟩
  · rw [cutToken, Cursor.takeToken, if_pos hposition]
    rfl
  · exact Cursor.rest_skipWhile _ c

/-- A token that reaches the end of a text stops there too if a comma follows. -/
theorem continued_cutToken (hsuffix : Follows suffix) (stops : List Char) (hne : c.rest ≠ [])
    (h : c'.rest = c.rest ++ suffix) :
    Continued suffix (cutToken stops c) (cutToken stops c') := by
  have hne' : c'.rest ≠ [] := by
    rw [h]
    exact List.append_ne_nil_of_left_ne_nil hne suffix
  have hstop : StopsBefore (fun ch => !(isSeparator ch || stops.contains ch)) suffix :=
    hsuffix.stopsBefore (by simp [isSeparator])
  obtain ⟨d, hcut, hrest⟩ := cutToken_of_rest_ne_nil hne
  obtain ⟨d', hcut', hrest'⟩ := cutToken_of_rest_ne_nil hne'
  rw [hcut, hcut', h, takeWhile_append_stop hstop]
  refine .ok ?_
  rw [hrest, hrest', h, dropWhile_append_stop hstop]

/-- The character under the cursor is the same in a longer text. -/
theorem current?_of_append (hne : c.rest ≠ []) (h : c'.rest = c.rest ++ suffix) :
    c'.current? = c.current? := by
  obtain ⟨ch, text, htext⟩ := List.exists_cons_of_ne_nil hne
  have htext' : c'.rest = ch :: (text ++ suffix) := by rw [h, htext, List.cons_append]
  rw [Cursor.current?_of_rest htext, Cursor.current?_of_rest htext']

/-- A key that is cut off a text is cut off the longer one. -/
theorem continued_cutKey (hsuffix : Follows suffix) (hne : c.rest ≠ [])
    (h : c'.rest = c.rest ++ suffix) : Continued suffix (cutKey c) (cutKey c') := by
  rw [cutKey, cutKey, current?_of_append hne h]
  split
  · exact (continued_takeQuoted h).map identifier
  · exact (continued_cutToken hsuffix [':'] hne h).map String.ofList

/-- An item that is cut off a text is cut off the longer one. -/
theorem continued_cutItem (hsuffix : Follows suffix) (hne : c.rest ≠ [])
    (h : c'.rest = c.rest ++ suffix) : Continued suffix (cutItem c) (cutItem c') := by
  rw [cutItem, cutItem, current?_of_append hne h]
  split
  · exact (continued_takeQuoted h).map Piece.quoted
  · exact (continued_cutToken hsuffix [] hne h).map Piece.bare

/-- A value that is cut off a text is cut off the longer one. -/
theorem continued_cutPiece (hsuffix : Follows suffix) (hne : c.rest ≠ [])
    (h : c'.rest = c.rest ++ suffix) : Continued suffix (cutPiece c) (cutPiece c') := by
  rw [cutPiece, cutPiece, current?_of_append hne h]
  split
  · exact (continued_takeEnclosed h).map Piece.braced
  split
  · exact (continued_takeEnclosed h).map Piece.bracketed
  split
  · exact (continued_takeQuoted h).map Piece.quoted
  · exact (continued_cutToken hsuffix [] hne h).map Piece.bare

/-- A run that a comma stops leaves the suffix in place. -/
theorem rest_skipWhile_append {p : Char → Bool} (hp : p ',' = false) (hsuffix : Follows suffix)
    (h : c'.rest = c.rest ++ suffix) : (c'.skipWhile p).rest = (c.skipWhile p).rest ++ suffix := by
  rw [Cursor.rest_skipWhile, Cursor.rest_skipWhile, h,
    dropWhile_append_stop (hsuffix.stopsBefore hp)]

/-- A colon that is missing at the end of a text is not found in what follows. -/
theorem skipColon_append (hsuffix : Follows suffix) (kind : Mapping)
    (h : c'.rest = c.rest ++ suffix) :
    (kind.skipColon c = none ∧ kind.skipColon c' = none) ∨
      ∃ d d', kind.skipColon c = some d ∧ kind.skipColon c' = some d' ∧
        d'.rest = d.rest ++ suffix := by
  cases kind with
  | document =>
    exact .inr ⟨_, _, rfl, rfl, rest_skipWhile_append (by simp [isBlank]) hsuffix h⟩
  | operators =>
    have hblank : c'.skipBlanks.rest = c.skipBlanks.rest ++ suffix :=
      rest_skipWhile_append (by simp [isBlank]) hsuffix h
    cases htext : c.skipBlanks.rest with
    | nil =>
      -- What stands here is the suffix, and a comma is no colon.
      rw [htext, List.nil_append] at hblank
      have hcurrent : c.skipBlanks.current? ≠ some ':' := by
        rw [Cursor.current?_eq_head?_rest, htext]
        simp
      have hcurrent' : c'.skipBlanks.current? ≠ some ':' := by
        rw [Cursor.current?_eq_head?_rest, hblank]
        intro hcolon
        have := hsuffix ':' hcolon
        contradiction
      exact .inl ⟨if_neg hcurrent, if_neg hcurrent'⟩
    | cons ch text =>
      have hcurrent : c'.skipBlanks.current? = c.skipBlanks.current? :=
        current?_of_append (by simp [htext]) hblank
      simp only [Mapping.skipColon, hcurrent]
      split
      · refine .inr ⟨_, _, rfl, rfl, rest_skipWhile_append (by simp [isBlank]) hsuffix ?_⟩
        rw [Cursor.rest_advance, Cursor.rest_advance, hblank, htext]
        rfl
      · exact .inl ⟨rfl, rfl⟩

/-- An entry that is cut off a text is cut off the longer one. Where the value is missing, the
    suffix starts with no value either. -/
theorem continued_cutEntry (hsuffix : Follows suffix) (kind : Mapping) (hne : c.rest ≠ [])
    (h : c'.rest = c.rest ++ suffix) : Continued suffix (cutEntry kind c) (cutEntry kind c') := by
  refine (continued_cutKey hsuffix hne h).bind fun key d d' hkey => ?_
  dsimp only
  split
  · exact .error fun _ => rfl
  rcases skipColon_append hsuffix kind hkey with ⟨hnone, hnone'⟩ | ⟨e, e', hsome, hsome', hrest⟩
  · rw [hnone, hnone']
    exact .error fun _ => rfl
  · rw [hsome, hsome']
    dsimp only
    by_cases hend : e.atEnd = true
    · rw [if_pos hend]
      refine .error fun hnil => if_pos ?_
      rw [Cursor.atEnd_iff, hrest, Cursor.atEnd_iff.1 hend, hnil, List.append_nil]
    · have hvalue : e.rest ≠ [] := Cursor.rest_ne_nil (Bool.eq_false_iff.2 hend)
      have hend' : ¬ e'.atEnd = true := by
        rw [Cursor.atEnd_iff, hrest]
        exact List.append_ne_nil_of_left_ne_nil hvalue suffix
      rw [if_neg hend, if_neg hend']
      exact (continued_cutPiece hsuffix hvalue hrest).bind fun piece _ _ hpiece => .ok hpiece

end Pieces
end FindSelect
