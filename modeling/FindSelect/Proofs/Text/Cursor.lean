import FindSelect.Proofs.Text.Span

namespace FindSelect.Text

namespace Cursor

/-- The cursor is at the end exactly if no text is ahead of it. -/
theorem atEnd_iff {c : Cursor} : c.atEnd = true ↔ c.rest = [] := by
  simp [atEnd, rest, List.drop_eq_nil_iff]

/-- The character under the cursor is the first of the text ahead. -/
theorem current?_of_rest {c : Cursor} {ch : Char} {text : List Char} (h : c.rest = ch :: text) :
    c.current? = some ch := by
  rw [current?_eq_head?_rest, h, List.head?_cons]

theorem atEnd_eq_false_of_rest {c : Cursor} {ch : Char} {text : List Char}
    (h : c.rest = ch :: text) : c.atEnd = false := by
  rw [← Bool.not_eq_true, atEnd_iff, h]
  simp

theorem rest_ne_nil {c : Cursor} (h : c.atEnd = false) : c.rest ≠ [] := by
  intro hnil
  rw [atEnd_iff.2 hnil] at h
  contradiction

/-- Skipping moves over a run of characters up to the first other one. -/
theorem rest_skipWhile_of_rest {p : Char → Bool} {c : Cursor} {run text : List Char}
    (h : c.rest = run ++ text) (hrun : ∀ ch ∈ run, p ch = true) (htext : StopsBefore p text) :
    (c.skipWhile p).rest = text := by
  rw [rest_skipWhile, h, dropWhile_append_of_stops hrun htext]

/-- A quoted text is read up to its closing quote. -/
theorem takeQuoted_of_rest {c : Cursor} {mark : Char} {contents text : List Char}
    (h : c.rest = mark :: contents ++ mark :: text) (hmark : isQuoteMark mark = true)
    (hcontents : mark ∉ contents) :
    ∃ d, c.takeQuoted = (.ok contents, d) ∧ d.rest = text := by
  have htake : (contents ++ mark :: text).takeWhile (· != mark) = contents :=
    takeWhile_append_of_stops (bne_of_not_mem hcontents) (stopsBefore_mark mark text)
  refine ⟨c.advance (contents.length + 2), ?_, ?_⟩
  · unfold takeQuoted
    rw [h]
    simp [hmark, htake]
  · rw [rest_advance, h]
    simp

/-- A text that was read between quotes stands in front of the rest. -/
theorem exists_of_takeQuoted {c d : Cursor} {contents : List Char}
    (h : c.takeQuoted = (.ok contents, d)) :
    ∃ mark, isQuoteMark mark = true ∧ mark ∉ contents ∧
      c.rest = mark :: contents ++ mark :: d.rest := by
  have houtcome := quotedOutcome_takeQuoted c
  rw [h] at houtcome
  cases houtcome with
  | @closed mark text hrest hmark hclosed =>
    have hsplit := @List.takeWhile_append_dropWhile _ (· != mark) text
    have hnot : mark ∉ text.takeWhile (· != mark) := fun hmem => by
      simpa using List.mem_takeWhile_imp hmem
    have hfirst := List.head?_dropWhile_not (· != mark) text
    generalize text.takeWhile (· != mark) = contents at hsplit hnot hclosed ⊢
    cases hmore : text.dropWhile (· != mark) with
    | nil =>
      rw [hmore, List.append_nil] at hsplit
      rw [hsplit] at hclosed
      omega
    | cons last more =>
      rw [hmore] at hsplit hfirst
      obtain rfl : last = mark := by simpa using hfirst
      rw [← hsplit] at hrest
      refine ⟨last, hmark, hnot, ?_⟩
      rw [rest_advance, hrest]
      simp

/-- A balanced text in brackets is read up to its closing bracket. -/
theorem takeEnclosed_of_rest {c : Cursor} {opening closing : Char} {inner text : List Char}
    (hbrackets : AreBrackets opening closing) (hinner : Balanced inner)
    (h : c.rest = opening :: inner ++ closing :: text) :
    ∃ d, c.takeEnclosed opening closing = (.ok (opening :: inner ++ [closing]), d) ∧
      d.rest = text := by
  have hspan : spanLength opening closing none 0 c.rest = .ok (inner.length + 2) := by
    rw [h, List.cons_append, spanLength_opening hbrackets.spec.1,
      spanLength_balanced hbrackets hinner, spanLength_closing hbrackets, if_pos rfl]
    simp [Except.map]
    omega
  have hparts : c.rest = (opening :: inner ++ [closing]) ++ text := by simp [h]
  have hlength : (opening :: inner ++ [closing]).length = inner.length + 2 := by simp
  refine ⟨c.advance (inner.length + 2),
    takeEnclosed_eq_ok.2 ⟨current?_of_rest h, _, hspan, ?_, rfl⟩, ?_⟩
  · rw [hparts, ← hlength, List.take_left]
  · rw [rest_advance, ← hlength, hparts, List.drop_left]

/-- A token is read up to the character that stops it. -/
theorem takeToken_of_rest {c : Cursor} {stops token text : List Char} (h : c.rest = token ++ text)
    (hne : token ≠ []) (htoken : ∀ ch ∈ token, (isSeparator ch || stops.contains ch) = false)
    (htext : ∀ ch ∈ text.head?, (isSeparator ch || stops.contains ch) = true) :
    ∃ d, c.takeToken stops = some (token, d) ∧ d.rest = text := by
  have hposition : c.position ≤ c.input.length := by
    by_contra hover
    have hnil : c.rest = [] := atEnd_iff.1 (by simp [atEnd]; omega)
    rw [h] at hnil
    exact hne (List.append_eq_nil_iff.1 hnil).1
  have htake : (token ++ text).takeWhile (fun ch => !(isSeparator ch || stops.contains ch)) =
      token := by
    refine takeWhile_append_of_stops ?_ ?_
    · intro ch hch
      exact congrArg not (htoken ch hch)
    · intro ch hch
      exact congrArg not (htext ch hch)
  refine ⟨_, takeToken_eq_some.2 ⟨hposition, ?_, rfl⟩, ?_⟩
  · rw [h, htake]
  · rw [skipWhile, h, htake, rest_advance, h, List.drop_left]

end Cursor
end FindSelect.Text
