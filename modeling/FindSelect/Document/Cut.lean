import FindSelect.Document.Piece

namespace FindSelect

open Text

/-- Cuts the text inside the braces of a mapping into its entries. -/
def cutEntries (kind : Mapping) (c : Cursor) : Cut (String × Piece) :=
  if hend : c.skipGap.atEnd = true then .done
  else match h : cutEntry kind c.skipGap with
    | .error fault => .stopped fault
    | .ok (entry, next) =>
      have : next.remaining < c.remaining := by
        obtain ⟨hlead, hmoved, -⟩ := cutEntry_ok h
        exact hlead.remaining_lt_of_skip hmoved (Bool.eq_false_iff.2 hend)
      (cutEntries kind next).cons entry
termination_by c.remaining

/-- A token that starts at a character which does not end it is not empty. -/
theorem cutToken_moves {c d : Cursor} {token : List Char} {ch : Char}
    (h : cutToken [] c = .ok (token, d)) (hcurrent : c.current? = some ch)
    (hch : isSeparator ch = false) : c.position < d.position := by
  rw [Cursor.current?_eq_head?_rest] at hcurrent
  obtain ⟨htoken, -⟩ := run_of_cutToken h
  obtain ⟨-, rfl⟩ := cutToken_ok h
  have hpos : 0 < token.length := by
    cases hrest : c.rest with
    | nil => simp [hrest] at hcurrent
    | cons first rest =>
      simp only [hrest, List.head?_cons, Option.some.injEq] at hcurrent
      simp [htoken, hrest, hcurrent, hch]
  simp only [Cursor.advance]
  omega

/-- The character after a run of separators is none. -/
theorem isSeparator_current_skipGap {c : Cursor} {ch : Char}
    (h : c.skipGap.current? = some ch) : isSeparator ch = false := by
  rw [Cursor.current?_eq_head?_rest, Cursor.skipGap, Cursor.rest_skipWhile] at h
  have hnot := List.head?_dropWhile_not isSeparator c.rest
  rw [h] at hnot
  simpa using hnot

/-- An item moves the cursor on. -/
theorem cutItem_moves {c d : Cursor} {piece : Piece}
    (h : cutItem c.skipGap = .ok (piece, d)) (hend : c.skipGap.atEnd = false) :
    c.skipGap.Leads d ∧ c.skipGap.position < d.position := by
  refine ⟨(cutItem_ok h).1, ?_⟩
  rcases cutItem_eq_ok h with ⟨contents, -, -, hread⟩ | ⟨token, -, -, hread⟩
  · obtain ⟨-, rfl⟩ := Cursor.takeQuoted_ok hread
    exact Nat.lt_add_of_pos_right (Nat.succ_pos _)
  · obtain ⟨ch, hch⟩ : ∃ ch, c.skipGap.current? = some ch :=
      ⟨_, List.getElem?_eq_getElem (Cursor.position_lt_of_atEnd_eq_false hend)⟩
    exact cutToken_moves hread hch (isSeparator_current_skipGap hch)

/-- Cuts the text inside the brackets of a value list into its items. -/
def cutItems (c : Cursor) : Cut Piece :=
  if hend : c.skipGap.atEnd = true then .done
  else match h : cutItem c.skipGap with
    | .error fault => .stopped fault
    | .ok (piece, next) =>
      have : next.remaining < c.remaining := by
        obtain ⟨hlead, hmoved⟩ := cutItem_moves h (Bool.eq_false_iff.2 hend)
        exact hlead.remaining_lt_of_skip hmoved (Bool.eq_false_iff.2 hend)
      (cutItems next).cons piece
termination_by c.remaining

/-- Cuts the span of a document off a condition list, if one begins under the
    cursor. Anything else is passed over: a quoted text as a whole, any other
    character by itself. -/
def cutCondition (c : Cursor) : Except CutFault (List (List Char) × Cursor) :=
  if c.current? = some '{' then
    (closed (c.takeEnclosed '{' '}')).map fun (span, c) => ([span], c)
  else if c.current?.any isQuoteMark then (closed c.takeQuoted).map fun (_, c) => ([], c)
  else .ok ([], c.advance 1)

/-- What one step through a condition list goes over. -/
theorem cutCondition_eq_ok {c d : Cursor} {spans : List (List Char)}
    (h : cutCondition c = .ok (spans, d)) :
    (∃ span, spans = [span] ∧ c.takeEnclosed '{' '}' = (.ok span, d)) ∨
    (∃ contents, spans = [] ∧ c.current?.any isQuoteMark = true ∧
      c.takeQuoted = (.ok contents, d)) ∨
    spans = [] ∧ c.current?.any isQuoteMark = false ∧ d = c.advance 1 := by
  unfold cutCondition at h
  split at h
  · obtain ⟨⟨span, e⟩, hread, hpair⟩ := map_eq_ok.1 h
    obtain ⟨rfl, rfl⟩ := Prod.mk.inj hpair
    exact .inl ⟨span, rfl, closed_ok hread⟩
  split at h
  · rename_i hquote
    obtain ⟨⟨contents, e⟩, hread, hpair⟩ := map_eq_ok.1 h
    obtain ⟨rfl, rfl⟩ := Prod.mk.inj hpair
    exact .inr (.inl ⟨contents, rfl, hquote, closed_ok hread⟩)
  · rename_i hquote
    obtain ⟨rfl, rfl⟩ := Prod.mk.inj (Except.ok.inj h)
    exact .inr (.inr ⟨rfl, Bool.eq_false_iff.2 hquote, rfl⟩)

/-- A step through a condition list moves the cursor on, whatever it goes over. -/
theorem cutCondition_moves {c d : Cursor} {spans : List (List Char)}
    (h : cutCondition c = .ok (spans, d)) : c.Leads d ∧ c.position < d.position := by
  suffices hadvance : ∃ n, 0 < n ∧ d = c.advance n by
    obtain ⟨n, hpos, rfl⟩ := hadvance
    exact ⟨Cursor.leads_advance n c, Nat.lt_add_of_pos_right hpos⟩
  rcases cutCondition_eq_ok h with ⟨span, -, hread⟩ | ⟨contents, -, -, hread⟩ | ⟨-, -, rfl⟩
  · obtain ⟨-, n, hpos, -, hd⟩ := Cursor.takeEnclosed_ok hread
    exact ⟨n, hpos, hd⟩
  · exact ⟨_, Nat.succ_pos _, (Cursor.takeQuoted_ok hread).2⟩
  · exact ⟨1, Nat.one_pos, rfl⟩

/-- Cuts the text inside the brackets of a condition list into the spans of its
    documents. -/
def cutConditions (c : Cursor) : Cut (List Char) :=
  if hend : c.skipGap.atEnd = true then .done
  else match h : cutCondition c.skipGap with
    | .error fault => .stopped fault
    | .ok (spans, next) =>
      have : next.remaining < c.remaining := by
        obtain ⟨hlead, hmoved⟩ := cutCondition_moves h
        exact hlead.remaining_lt_of_skip hmoved (Bool.eq_false_iff.2 hend)
      (cutConditions next).prepend spans
termination_by c.remaining

/-- The pieces of a cut satisfy what the first one and the others do. -/
theorem Cut.forall_mem_cons {α : Type} {P : α → Prop} {piece : α} {cut : Cut α}
    (h : P piece) (hcut : ∀ p ∈ cut.pieces, P p) : ∀ p ∈ (cut.cons piece).pieces, P p := by
  intro p hp
  rcases List.mem_cons.1 hp with rfl | hp
  · exact h
  · exact hcut p hp

/-- The value of an entry is no longer than the text that is cut. -/
theorem length_le_of_mem_cutEntries (kind : Mapping) (c : Cursor) :
    ∀ entry ∈ (cutEntries kind c).pieces, entry.2.length ≤ c.remaining := by
  fun_induction cutEntries kind c with
  | case1 => simp [Cut.done]
  | case2 => simp [Cut.stopped]
  | case3 c hend entry next h hlt ih =>
    obtain ⟨-, -, hlength⟩ := cutEntry_ok h
    exact Cut.forall_mem_cons
      (Nat.le_trans hlength (Cursor.leads_skipWhile _ c).remaining_le)
      fun p hp => Nat.le_trans (ih p hp) (Nat.le_of_lt hlt)

/-- A document of a condition list is no longer than the text that is cut. -/
theorem length_le_of_mem_cutConditions (c : Cursor) :
    ∀ span ∈ (cutConditions c).pieces, span.length ≤ c.remaining := by
  fun_induction cutConditions c with
  | case1 => simp [Cut.done]
  | case2 => simp [Cut.stopped]
  | case3 c hend spans next h hlt ih =>
    intro span hspan
    rcases List.mem_append.1 hspan with hspan | hspan
    · rcases cutCondition_eq_ok h with ⟨_, rfl, hread⟩ | ⟨_, rfl, -⟩ | ⟨rfl, -⟩
      · obtain rfl := List.mem_singleton.1 hspan
        obtain ⟨hlength, -⟩ := Cursor.takeEnclosed_ok hread
        exact Nat.le_trans hlength (Cursor.leads_skipWhile _ c).remaining_le
      · contradiction
      · contradiction
    · exact Nat.le_trans (ih span hspan) (Nat.le_of_lt hlt)

end FindSelect
