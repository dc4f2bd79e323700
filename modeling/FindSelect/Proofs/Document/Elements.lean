import FindSelect.Proofs.Document.Concatenation

namespace FindSelect

open Text

/-- A text in braces that is read as one span from its first to its last character. -/
structure BraceGroup where
  text : List Char
  isSpan : ((Cursor.start text).takeEnclosed '{' '}').1 = .ok text

namespace BraceGroup

/-- A group is read up to its end. -/
theorem takeEnclosed_start (group : BraceGroup) :
    ∃ d, (Cursor.start group.text).takeEnclosed '{' '}' = (.ok group.text, d) ∧ d.rest = [] := by
  obtain ⟨d, hread⟩ : ∃ d, (Cursor.start group.text).takeEnclosed '{' '}' = (.ok group.text, d) :=
    ⟨_, Prod.ext group.isSpan rfl⟩
  obtain ⟨inner, -, -, hrest⟩ := Cursor.exists_of_takeEnclosed braces hread
  refine ⟨d, hread, ?_⟩
  have hlength := congrArg List.length hrest
  rw [List.length_append] at hlength
  exact List.eq_nil_of_length_eq_zero (by simpa [Cursor.rest, Cursor.start] using hlength)

/-- A group stands in braces. -/
theorem exists_inner (group : BraceGroup) : ∃ inner, group.text = '{' :: inner ++ ['}'] := by
  obtain ⟨d, hread, -⟩ := group.takeEnclosed_start
  obtain ⟨inner, htext, -⟩ := Cursor.exists_of_takeEnclosed braces hread
  exact ⟨inner, htext⟩

/-- A group is one span whatever follows it. -/
theorem takeEnclosed_append (group : BraceGroup) (rest : List Char) :
    ∃ d, (Cursor.start (group.text ++ rest)).takeEnclosed '{' '}' = (.ok group.text, d) ∧
      d.rest = rest := by
  obtain ⟨d, hread, hend⟩ := group.takeEnclosed_start
  have hcontinued : Continued rest (closed ((Cursor.start group.text).takeEnclosed '{' '}'))
      (closed ((Cursor.start (group.text ++ rest)).takeEnclosed '{' '}')) :=
    continued_takeEnclosed rfl
  rw [hread] at hcontinued
  generalize hlonger : closed ((Cursor.start (group.text ++ rest)).takeEnclosed '{' '}') = r
    at hcontinued
  cases hcontinued with
  | @ok _ _ d' hrest =>
    rw [hend, List.nil_append] at hrest
    exact ⟨d', closed_ok hlonger, hrest⟩

end BraceGroup

/-- What a list of documents passes over between them: a character that begins neither a document
    nor a quoted text, or a quoted text as a whole. -/
inductive Filler where
  | char (ch : Char) (hbrace : ch ≠ '{') (hquote : isQuoteMark ch = false)
  | quoted (mark : Char) (contents : List Char) (hmark : isQuoteMark mark = true)
    (hcontents : mark ∉ contents)

def Filler.text : Filler → List Char
  | .char ch _ _ => [ch]
  | .quoted mark contents _ _ => mark :: contents ++ [mark]

/-- The first step of a loop over a text that does not begin with a separator. -/
theorem CutLoop.eq_prepend_of_step {α : Type} {step : Cursor → Except CutFault (List α × Cursor)}
    {loop : Cursor → Cut α} (h : CutLoop step loop) {ch : Char} {text : List Char} {d : Cursor}
    {pieces : List α} (hgap : isSeparator ch = false)
    (hstep : step (.start (ch :: text)) = .ok (pieces, d)) :
    loop (.start (ch :: text)) = (loop (.start d.rest)).prepend pieces := by
  have hskip : (Cursor.start (ch :: text)).skipGap = .start (ch :: text) := by
    simp [Cursor.skipGap, Cursor.skipWhile, Cursor.rest, Cursor.start, Cursor.advance, hgap]
  have hend : (Cursor.start (ch :: text)).skipGap.atEnd = false := by
    rw [hskip]
    rfl
  obtain ⟨-, hloop⟩ := h.next (.start (ch :: text)) d pieces hend (by rw [hskip, hstep])
  have hrest : d.skipGap.rest = (Cursor.start d.rest).skipGap.rest := by
    simp only [Cursor.skipGap, Cursor.rest_skipWhile]
    rfl
  rw [hloop, h.eq_of_rest _ (.start d.rest) d (Nat.lt_succ_self _) hrest]

/-- A group is the first span of the text that it begins. -/
theorem cutConditions_group (group : BraceGroup) (rest : List Char) :
    cutConditions (.start (group.text ++ rest)) =
      (cutConditions (.start rest)).prepend [group.text] := by
  obtain ⟨d, hread, rfl⟩ := group.takeEnclosed_append rest
  obtain ⟨inner, htext⟩ := group.exists_inner
  have hstep : cutCondition (.start (group.text ++ d.rest)) = .ok ([group.text], d) := by
    rw [cutCondition, hread, if_pos (by rw [htext]; rfl)]
    rfl
  rw [htext] at hstep ⊢
  exact cutLoop_cutConditions.eq_prepend_of_step (by decide) hstep

/-- A separator in front of a text makes no difference to the spans in it. -/
theorem cutConditions_separator {ch : Char} (hgap : isSeparator ch = true) (rest : List Char) :
    cutConditions (.start (ch :: rest)) = cutConditions (.start rest) := by
  apply cutLoop_cutConditions.eq_of_rest _ _ _ (Nat.lt_succ_self _)
  rw [Cursor.skipGap, Cursor.skipGap, Cursor.rest_skipWhile, Cursor.rest_skipWhile]
  exact List.dropWhile_cons_of_pos hgap

/-- A text that is passed over makes no difference to the spans after it. -/
theorem cutConditions_filler (filler : Filler) (rest : List Char) :
    cutConditions (.start (filler.text ++ rest)) = cutConditions (.start rest) := by
  cases filler with
  | char ch hbrace hquote =>
    -- Separators go with the gap in front of a step, any other character is a step of its own.
    cases hgap : isSeparator ch with
    | true => exact cutConditions_separator hgap rest
    | false =>
      have hstep : cutCondition (.start (ch :: rest)) =
          .ok ([], (Cursor.start (ch :: rest)).advance 1) := by
        rw [cutCondition, if_neg, if_neg]
        · simpa [Cursor.current?, Cursor.start] using hquote
        · simpa [Cursor.current?, Cursor.start] using hbrace
      exact cutLoop_cutConditions.eq_prepend_of_step hgap hstep
  | quoted mark contents hmark hcontents =>
    have htext : Filler.text (.quoted mark contents hmark hcontents) ++ rest =
        mark :: (contents ++ mark :: rest) := by
      simp [Filler.text]
    obtain ⟨d, hread, rfl⟩ :=
      Cursor.takeQuoted_of_rest (c := .start (mark :: (contents ++ mark :: rest))) rfl hmark
        hcontents
    obtain ⟨hgap, hbrace⟩ : isSeparator mark = false ∧ mark ≠ '{' := by
      rcases isQuoteMark_iff.1 hmark with rfl | rfl <;> decide
    have hstep : cutCondition (.start (mark :: (contents ++ mark :: d.rest))) = .ok ([], d) := by
      rw [cutCondition, if_neg, if_pos, hread]
      · rfl
      · simpa [Cursor.current?, Cursor.start] using hmark
      · simpa [Cursor.current?, Cursor.start] using hbrace
    rw [htext]
    exact cutLoop_cutConditions.eq_prepend_of_step hgap hstep

/-- Several texts that are passed over make no difference either. -/
theorem cutConditions_fillers (fillers : List Filler) (rest : List Char) :
    cutConditions (.start (fillers.flatMap Filler.text ++ rest)) = cutConditions (.start rest) := by
  induction fillers with
  | nil => rfl
  | cons filler fillers ih =>
    rw [List.flatMap_cons, List.append_assoc, cutConditions_filler, ih]

/-- An element of a list of documents, with what stands between it and the next one. -/
structure Element where
  group : BraceGroup
  after : List Filler

def Element.text (element : Element) : List Char :=
  element.group.text ++ element.after.flatMap Filler.text

/-- The text of a list of documents, with what stands before the first one. -/
def listText (before : List Filler) (elements : List Element) : List Char :=
  '[' :: (before.flatMap Filler.text ++ elements.flatMap Element.text) ++ [']']

/-- The spans of a list are its groups, whatever stands between them. -/
theorem cutConditions_elements (elements : List Element) :
    cutConditions (.start (elements.flatMap Element.text)) =
      ⟨elements.map fun element => element.group.text, none⟩ := by
  induction elements with
  | nil => exact cutConditions_done _ rfl
  | cons element elements ih =>
    rw [List.flatMap_cons, Element.text, List.append_assoc, cutConditions_group,
      cutConditions_fillers, ih]
    rfl

/-- A list of documents is read element by element: the first error of an element in their order,
    or else all that was read. What stands between the elements makes no difference. -/
theorem Document.parseList_elements (before : List Filler) (elements : List Element) :
    Document.parseList (String.ofList (listText before elements)) =
      elements.mapM fun element => Document.parse (String.ofList element.group.text) := by
  have hcut : cutConditions (.start (before.flatMap Filler.text ++ elements.flatMap Element.text)) =
      ⟨elements.map fun element => element.group.text, none⟩ := by
    rw [cutConditions_fillers, cutConditions_elements]
  have hread : readConditions (listText before elements) =
      (elements.map fun element => element.group.text).mapM readDocument := by
    rw [listText, readConditions_of_unwrap (unwrap?_trim_brackets squares _), hcut, Cut.readAll]
    exact bind_pure _
  simp only [Document.parseList, Document.parse, String.toList_ofList, hread, List.mapM_map]
  rfl

/-- Two documents with brackets and quoted braces before, between and after them. -/
def strayElements : List Element :=
  [⟨⟨"\x7ba: '\x7d'\x7d".toList, by decide +kernel⟩,
      [.char '\x7d' (by decide) (by decide), .char ']' (by decide) (by decide),
        .quoted '"' "\x7b'".toList (by decide) (by decide)]⟩,
    ⟨⟨"\x7bb: \x7b$gt: 1\x7d\x7d".toList, by decide +kernel⟩,
      [.char 'x' (by decide) (by decide)]⟩]

theorem Document.parseList_strayElements :
    String.ofList (listText [.char '[' (by decide) (by decide)] strayElements) =
      "[[\x7ba: '\x7d'\x7d\x7d]\"\x7b'\"\x7bb: \x7b$gt: 1\x7d\x7dx]" ∧
    Document.parseList "[[\x7ba: '\x7d'\x7d\x7d]\"\x7b'\"\x7bb: \x7b$gt: 1\x7d\x7dx]" =
      .ok [.ofEntries [("a", .string "\x7d")],
        .ofEntries [("b", .document [("$gt", .integer 1)])]] := by
  have htext : String.ofList (listText [.char '[' (by decide) (by decide)] strayElements) =
      "[[\x7ba: '\x7d'\x7d\x7d]\"\x7b'\"\x7bb: \x7b$gt: 1\x7d\x7dx]" := by
    decide +kernel
  refine ⟨htext, ?_⟩
  rw [← htext, Document.parseList_elements]
  decide +kernel

end FindSelect
