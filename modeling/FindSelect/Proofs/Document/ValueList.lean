import FindSelect.Proofs.Document.Completeness
import FindSelect.Proofs.Document.Rewriting

namespace FindSelect

open Text

/-- The texts of an item of a value list, and whether it is a bare token: a quoted text without its
    own quote mark, or a token that does not begin with a quote and is a scalar. -/
inductive ItemText : Value → Bool → List Char → Prop where
  | bare {token : List Char} {value : Value} (hne : token ≠ [])
      (hgap : ∀ c ∈ token, isSeparator c = false) (hquote : StopsBefore isQuoteMark token)
      (hparse : Value.parse (String.ofList token) = .ok value) : ItemText value true token
  | quoted {mark : Char} {contents : List Char} (hmark : isQuoteMark mark = true)
      (hcontents : mark ∉ contents) :
      ItemText (.string (String.ofList contents)) false (mark :: contents ++ [mark])

namespace ItemText

variable {value : Value} {bare : Bool} {text : List Char}

/-- An item of a value list is a primitive. -/
theorem primitiveText (h : ItemText value bare text) : PrimitiveText value bare text := by
  cases h with
  | bare hne hgap _ hparse =>
    rw [Value.parse, String.toList_ofList] at hparse
    refine .bare hne ?_ hparse
    intro c hc
    exact (Bool.or_eq_false_iff.1 (hgap c hc)).1
  | quoted hmark hcontents => exact .quoted hmark hcontents

theorem starts (h : ItemText value bare text) :
    ∃ first more, text = first :: more ∧ isSeparator first = false := by
  obtain ⟨first, more, htext, hfirst, -⟩ := h.primitiveText.readItem.starts
  exact ⟨first, more, htext, hfirst⟩

theorem isPrimitive (h : ItemText value bare text) : value.isPrimitive = true := by
  cases h with
  | bare _ _ _ hparse => exact isPrimitive_of_readScalar hparse
  | quoted => rfl

end ItemText

namespace Spaced

variable {α : Type} {Item Item' : α → Bool → List Char → Prop} {items : List α} {text : List Char}

/-- Items of one kind are items of another if each of them is. -/
theorem imp (hitem : ∀ item bare t, Item item bare t → Item' item bare t)
    (h : Spaced Item items text) : Spaced Item' items text := by
  induction h with
  | nil => exact .nil
  | cons hfirst hgap hbare _ ih => exact .cons (hitem _ _ _ hfirst) hgap hbare ih

/-- Every item of a spaced text has a text of its own. -/
theorem exists_of_mem (h : Spaced Item items text) :
    ∀ item ∈ items, ∃ bare t, Item item bare t := by
  induction h with
  | nil => simp
  | cons hfirst _ _ _ ih => exact List.forall_mem_cons.2 ⟨⟨_, _, hfirst⟩, ih⟩

/-- After a bare token a further item stands only behind a gap: the text that ended the token
    begins with a separator, and no item does. -/
theorem gap_ne_nil {values : List Value} {gap body : List Char} (h : Spaced ItemText values body)
    (hends : EndsToken (gap ++ body)) (hvalues : values ≠ []) : gap ≠ [] := by
  rintro rfl
  cases h with
  | nil => exact hvalues rfl
  | @cons bare value values t gap rest hitem =>
    obtain ⟨first, more, rfl, hfirst⟩ := hitem.starts
    have hgap : isSeparator first = true := hends first (by simp)
    rw [hfirst] at hgap
    contradiction

end Spaced

/-- What a token leaves begins with a separator, if anything is left. -/
theorem endsToken_of_cutToken {c d : Cursor} {token : List Char}
    (h : cutToken [] c = .ok (token, d)) : EndsToken d.rest := by
  obtain ⟨-, rfl⟩ := run_of_cutToken h
  intro ch hch
  rw [Cursor.rest_skipWhile] at hch
  have hnot := List.head?_dropWhile_not (fun ch => !(isSeparator ch || [].contains ch)) c.rest
  rw [hch] at hnot
  simpa using hnot

/-- What is cut off as an item and read is the text of an item. -/
theorem itemText_of_cutItem {c d : Cursor} {piece : Piece} {value : Value}
    (h : cutItem c = .ok (piece, d)) (hread : readItem piece = .ok value) :
    ∃ bare t, ItemText value bare t ∧ c.rest = t ++ d.rest ∧ (bare = true → EndsToken d.rest) := by
  rcases cutItem_eq_ok h with ⟨contents, rfl, -, htake⟩ | ⟨token, rfl, hquote, htake⟩
  · obtain ⟨mark, hmark, hcontents, hrest⟩ := Cursor.exists_of_takeQuoted htake
    obtain rfl := Except.ok.inj hread
    exact ⟨false, _, .quoted hmark hcontents, by simpa using hrest, by simp⟩
  · have hrest : c.rest = token ++ d.rest := rest_of_cutToken htake
    have hne : token ≠ [] := by
      rintro rfl
      have hempty : readItem (.bare []) = .error (.malformedScalar "") := rfl
      rw [hempty] at hread
      contradiction
    have hgap : ∀ ch ∈ token, isSeparator ch = false := by
      intro ch hch
      simpa using of_mem_cutToken htake ch hch
    have hstart : StopsBefore isQuoteMark token := by
      obtain ⟨first, more, rfl⟩ := List.exists_cons_of_ne_nil hne
      rw [Cursor.current?_of_rest hrest] at hquote
      exact stopsBefore_cons hquote more
    have hparse : Value.parse (String.ofList token) = .ok value := by
      rw [Value.parse, String.toList_ofList]
      exact hread
    exact ⟨true, token, .bare hne hgap hstart hparse, hrest, fun _ => endsToken_of_cutToken htake⟩

/-- Items that were all cut off and read stand in the text one after the other, with gaps before,
    between and after them. -/
theorem spaced_of_cutItems (c : Cursor) : ∀ values, (cutItems c).fault = none →
    List.Forall₂ (fun piece value => readItem piece = .ok value) (cutItems c).pieces values →
      ∃ gap body, (∀ ch ∈ gap, isSeparator ch = true) ∧ Spaced ItemText values body ∧
        c.rest = gap ++ body := by
  have hrun (c : Cursor) : ∀ ch ∈ c.rest.takeWhile isSeparator, isSeparator ch = true :=
    fun ch hch => List.mem_takeWhile_imp hch
  have hover (c : Cursor) : c.rest = c.rest.takeWhile isSeparator ++ c.skipGap.rest :=
    (Cursor.movesOver_skipWhile isSeparator c).rest
  fun_induction cutItems c with
  | case1 c hend =>
    intro values _ hread
    obtain rfl : values = [] := List.forall₂_nil_left_iff.1 hread
    refine ⟨c.rest.takeWhile isSeparator, [], hrun c, .nil, ?_⟩
    rw [← Cursor.atEnd_iff.1 hend]
    exact hover c
  | case2 c hend fault h =>
    intro values hfault
    contradiction
  | case3 c hend piece next h hlt ih =>
    intro values hfault hread
    obtain ⟨value, others, hpiece, hothers, rfl⟩ := List.forall₂_cons_left_iff.1 hread
    obtain ⟨bare, t, hitem, hrest, hends⟩ := itemText_of_cutItem h hpiece
    obtain ⟨gap, body, hgap, hspaced, hnext⟩ := ih others hfault hothers
    rw [hnext] at hrest hends
    refine ⟨c.rest.takeWhile isSeparator, t ++ gap ++ body, hrun c, ?_, ?_⟩
    · exact .cons hitem hgap (fun hbare => hspaced.gap_ne_nil (hends hbare)) hspaced
    · rw [List.append_assoc, ← hrest]
      exact hover c

/-- Primitives are built as they stand. -/
theorem buildItems_of_isPrimitive {items : List Value}
    (h : ∀ item ∈ items, item.isPrimitive = true) : Value.buildItems items = items := by
  induction items with
  | nil => rfl
  | cons item items ih =>
    rw [List.forall_mem_cons] at h
    rw [Value.buildItems, build_of_isPrimitive h.1, ih h.2]

/-- A text is a value list exactly if it is one by the grammar: items in brackets, with gaps of
    white space and commas before, between and after them, and one at least between a bare item
    and the next. The values are those of the items, in order. -/
theorem Value.parseList_eq_ok_iff (text : String) (values : List Value) :
    Value.parseList text = .ok values ↔
      ListText ItemText (.list values) false (trim text.toList) := by
  rw [Value.parseList]
  constructor
  · intro h
    cases hunwrap : unwrap? '[' ']' (trim text.toList) with
    | none =>
      rw [readValues_of_not_unwrap hunwrap] at h
      contradiction
    | some inner =>
      rw [readValues_of_unwrap hunwrap] at h
      obtain ⟨hfault, hread⟩ := Cut.readAll_eq_ok h
      obtain ⟨gap, body, hgap, hspaced, hrest⟩ := spaced_of_cutItems _ values hfault hread
      have hinner : inner = gap ++ body := hrest
      rw [eq_of_unwrap? hunwrap, hinner]
      exact .mk hgap hspaced
  · intro h
    rw [← readValues_trim]
    generalize trim text.toList = list at h ⊢
    cases h with
    | @mk _ gap body hgap hitems =>
      have hprimitive :
          ListText PrimitiveText (.list values) false ('[' :: (gap ++ body) ++ [']']) :=
        .mk hgap (hitems.imp fun _ _ _ hitem => hitem.primitiveText)
      have hvalues : ∀ value ∈ values, value.isPrimitive = true := by
        intro value hvalue
        obtain ⟨bare, t, hitem⟩ := hitems.exists_of_mem value hvalue
        exact hitem.isPrimitive
      rw [hprimitive.readValues, buildItems_of_isPrimitive hvalues]

/-- Quoted items may touch each other and a bare item after them. -/
example : Value.parseList " [,'a'\"b'\"-2 ,null\t] " =
    .ok [.string "a", .string "b'", .integer (-2), .null] := by
  decide +kernel

/-- A quote inside a bare token belongs to the token, which is then no scalar. -/
example : Value.parseList "[1'a']" = .error (.malformedScalar "1'a'") := by
  decide +kernel

end FindSelect
