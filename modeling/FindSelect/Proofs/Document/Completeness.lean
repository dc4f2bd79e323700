import FindSelect.Proofs.Document.Cutting
import FindSelect.Proofs.Document.Reader

namespace FindSelect

open Text

section Spans

variable {α : Type} {inner : List Char} {item : α}

/-- Balanced text in braces is cut off as one span. -/
theorem cuttable_braced {R : Piece → α → Prop} (hinner : Balanced inner)
    (h : R (.braced ('{' :: inner ++ ['}'])) item) :
    Cuttable cutPiece R item false ('{' :: inner ++ ['}']) := by
  refine ⟨⟨'{', _, rfl, by decide⟩, .enclosed braces hinner, _, h, ?_⟩
  intro c rest hrest _
  have hparts : c.rest = '{' :: inner ++ '}' :: rest := by simpa using hrest
  obtain ⟨d, hd, hmore⟩ := Cursor.takeEnclosed_of_rest braces hinner hparts
  refine ⟨d, ?_, hmore⟩
  rw [cutPiece, if_pos (Cursor.current?_of_rest hparts), hd]
  rfl

/-- Balanced text in brackets is cut off as one span. -/
theorem cuttable_bracketed {R : Piece → α → Prop} (hinner : Balanced inner)
    (h : R (.bracketed ('[' :: inner ++ [']'])) item) :
    Cuttable cutPiece R item false ('[' :: inner ++ [']']) := by
  refine ⟨⟨'[', _, rfl, by decide⟩, .enclosed squares hinner, _, h, ?_⟩
  intro c rest hrest _
  have hparts : c.rest = '[' :: inner ++ ']' :: rest := by simpa using hrest
  have hcurrent : c.current? = some '[' := Cursor.current?_of_rest hparts
  have hbrace : c.current? ≠ some '{' := by
    rw [hcurrent]
    decide
  obtain ⟨d, hd, hmore⟩ := Cursor.takeEnclosed_of_rest squares hinner hparts
  refine ⟨d, ?_, hmore⟩
  rw [cutPiece, if_neg hbrace, if_pos hcurrent, hd]
  rfl

/-- Balanced text in braces is cut off as one span where only such spans count. -/
theorem cuttable_span {R : List Char → α → Prop} (hinner : Balanced inner)
    (h : R ('{' :: inner ++ ['}']) item) :
    Cuttable (fun c => closed (c.takeEnclosed '{' '}')) R item false ('{' :: inner ++ ['}']) := by
  refine ⟨⟨'{', _, rfl, by decide⟩, .enclosed braces hinner, _, h, ?_⟩
  intro c rest hrest _
  obtain ⟨d, hd, hmore⟩ := Cursor.takeEnclosed_of_rest braces hinner (by simpa using hrest)
  refine ⟨d, ?_, hmore⟩
  rw [hd]
  rfl

end Spans

theorem cutEntries_done (kind : Mapping) (c : Cursor) (h : c.skipGap.atEnd = true) :
    cutEntries kind c = .done := by
  rw [cutEntries, dif_pos h]

theorem cutItems_done (c : Cursor) (h : c.skipGap.atEnd = true) : cutItems c = .done := by
  rw [cutItems, dif_pos h]

theorem cutConditions_done (c : Cursor) (h : c.skipGap.atEnd = true) : cutConditions c = .done := by
  rw [cutConditions, dif_pos h]

/-- The entry under the cursor comes first, and then those ahead of the cursor that it leaves. -/
theorem cutEntries_step (kind : Mapping) (c d : Cursor) (entry : String × Piece)
    (hend : c.skipGap.atEnd = false) (h : cutEntry kind c.skipGap = .ok (entry, d)) :
    cutEntries kind c = (cutEntries kind d).cons entry := by
  rw [cutEntries, dif_neg (by simp [hend])]
  split
  · rename_i hcut
    rw [h] at hcut
    contradiction
  · rename_i hcut
    rw [h] at hcut
    obtain ⟨rfl, rfl⟩ := Prod.mk.inj (Except.ok.inj hcut)
    rfl

theorem cutItems_step (c d : Cursor) (piece : Piece) (hend : c.skipGap.atEnd = false)
    (h : cutItem c.skipGap = .ok (piece, d)) : cutItems c = (cutItems d).cons piece := by
  rw [cutItems, dif_neg (by simp [hend])]
  split
  · rename_i hcut
    rw [h] at hcut
    contradiction
  · rename_i hcut
    rw [h] at hcut
    obtain ⟨rfl, rfl⟩ := Prod.mk.inj (Except.ok.inj hcut)
    rfl

/-- What a step through a condition list cuts off comes first. -/
theorem cutConditions_next (c d : Cursor) (spans : List (List Char))
    (hend : c.skipGap.atEnd = false) (h : cutCondition c.skipGap = .ok (spans, d)) :
    cutConditions c = (cutConditions d).prepend spans := by
  rw [cutConditions, dif_neg (by simp [hend])]
  split
  · rename_i hcut
    rw [h] at hcut
    contradiction
  · rename_i hcut
    rw [h] at hcut
    obtain ⟨rfl, rfl⟩ := Prod.mk.inj (Except.ok.inj hcut)
    rfl

/-- The span of a document under the cursor comes first. -/
theorem cutConditions_step (c d : Cursor) (span : List Char) (hend : c.skipGap.atEnd = false)
    (h : closed (c.skipGap.takeEnclosed '{' '}') = .ok (span, d)) :
    cutConditions c = (cutConditions d).cons span := by
  have hcurrent : c.skipGap.current? = some '{' := by
    by_contra hne
    rw [Cursor.takeEnclosed, if_neg hne] at h
    contradiction
  have hstep : cutCondition c.skipGap = .ok ([span], d) := by
    rw [cutCondition, if_pos hcurrent, h]
    rfl
  exact cutConditions_next c d [span] hend hstep

/-- Entries that are read as those of a syntax tree are read as the entries that it builds. -/
theorem forall₂_buildEntries {read : Piece → Except SyntaxError Value}
    {pieces : List (String × Piece)} {entries : List (String × Value)}
    (h : List.Forall₂ (EntryReadsAs read) pieces entries) :
    List.Forall₂ (fun piece entry => (do return (piece.1, ← read piece.2)) = .ok entry) pieces
      (Value.buildEntries entries) := by
  induction h with
  | nil => exact .nil
  | @cons piece entry pieces entries hpiece _ ih =>
    obtain ⟨hkey, hread⟩ := hpiece
    refine .cons ?_ ih
    rw [hkey, hread]
    rfl

theorem forall₂_buildItems {α : Type} {read : α → Except SyntaxError Value} {pieces : List α}
    {items : List Value}
    (h : List.Forall₂ (fun piece item => read piece = .ok item.build) pieces items) :
    List.Forall₂ (fun piece item => read piece = .ok item) pieces (Value.buildItems items) := by
  induction h with
  | nil => exact .nil
  | cons hpiece _ ih => exact .cons hpiece ih

/-- A mapping is read as the document of its syntax tree if its values are. -/
theorem MapText.readMap {kind : Mapping} {Item : Value → Bool → List Char → Prop}
    {read : Piece → Except SyntaxError Value} {entries : List (String × Value)} {bare : Bool}
    {whole text : List Char} (h : MapText kind Item (.document entries) bare text)
    (hitem : ∀ value bare t, Item value bare t → t.length < text.length →
      Cuttable cutPiece (ReadsAs read) value bare t)
    (htrim : trim whole = text) :
    readMap kind whole (fun piece _ => read piece) =
      .ok (Document.ofEntries (Value.buildEntries entries)) := by
  cases h with
  | @mk _ gap t hgap hentries =>
    obtain ⟨pieces, hpieces, hcut⟩ := hentries.cut (cutEntries_done kind) (cutEntries_step kind)
      fun entry bare t' hentry hlength => hentry.cuttable fun value bare t'' hvalue hlength' =>
        hitem value bare t'' hvalue (by simp; omega)
    have hloop := hcut (.start (gap ++ t)) gap hgap rfl
    have hunwrap : unwrap? '{' '}' (trim whole) = some (gap ++ t) := by
      rw [htrim, unwrap?_brackets]
    rw [readMap_of_unwrap hunwrap, hloop, Cut.readAll_of_forall₂ (forall₂_buildEntries hpieces)]
    rfl

/-- White space around a mapping is what trimming takes off. -/
theorem MapText.trim_eq {kind : Mapping} {Item : Value → Bool → List Char → Prop} {value : Value}
    {bare : Bool} {text before after : List Char} (h : MapText kind Item value bare text)
    (hbefore : ∀ c ∈ before, isBlank c = true) (hafter : ∀ c ∈ after, isBlank c = true) :
    trim (before ++ text ++ after) = text := by
  cases h with
  | mk => exact trim_enclosed braces hbefore hafter

/-- The text between brackets is balanced if its items are. -/
theorem Spaced.balanced_gap {α : Type} {Item : α → Bool → List Char → Prop} {items : List α}
    {gap text : List Char} (h : Spaced Item items text) (hgap : ∀ c ∈ gap, isSeparator c = true)
    (hitem : ∀ item bare t, Item item bare t → t.length ≤ text.length → Balanced t) :
    Balanced (gap ++ text) :=
  .append (balanced_of_separators fun c hc => .inl (hgap c hc)) (h.balanced hitem)

/-- The text of a mapping is balanced text in braces. -/
theorem MapText.exists_balanced {kind : Mapping} {Item : Value → Bool → List Char → Prop}
    {read : Piece → Except SyntaxError Value} {value : Value} {bare : Bool} {text : List Char}
    (h : MapText kind Item value bare text)
    (hitem : ∀ value bare t, Item value bare t → t.length < text.length →
      Cuttable cutPiece (ReadsAs read) value bare t) :
    bare = false ∧ (∃ entries, value = .document entries) ∧
      ∃ inner, text = '{' :: inner ++ ['}'] ∧ Balanced inner := by
  cases h with
  | @mk entries gap t hgap hentries =>
    refine ⟨rfl, ⟨entries, rfl⟩, gap ++ t, rfl, hentries.balanced_gap hgap ?_⟩
    intro entry bare t' hentry hlength
    have hcut := hentry.cuttable fun value bare t'' hvalue hlength' =>
      hitem value bare t'' hvalue (by simp; omega)
    exact hcut.balanced

/-- A primitive is cut off as an item, and read as itself. -/
theorem PrimitiveText.readItem {value : Value} {bare : Bool} {text : List Char}
    (h : PrimitiveText value bare text) :
    Cuttable cutItem (ReadsAs FindSelect.readItem) value bare text :=
  h.cuttable (fun _ _ _ => rfl) (fun _ => rfl) (fun _ => rfl)

/-- A list of primitives is read as its items. -/
theorem ListText.readValues {items : List Value} {bare : Bool} {text : List Char}
    (h : ListText PrimitiveText (.list items) bare text) :
    readValues text = .ok (Value.buildItems items) := by
  cases h with
  | @mk _ gap t hgap hitems =>
    obtain ⟨pieces, hpieces, hcut⟩ := hitems.cut cutItems_done cutItems_step
      fun item bare t' hitem _ => hitem.readItem
    rw [readValues_of_unwrap (unwrap?_trim_brackets squares (gap ++ t)),
      hcut (.start (gap ++ t)) gap hgap rfl, Cut.readAll_of_forall₂ (forall₂_buildItems hpieces)]

/-- An operand is cut off and read as its syntax tree says. -/
theorem OperandText.cuttable {value : Value} {bare : Bool} {text : List Char}
    (h : OperandText value bare text) :
    Cuttable cutPiece (ReadsAs readOperatorValue) value bare text := by
  cases h with
  | primitive h =>
    exact h.cuttable (fun c => cutPiece_eq_cutItem) (fun _ => rfl) (fun _ => rfl)
  | list h =>
    cases h with
    | @mk items gap t hgap hitems =>
      have hbalanced : Balanced (gap ++ t) :=
        hitems.balanced_gap hgap fun item bare t' hitem _ => hitem.readItem.balanced
      refine cuttable_bracketed hbalanced ?_
      rw [ReadsAs, readOperatorValue, ListText.readValues (.mk hgap hitems), Value.build]
      rfl

/-- A span that is read as the document of a syntax tree. -/
def DocumentReadsAs (span : List Char) (tree : Value) : Prop :=
  ∃ d, readDocument span = .ok d ∧ d.toValue = tree.build

/-- A mapping whose values are read as their syntax trees is read as the document of its tree. -/
theorem MapText.readDocument {entries : List (String × Value)} {bare : Bool}
    {whole text : List Char} (h : MapText .document ValueText (.document entries) bare text)
    (hitem : ∀ value bare t, ValueText value bare t → t.length < text.length →
      Cuttable cutPiece (ReadsAs readDocumentValue) value bare t)
    (htrim : trim whole = text) :
    readDocument whole = .ok (Document.ofEntries (Value.buildEntries entries)) := by
  have hne : trim whole ≠ [] := by
    rw [htrim]
    cases h
    simp
  rw [readDocument_eq, if_neg hne]
  exact h.readMap hitem htrim

/-- Spans that are read as the documents of syntax trees are read one by one, in order. -/
theorem exists_documents {spans : List (List Char)} {items : List Value}
    (h : List.Forall₂ DocumentReadsAs spans items) :
    ∃ documents, List.Forall₂ (fun span d => readDocument span = .ok d) spans documents ∧
      documents.map Document.toValue = Value.buildItems items := by
  induction h with
  | nil => exact ⟨[], .nil, rfl⟩
  | cons hspan _ ih =>
    obtain ⟨d, hd, hvalue⟩ := hspan
    obtain ⟨documents, hdocuments, hvalues⟩ := ih
    refine ⟨d :: documents, .cons hd hdocuments, ?_⟩
    rw [List.map_cons, hvalue, hvalues, Value.buildItems]

/-- A document of a list is cut off and read as its syntax tree says if its values are. -/
theorem MapText.cuttable {value : Value} {bare : Bool} {text : List Char}
    (h : MapText .document ValueText value bare text)
    (hitem : ∀ value bare t, ValueText value bare t → t.length < text.length →
      Cuttable cutPiece (ReadsAs readDocumentValue) value bare t) :
    Cuttable (fun c => closed (c.takeEnclosed '{' '}')) DocumentReadsAs value bare text := by
  obtain ⟨rfl, ⟨entries, rfl⟩, inner, rfl, hbalanced⟩ := h.exists_balanced hitem
  refine cuttable_span hbalanced ⟨_, h.readDocument hitem (trim_brackets braces inner), ?_⟩
  rw [Value.build]

/-- A list of documents is read as its syntax tree says if the values of the documents are. -/
theorem ListText.readConditions {items : List Value} {bare : Bool} {text : List Char}
    (h : ListText (MapText .document ValueText) (.list items) bare text)
    (hitem : ∀ value bare t, ValueText value bare t → t.length < text.length →
      Cuttable cutPiece (ReadsAs readDocumentValue) value bare t) :
    ∃ documents, readConditions text = .ok documents ∧
      documents.map Document.toValue = Value.buildItems items := by
  cases h with
  | @mk _ gap t hgap hitems =>
    obtain ⟨spans, hspans, hcut⟩ := hitems.cut cutConditions_done cutConditions_step
      fun item bare t' hmap hlength => hmap.cuttable fun value bare t'' hvalue hlength' =>
        hitem value bare t'' hvalue (by simp; omega)
    obtain ⟨documents, hdocuments, hvalues⟩ := exists_documents hspans
    refine ⟨documents, ?_, hvalues⟩
    rw [readConditions_of_unwrap (unwrap?_trim_brackets squares (gap ++ t)),
      hcut (.start (gap ++ t)) gap hgap rfl, Cut.readAll_of_forall₂ hdocuments]

/-- A value of a document is cut off and read as its syntax tree says. The induction is on
    the length of the text, which bounds the depth of the tree. -/
theorem ValueText.cuttable (n : Nat) : ∀ (value : Value) (bare : Bool) (text : List Char),
    ValueText value bare text → text.length < n →
      Cuttable cutPiece (ReadsAs readDocumentValue) value bare text := by
  induction n with
  | zero =>
    intro value bare text _ hlength
    omega
  | succ n ih =>
    intro value bare text h hlength
    cases h with
    | primitive h =>
      exact h.cuttable (fun c => cutPiece_eq_cutItem) (fun _ => rfl) (fun _ => rfl)
    | operators h =>
      have hitem (value : Value) (bare : Bool) (t : List Char) (hvalue : OperandText value bare t)
          (_ : t.length < text.length) := hvalue.cuttable
      obtain ⟨rfl, ⟨entries, rfl⟩, inner, rfl, hbalanced⟩ := h.exists_balanced hitem
      refine cuttable_braced hbalanced ?_
      rw [ReadsAs, readDocumentValue, readOperators,
        h.readMap hitem (trim_brackets braces inner), Value.build]
      rfl
    | conditions h =>
      have hinner (value : Value) (bare : Bool) (t : List Char) (hvalue : ValueText value bare t)
          (ht : t.length < text.length) := ih value bare t hvalue (by omega)
      cases h with
      | @mk items gap t hgap hitems =>
        have hbalanced : Balanced (gap ++ t) := by
          refine hitems.balanced_gap hgap fun item bare t' hmap hshort => ?_
          have hcut := hmap.cuttable fun value bare t'' hvalue hlt =>
            hinner value bare t'' hvalue (by simp; omega)
          exact hcut.balanced
        refine cuttable_bracketed hbalanced ?_
        obtain ⟨documents, hread, hvalues⟩ := ListText.readConditions (.mk hgap hitems) hinner
        rw [ReadsAs, readDocumentValue, hread, Value.build, ← hvalues]
        rfl

/-- Every text of a syntax tree is read, whatever its layout, as the document that results
    when the entries of the tree are inserted in order. -/
theorem Document.parse_layout (entries : List (String × Value)) (text : String)
    (h : DocumentText entries text.toList) :
    Document.parse text = .ok (Document.ofEntries (Value.buildEntries entries)) := by
  obtain ⟨before, inner, after, hbefore, hafter, hinner, htext⟩ := h
  rw [Document.parse, htext]
  refine hinner.readDocument ?_ (hinner.trim_eq hbefore hafter)
  intro value bare t hvalue hlength
  exact ValueText.cuttable inner.length value bare t hvalue hlength

/-- A syntax tree with a repeated name, a name to be quoted, and brackets in strings. -/
def nestedQuery : List (String × Value) :=
  [("a b", .string "\x7d'"),
    ("$or", .list [.document [("n", .integer 1),
      ("n", .document [("$in", .list [.string "[", .integer (-2)])])]])]

/-- A text of that tree, with gaps of several kinds and none where none is needed. -/
def nestedText : String :=
  "\t\x7b'a b':\"\x7d'\"$or::[\x7bn:1,n \x7b$in : ['['-2]\x7d\x7d]\x7d\n"

/-- The text is one of the tree: each entry with its key and its gaps, from the inside out. -/
theorem documentText_nestedQuery : DocumentText nestedQuery nestedText.toList := by
  have hcolon : ∀ c ∈ [':'], (isBlank c || c == ':') = true := List.all_eq_true.1 rfl
  have hspace : ∀ c ∈ [' '], isBlank c = true := List.all_eq_true.1 rfl
  have hquoted : EntryText .document ValueText ("a b", .string "\x7d'") false
      ("'a b'".toList ++ [':'] ++ "\"\x7d'\"".toList) :=
    .mk (.document (.quoted (by decide) (by decide) (by decide)) hcolon (by decide))
      (.primitive (.quoted (by decide) (by decide)))
  have hnumber : EntryText .document ValueText ("n", .integer 1) true (['n'] ++ [':'] ++ ['1']) :=
    .mk (.document (.bare (by decide) (by decide +kernel)) hcolon (by decide))
      (.primitive (.bare (by decide) (by simp [isBlank]) (by decide +kernel)))
  have hmembers : OperandText (.list [.string "[", .integer (-2)]) false
      ('[' :: ([] ++ ("'['".toList ++ [] ++ ("-2".toList ++ [] ++ []))) ++ [']']) :=
    .list (.mk (by simp) (.cons (.quoted (by decide) (by decide)) (by simp) (by simp)
      (.cons (.bare (by decide) (by simp [isBlank]) (by decide +kernel)) (by simp) (by simp) .nil)))
  have hin : EntryText .operators OperandText ("$in", .list [.string "[", .integer (-2)]) false
      ("$in".toList ++ [' '] ++ ':' :: [' '] ++ "['['-2]".toList) :=
    .mk (.operators (.bare (by decide) (by decide +kernel)) hspace hspace) hmembers
  have hoperators : EntryText .document ValueText
      ("n", .document [("$in", .list [.string "[", .integer (-2)])]) false
      (['n'] ++ [' '] ++ ('{' :: ([] ++ ("$in : ['['-2]".toList ++ [] ++ [])) ++ ['}'])) :=
    .mk (.document (.bare (by decide) (by decide +kernel)) (List.all_eq_true.1 rfl) (by decide))
      (.operators (.mk (by simp) (.cons hin (by simp) (by simp) .nil)))
  have hdocument : MapText .document ValueText (.document [("n", .integer 1),
      ("n", .document [("$in", .list [.string "[", .integer (-2)])])]) false
      ('{' :: ([] ++ ("n:1".toList ++ [','] ++
        ("n \x7b$in : ['['-2]\x7d".toList ++ [] ++ []))) ++ ['}']) :=
    .mk (by simp) (.cons hnumber (List.all_eq_true.1 rfl) (by simp)
      (.cons hoperators (by simp) (by simp) .nil))
  have hconditions : EntryText .document ValueText ("$or", .list [.document [("n", .integer 1),
      ("n", .document [("$in", .list [.string "[", .integer (-2)])])]]) false
      ("$or".toList ++ "::".toList ++
        ('[' :: ([] ++ ("\x7bn:1,n \x7b$in : ['['-2]\x7d\x7d".toList ++ [] ++ [])) ++ [']'])) :=
    .mk (.document (.bare (by decide) (by decide +kernel)) (List.all_eq_true.1 rfl) (by decide))
      (.conditions (.mk (by simp) (.cons hdocument (by simp) (by simp) .nil)))
  have hquery : MapText .document ValueText (.document nestedQuery) false
      ('{' :: ([] ++ ("'a b':\"\x7d'\"".toList ++ [] ++
        ("$or::[\x7bn:1,n \x7b$in : ['['-2]\x7d\x7d]".toList ++ [] ++ []))) ++ ['}']) :=
    .mk (by simp) (.cons hquoted (by simp) (by simp) (.cons hconditions (by simp) (by simp) .nil))
  exact ⟨['\t'], _, ['\n'], List.all_eq_true.1 rfl, List.all_eq_true.1 rfl, hquery, rfl⟩

theorem Document.parse_nestedQuery :
    DocumentText nestedQuery nestedText.toList ∧ Document.parse nestedText =
        .ok (Document.ofEntries [("\"a b\"", .string "\x7d'"), ("$or", .list [.document
          [("n", .document [("$in", .list [.string "[", .integer (-2)])])]])]) := by
  refine ⟨documentText_nestedQuery, ?_⟩
  rw [Document.parse_layout nestedQuery nestedText documentText_nestedQuery]
  decide +kernel

end FindSelect
