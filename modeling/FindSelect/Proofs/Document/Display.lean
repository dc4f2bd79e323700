import FindSelect.Proofs.Decimal.ReadBack
import FindSelect.Proofs.Document.Completeness
import FindSelect.Proofs.Document.Shape

namespace FindSelect

open Text

/-- A key that is read as it is written: a plain name, or one in double quotes that needs them
    and has none inside. -/
def IsWrittenKey (key : String) : Prop :=
  (key ≠ "" ∧ Plain key.toList) ∨
    ∃ name, ¬ Plain name ∧ '"' ∉ name ∧ key = String.ofList (quotedWith '"' name)

/-- A primitive that is read as it is written: no double quote stands in a string, and a number
    is finite. -/
def IsWrittenScalar (value : Value) : Prop :=
  value.isPrimitive = true ∧ (∀ s, value = .string s → '"' ∉ s.toList) ∧
    ∀ x, value = .float x → x.isFinite = true

theorem doubled_of_not_mem {mark : Char} {text : List Char} (h : mark ∉ text) :
    doubled mark text = text := by
  induction text with
  | nil => rfl
  | cons c text ih =>
    rw [List.mem_cons, not_or] at h
    have hc : ¬ c = mark := Ne.symm h.1
    rw [doubled, List.flatMap_cons, if_neg hc, ← doubled, ih h.2]
    rfl

/-- A written key is the text of the name that it stands for. -/
theorem IsWrittenKey.exists_name {key : String} (h : IsWrittenKey key) :
    ∃ name bare, NameText name bare key.toList ∧ identifier name.toList = key := by
  rcases h with ⟨hne, hplain⟩ | ⟨name, hplain, hquote, rfl⟩
  · refine ⟨key, true, ?_, ?_⟩
    · have htext := NameText.bare (by simpa using hne) hplain
      rwa [String.ofList_toList] at htext
    · rw [identifier_of_plain hplain, String.ofList_toList]
  · have hne : name ≠ [] := by
      rintro rfl
      exact hplain (by simp [Plain])
    refine ⟨String.ofList name, false, ?_, ?_⟩
    · rw [String.toList_ofList, quotedWith, doubled_of_not_mem hquote]
      exact .quoted rfl hne hquote
    · rw [String.toList_ofList, identifier_of_not_plain hplain]

/-- A written key with a colon and a space after it is a key of both kinds of mapping. -/
theorem IsWrittenKey.exists_keyText {key : String} (h : IsWrittenKey key) (kind : Mapping) :
    ∃ name, KeyText kind name (key ++ ": ").toList ∧ identifier name.toList = key := by
  obtain ⟨name, bare, hname, hkey⟩ := h.exists_name
  refine ⟨name, ?_, hkey⟩
  rw [String.toList_append]
  cases kind with
  | document => exact .document hname (by simp [isBlank]) (by simp)
  | operators =>
    have htext : KeyText .operators name (key.toList ++ [] ++ ':' :: [' ']) :=
      .operators hname (by simp) (by simp [isBlank])
    rwa [List.append_nil] at htext

/-- Whether the text of a value is a text of some syntax tree that stands for it. -/
def Displayed (Item : Value → Bool → List Char → Prop) (value : Value) : Prop :=
  ∃ tree bare, Item tree bare value.display.toList ∧ tree.build = value

/-- A primitive is displayed as a text of itself. -/
theorem IsWrittenScalar.displayed {value : Value} (h : IsWrittenScalar value) :
    Displayed PrimitiveText value := by
  obtain ⟨hprimitive, hstring, hfloat⟩ := h
  -- Every primitive but a string is one bare token.
  have hbare (hread : readScalar value.display.toList = .ok value)
      (hblank : ∀ c ∈ value.display.toList, isBlank c = false) : Displayed PrimitiveText value := by
    refine ⟨value, true, .bare ?_ hblank hread, build_of_isPrimitive hprimitive⟩
    intro hnil
    rw [hnil] at hread
    contradiction
  cases value with
  | null => exact hbare rfl (by simp [Value.display, isBlank])
  | boolean b =>
    cases b with
    | false => exact hbare rfl (by simp [Value.display, isBlank])
    | true => exact hbare rfl (by simp [Value.display, isBlank])
  | integer n =>
    rw [Value.display, String.toList_ofList] at hbare
    exact hbare (readScalar_writeInt n) (numeral_writeInt n.toInt).isBlank_eq_false
  | float x =>
    rw [Value.display, String.toList_ofList] at hbare
    exact hbare (readScalar_write (hfloat x rfl)) x.numeral_write.isBlank_eq_false
  | string s =>
    have htext := PrimitiveText.quoted (rfl : isQuoteMark '"' = true) (hstring s rfl)
    refine ⟨.string s, false, ?_, rfl⟩
    simpa [Value.display] using htext
  | list items => contradiction
  | document entries => contradiction

/-- Texts with a comma and a space between them are laid out as a sequence. -/
theorem exists_spaced {α β : Type} {Item : α → Bool → List Char → Prop} {R : α → β → Prop}
    {write : β → String} {values : List β}
    (h : ∀ value ∈ values, ∃ tree bare, Item tree bare (write value).toList ∧ R tree value) :
    ∃ trees, Spaced Item trees (", ".intercalate (values.map write)).toList ∧
      List.Forall₂ R trees values := by
  rw [String.toList_intercalate]
  induction values with
  | nil => exact ⟨[], .nil, .nil⟩
  | cons value values ih =>
    rw [List.forall_mem_cons] at h
    obtain ⟨tree, bare, hitem, htree⟩ := h.1
    obtain ⟨trees, hspaced, htrees⟩ := ih h.2
    refine ⟨tree :: trees, ?_, .cons htree htrees⟩
    cases values with
    | nil =>
      obtain rfl := List.forall₂_nil_right_iff.1 htrees
      have hone : Spaced Item [tree] ((write value).toList ++ [] ++ []) :=
        .cons hitem (by simp) (by simp) .nil
      simpa using hone
    | cons next values =>
      have hgap : ∀ c ∈ ", ".toList, isSeparator c = true := by simp [isSeparator, isBlank]
      have hmore := Spaced.cons hitem hgap (by simp) hspaced
      simpa [List.intercalate_cons_cons] using hmore

theorem buildItems_eq_of_forall₂ {trees values : List Value}
    (h : List.Forall₂ (fun tree value => tree.build = value) trees values) :
    Value.buildItems trees = values := by
  induction h with
  | nil => rfl
  | cons htree _ ih => rw [Value.buildItems, htree, ih]

theorem buildEntries_eq_of_forall₂ {trees entries : List (String × Value)}
    (h : List.Forall₂ (fun tree entry => identifier tree.1.toList = entry.1 ∧
      tree.2.build = entry.2) trees entries) :
    Value.buildEntries trees = entries := by
  induction h with
  | nil => rfl
  | cons htree _ ih => rw [Value.buildEntries, htree.1, htree.2, ih]

/-- A list is displayed as a text of itself if its items are. -/
theorem displayed_list {Item : Value → Bool → List Char → Prop} {items : List Value}
    (h : ∀ item ∈ items, Displayed Item item) : Displayed (ListText Item) (.list items) := by
  obtain ⟨trees, hspaced, htrees⟩ := exists_spaced h
  refine ⟨.list trees, false, ?_, ?_⟩
  · have htext := ListText.mk (List.forall_mem_nil _) hspaced
    simpa [Value.display, Value.displayItems_eq_map] using htext
  · rw [Value.build, buildItems_eq_of_forall₂ htrees]

/-- The text of a mapping is laid out as a mapping if the texts of its values are laid out. -/
theorem exists_mapText {kind : Mapping} {Item : Value → Bool → List Char → Prop}
    {entries : List (String × Value)} (hkeys : ∀ entry ∈ entries, IsWrittenKey entry.1)
    (hvalues : ∀ entry ∈ entries, Displayed Item entry.2) :
    ∃ trees, MapText kind Item (.document trees) false (Value.document entries).display.toList ∧
      Value.buildEntries trees = entries := by
  have hentries : ∀ entry ∈ entries, ∃ tree bare,
      EntryText kind Item tree bare (entry.1 ++ ": " ++ entry.2.display).toList ∧
        identifier tree.1.toList = entry.1 ∧ tree.2.build = entry.2 := by
    intro entry hentry
    obtain ⟨name, hname, hkey⟩ := (hkeys entry hentry).exists_keyText kind
    obtain ⟨tree, bare, htext, htree⟩ := hvalues entry hentry
    refine ⟨(name, tree), bare, ?_, hkey, htree⟩
    rw [String.toList_append]
    exact .mk hname htext
  obtain ⟨trees, hspaced, htrees⟩ := exists_spaced hentries
  refine ⟨trees, ?_, buildEntries_eq_of_forall₂ htrees⟩
  have htext := MapText.mk (List.forall_mem_nil _) hspaced
  simpa [Value.display, Value.displayEntries_eq_map] using htext

/-- A mapping is displayed as a text of itself if its keys and values are. -/
theorem displayed_map {kind : Mapping} {Item : Value → Bool → List Char → Prop}
    {entries : List (String × Value)} (hkeys : Keyed IsWrittenKey entries)
    (hvalues : ∀ entry ∈ entries, Displayed Item entry.2) :
    Displayed (MapText kind Item) (.document entries) := by
  obtain ⟨trees, htext, htrees⟩ := exists_mapText hkeys.keys hvalues
  refine ⟨.document trees, false, htext, ?_⟩
  rw [Value.build, htrees, Document.toValue, Document.entries_ofEntries hkeys.nodup]

theorem OperandShape.displayed {value : Value} (h : OperandShape IsWrittenScalar value) :
    Displayed OperandText value := by
  cases h with
  | leaf hleaf =>
    obtain ⟨tree, bare, htext, htree⟩ := hleaf.displayed
    exact ⟨tree, bare, .primitive htext, htree⟩
  | list hitems =>
    obtain ⟨tree, bare, htext, htree⟩ :=
      displayed_list fun item hitem => (hitems item hitem).displayed
    exact ⟨tree, bare, .list htext, htree⟩

/-- The text of a value of a document is laid out as such a value, to any depth. -/
theorem ValueShape.displayed {value : Value} (h : ValueShape IsWrittenKey IsWrittenScalar value) :
    Displayed ValueText value := by
  induction h with
  | leaf hleaf =>
    obtain ⟨tree, bare, htext, htree⟩ := hleaf.displayed
    exact ⟨tree, bare, .primitive htext, htree⟩
  | operators hkeys hoperands =>
    obtain ⟨tree, bare, htext, htree⟩ :=
      displayed_map hkeys fun entry hentry => (hoperands entry hentry).displayed
    exact ⟨tree, bare, .operators htext, htree⟩
  | @conditions documents hkeys _ ih =>
    have hdocuments : ∀ item ∈ documents.map Value.document,
        Displayed (MapText .document ValueText) item := by
      intro item hitem
      obtain ⟨entries, hentries, rfl⟩ := List.mem_map.1 hitem
      exact displayed_map (hkeys entries hentries) (ih entries hentries)
    obtain ⟨tree, bare, htext, htree⟩ := displayed_list hdocuments
    exact ⟨tree, bare, .conditions htext, htree⟩

/-- The text of a document is read as that document, with its entries in the same order and
    with integers and other numbers kept apart. -/
theorem Document.parse_display (d : Document)
    (h : DocumentShape IsWrittenKey IsWrittenScalar d.entries) :
    Document.parse d.display = .ok d := by
  obtain ⟨trees, htext, htrees⟩ :=
    exists_mapText h.keyed.keys fun entry hentry => (h.values entry hentry).displayed
  have hread : readDocument d.display.toList =
      .ok (Document.ofEntries (Value.buildEntries trees)) := by
    refine htext.readDocument ?_ ?_
    · intro value bare t hvalue hlength
      exact ValueText.cuttable _ value bare t hvalue hlength
    · have htrim := htext.trim_eq (List.forall_mem_nil _) (List.forall_mem_nil _)
      rwa [List.nil_append, List.append_nil] at htrim
  rw [Document.parse, hread, htrees, Document.ofEntries_entries]

/-- Operators with both extremes of the integers, a negative zero, and empty operands. -/
def writtenOperators : List (String × Value) :=
  [("$in", .list [.integer (-9223372036854775808), .integer 9223372036854775807,
    .float ⟨true, 0⟩, .string ""]), ("$nin", .list [])]

/-- A document with those operators below a quoted key, and with an empty document and map. -/
def writtenDocument : Document := .ofEntries
  [("$or", .list ([[("\"a: b\"", .document writtenOperators)], []].map .document)),
    ("m", .document []), ("n", .string "\x7d'")]

theorem documentShape_writtenDocument :
    DocumentShape IsWrittenKey IsWrittenScalar writtenDocument.entries := by
  have hplain {key : String} (hne : key ≠ "") (h : Plain key.toList) : IsWrittenKey key :=
    .inl ⟨hne, h⟩
  have hquoted : IsWrittenKey "\"a: b\"" :=
    .inr ⟨"a: b".toList, by decide +kernel, by decide, by decide⟩
  have hempty : Keyed IsWrittenKey [] := ⟨List.nodup_nil, by simp⟩
  have hoperators : ValueShape IsWrittenKey IsWrittenScalar (.document writtenOperators) := by
    refine .operators ⟨by decide, ?_⟩ ?_
    · simp only [writtenOperators, List.forall_mem_cons]
      exact ⟨hplain (by decide) (by decide +kernel), hplain (by decide) (by decide +kernel),
        by simp⟩
    · simp only [writtenOperators, List.forall_mem_cons]
      refine ⟨.list ?_, .list ?_, by simp⟩
      · simp [IsWrittenScalar, Value.isPrimitive, Binary64.isFinite, Binary64.infinite]
      · simp
  have hconditions : ValueShape IsWrittenKey IsWrittenScalar
      (.list ([[("\"a: b\"", .document writtenOperators)], []].map .document)) := by
    refine .conditions ?_ ?_
    · simp only [List.forall_mem_cons]
      exact ⟨⟨by simp, by simpa using hquoted⟩, hempty, by simp⟩
    · simpa using hoperators
  have hentries : writtenDocument.entries = _ := Document.entries_ofEntries (by decide)
  rw [hentries]
  refine ⟨⟨by decide, ?_⟩, ?_⟩
  · simp only [List.forall_mem_cons]
    exact ⟨hplain (by decide) (by decide +kernel), hplain (by decide) (by decide +kernel),
      hplain (by decide) (by decide +kernel), by simp⟩
  · simp only [List.forall_mem_cons]
    refine ⟨hconditions, .operators hempty (by simp), .leaf ?_, by simp⟩
    simp [IsWrittenScalar, Value.isPrimitive]

theorem Document.parse_display_written :
    DocumentShape IsWrittenKey IsWrittenScalar writtenDocument.entries ∧
      Document.parse writtenDocument.display = .ok writtenDocument :=
  ⟨documentShape_writtenDocument,
    Document.parse_display writtenDocument documentShape_writtenDocument⟩

end FindSelect
