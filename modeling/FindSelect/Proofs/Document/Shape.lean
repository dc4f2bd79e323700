import FindSelect.Proofs.Document.Cutting
import FindSelect.Proofs.Document.Insertion
import FindSelect.Proofs.Document.Reader

namespace FindSelect

open Text

section Shape

variable (Key : String → Prop) (Leaf : Value → Prop)

/-- Entries with distinct keys, each of which is a `Key`. -/
structure Keyed (entries : List (String × Value)) : Prop where
  nodup : (entries.map Prod.fst).Nodup
  keys : ∀ entry ∈ entries, Key entry.1

/-- The operands of operators: leaves and flat lists of leaves. -/
inductive OperandShape : Value → Prop where
  | leaf {value : Value} (h : Leaf value) : OperandShape value
  | list {items : List Value} (h : ∀ item ∈ items, Leaf item) : OperandShape (.list items)

/-- The values of documents: leaves, operator maps, and lists of documents whose values are
    such values again, to any depth. -/
inductive ValueShape : Value → Prop where
  | leaf {value : Value} (h : Leaf value) : ValueShape value
  | operators {entries : List (String × Value)} (hkeys : Keyed Key entries)
      (hvalues : ∀ entry ∈ entries, OperandShape Leaf entry.2) : ValueShape (.document entries)
  | conditions {documents : List (List (String × Value))}
      (hkeys : ∀ entries ∈ documents, Keyed Key entries)
      (hvalues : ∀ entries ∈ documents, ∀ entry ∈ entries, ValueShape entry.2) :
      ValueShape (.list (documents.map .document))

/-- The entries of query documents. -/
structure DocumentShape (entries : List (String × Value)) : Prop where
  keyed : Keyed Key entries
  values : ∀ entry ∈ entries, ValueShape Key Leaf entry.2

end Shape

/-- A key that is not empty, and that holds no blank, comma or colon unless it stands in double
    quotes, with those inside it doubled. -/
def IsKey (key : String) : Prop :=
  key ≠ "" ∧ ((∀ c ∈ key.toList, isBlank c = false ∧ c ≠ ',' ∧ c ≠ ':') ∨
    ∃ name, key = String.ofList (quotedWith '"' name))

/-- A primitive whose number, if it is one, is finite. -/
def IsScalar (value : Value) : Prop :=
  value.isPrimitive = true ∧ ∀ x, value = .float x → x.isFinite = true

theorem not_isScalar_list (items : List Value) : ¬ IsScalar (.list items) :=
  fun h => absurd h.1 (by simp [Value.isPrimitive])

theorem not_isScalar_document (entries : List (String × Value)) : ¬ IsScalar (.document entries) :=
  fun h => absurd h.1 (by simp [Value.isPrimitive])

/-- The numbers that are read are finite. -/
theorem isScalar_of_readScalar {text : List Char} {value : Value}
    (h : readScalar text = .ok value) : IsScalar value := by
  refine ⟨isPrimitive_of_readScalar h, ?_⟩
  rintro x rfl
  have houtcome := scalarOutcome_readScalar text
  rw [h] at houtcome
  cases houtcome with
  | float _ _ hfinite => exact hfinite

theorem isScalar_string (s : String) : IsScalar (.string s) := ⟨rfl, by simp⟩

/-- The items of a list of primitives are scalars. -/
theorem isScalar_of_readItem {piece : Piece} {value : Value} (h : readItem piece = .ok value) :
    IsScalar value := by
  cases piece with
  | quoted contents =>
    obtain rfl := Except.ok.inj h
    exact isScalar_string _
  | _ => exact isScalar_of_readScalar h

/-- No character of a bare token ends it. -/
theorem of_mem_cutToken {stops token : List Char} {c d : Cursor}
    (h : cutToken stops c = .ok (token, d)) :
    ∀ ch ∈ token, (isSeparator ch || stops.contains ch) = false := by
  intro ch hch
  rw [(run_of_cutToken h).1] at hch
  simpa using List.mem_takeWhile_imp hch

/-- An identifier is a key, with quotes or without. -/
theorem isKey_identifier {name : List Char} (h : identifier name ≠ "") :
    IsKey (identifier name) := by
  refine ⟨h, ?_⟩
  by_cases hplain : Plain name
  · left
    rw [identifier_of_plain hplain, String.toList_ofList]
    intro c hc
    have hc := hplain c hc
    exact ⟨isBlank_eq_false_of_isPlain hc, ne_of_isPlain hc (by decide +kernel),
      ne_of_isPlain hc (by decide +kernel)⟩
  · exact .inr ⟨name, identifier_of_not_plain hplain⟩

/-- A key that is cut off has the form of a key unless it is empty. -/
theorem isKey_of_cutKey {c d : Cursor} {key : String} (h : cutKey c = .ok (key, d))
    (hkey : key ≠ "") : IsKey key := by
  rcases cutKey_eq_ok h with ⟨name, rfl, -⟩ | ⟨token, rfl, -, htoken⟩
  · exact isKey_identifier hkey
  · refine ⟨hkey, .inl ?_⟩
    rw [String.toList_ofList]
    intro ch hch
    have hkept := of_mem_cutToken htoken ch hch
    simpa [isSeparator, and_assoc] using hkept

/-- The keys of the entries that are cut are keys. -/
theorem isKey_of_mem_cutEntries (kind : Mapping) (c : Cursor) :
    ∀ entry ∈ (cutEntries kind c).pieces, IsKey entry.1 := by
  fun_induction cutEntries kind c with
  | case1 => simp [Cut.done]
  | case2 => simp [Cut.stopped]
  | case3 c hend entry next h hlt ih =>
    obtain ⟨atColon, atValue, hkey, hne, -⟩ := cutEntry_eq_ok h
    exact Cut.forall_mem_cons (isKey_of_cutKey hkey hne) ih

/-- A mapping that is read has keys, and each of its values comes from a shorter piece. -/
theorem readMap_eq_ok {kind : Mapping} {text : List Char}
    {read : Piece → Except SyntaxError Value} {d : Document}
    (h : readMap kind text (fun piece _ => read piece) = .ok d) :
    Keyed IsKey d.entries ∧ ∀ entry ∈ d.entries, ∃ piece : Piece,
      piece.length < text.length ∧ read piece = .ok entry.2 := by
  cases hunwrap : unwrap? '{' '}' (trim text) with
  | none =>
    rw [readMap_of_not_unwrap hunwrap] at h
    contradiction
  | some inner =>
    rw [readMap_of_unwrap hunwrap, map_eq_ok] at h
    obtain ⟨entries, hentries, rfl⟩ := h
    obtain ⟨-, hread⟩ := Cut.readAll_eq_ok hentries
    have hcut : ∀ entry ∈ (Document.ofEntries entries).entries,
        ∃ piece ∈ (cutEntries kind (.start inner)).pieces,
          piece.1 = entry.1 ∧ read piece.2 = .ok entry.2 := by
      intro entry hentry
      obtain ⟨piece, hpiece, hresult⟩ :=
        exists_of_mem_right hread (Document.mem_of_mem_ofEntries hentry)
      obtain ⟨value, hvalue, hpair⟩ := bind_eq_ok.1 hresult
      obtain rfl := Except.ok.inj hpair
      exact ⟨piece, hpiece, rfl, hvalue⟩
    refine ⟨⟨(Document.ofEntries entries).nodup_keys, ?_⟩, ?_⟩
    · intro entry hentry
      obtain ⟨piece, hpiece, hkey, -⟩ := hcut entry hentry
      exact hkey ▸ isKey_of_mem_cutEntries kind _ piece hpiece
    · intro entry hentry
      obtain ⟨piece, hpiece, -, hvalue⟩ := hcut entry hentry
      refine ⟨piece.2, ?_, hvalue⟩
      exact lt_length_of_unwrap? hunwrap (length_le_of_mem_cutEntries kind _ piece hpiece)

/-- A list of primitives that is read holds scalars only. -/
theorem isScalar_of_readValues {text : List Char} {items : List Value}
    (h : readValues text = .ok items) : ∀ item ∈ items, IsScalar item := by
  cases hunwrap : unwrap? '[' ']' (trim text) with
  | none =>
    rw [readValues_of_not_unwrap hunwrap] at h
    contradiction
  | some inner =>
    rw [readValues_of_unwrap hunwrap] at h
    obtain ⟨-, hread⟩ := Cut.readAll_eq_ok h
    intro item hitem
    obtain ⟨piece, -, hpiece⟩ := exists_of_mem_right hread hitem
    exact isScalar_of_readItem hpiece

/-- The value of an operator is a scalar or a flat list of scalars. -/
theorem operandShape_of_readOperatorValue {piece : Piece} {value : Value}
    (h : readOperatorValue piece = .ok value) : OperandShape IsScalar value := by
  cases piece with
  | quoted contents =>
    obtain rfl := Except.ok.inj h
    exact .leaf (isScalar_string _)
  | braced span => contradiction
  | bracketed span =>
    obtain ⟨items, hitems, rfl⟩ := map_eq_ok.1 h
    exact .list (isScalar_of_readValues hitems)
  | bare token => exact .leaf (isScalar_of_readScalar h)

/-- An operator map that is read has keys, and operands for values. -/
theorem operandShape_of_readOperators {text : List Char} {d : Document}
    (h : readOperators text = .ok d) :
    Keyed IsKey d.entries ∧ ∀ entry ∈ d.entries, OperandShape IsScalar entry.2 := by
  rw [readOperators] at h
  obtain ⟨hkeys, hvalues⟩ := readMap_eq_ok h
  refine ⟨hkeys, ?_⟩
  intro entry hentry
  obtain ⟨piece, -, hpiece⟩ := hvalues entry hentry
  exact operandShape_of_readOperatorValue hpiece

/-- The documents of a condition list come from shorter texts. -/
theorem readConditions_eq_ok {text : List Char} {documents : List Document}
    (h : readConditions text = .ok documents) :
    ∀ d ∈ documents, ∃ span, span.length < text.length ∧ readDocument span = .ok d := by
  cases hunwrap : unwrap? '[' ']' (trim text) with
  | none =>
    rw [readConditions_of_not_unwrap hunwrap] at h
    contradiction
  | some inner =>
    rw [readConditions_of_unwrap hunwrap] at h
    obtain ⟨-, hread⟩ := Cut.readAll_eq_ok h
    intro d hd
    obtain ⟨span, hspan, hdocument⟩ := exists_of_mem_right hread hd
    exact ⟨span, lt_length_of_unwrap? hunwrap (length_le_of_mem_cutConditions _ span hspan),
      hdocument⟩

/-- Every document that is read has the shape of a query document. The induction is on the
    length of the text. -/
theorem documentShape_of_readDocument (n : Nat) : ∀ (text : List Char) (d : Document),
    text.length < n → readDocument text = .ok d → DocumentShape IsKey IsScalar d.entries := by
  induction n with
  | zero =>
    intro text d hlength
    omega
  | succ n ih =>
    intro text d hlength h
    rw [readDocument_eq] at h
    split at h
    · obtain rfl := Except.ok.inj h
      exact ⟨⟨List.nodup_nil, by simp [Document.empty]⟩, by simp [Document.empty]⟩
    obtain ⟨hkeys, hvalues⟩ := readMap_eq_ok h
    refine ⟨hkeys, ?_⟩
    intro entry hentry
    obtain ⟨piece, hshort, hpiece⟩ := hvalues entry hentry
    cases piece with
    | quoted contents =>
      rw [← Except.ok.inj hpiece]
      exact .leaf (isScalar_string _)
    | braced span =>
      obtain ⟨operators, hoperators, hvalue⟩ := map_eq_ok.1 hpiece
      obtain ⟨hkeys, hoperands⟩ := operandShape_of_readOperators hoperators
      rw [← hvalue]
      exact .operators hkeys hoperands
    | bracketed span =>
      obtain ⟨documents, hdocuments, hvalue⟩ := map_eq_ok.1 hpiece
      -- The documents of a list are read from shorter texts, and only they are documents again.
      have hshape : ∀ d ∈ documents, DocumentShape IsKey IsScalar d.entries := by
        intro d hd
        obtain ⟨element, helement, hread⟩ := readConditions_eq_ok hdocuments d hd
        simp only [Piece.length] at hshort
        exact ih element d (by omega) hread
      have hlist : entry.2 = .list ((documents.map Document.entries).map .document) := by
        rw [← hvalue, List.map_map]
        rfl
      rw [hlist]
      refine .conditions ?_ ?_
      · rw [List.forall_mem_map]
        exact fun d hd => (hshape d hd).keyed
      · rw [List.forall_mem_map]
        exact fun d hd => (hshape d hd).values
    | bare token => exact .leaf (isScalar_of_readScalar hpiece)

/-- Every document that a text describes has the shape of a query document. -/
theorem Document.shape_of_parse {text : String} {d : Document}
    (h : Document.parse text = .ok d) : DocumentShape IsKey IsScalar d.entries :=
  documentShape_of_readDocument (text.toList.length + 1) text.toList d (Nat.lt_succ_self _) h

end FindSelect
