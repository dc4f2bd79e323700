import FindSelect.Proofs.Document.History
import FindSelect.Proofs.Document.Rewriting
import FindSelect.Proofs.Document.Concatenation
import FindSelect.Proofs.Sql.Token

namespace FindSelect

open Text

/-- A text that does not begin with a double quote is not the key of a name that needs quotes. -/
theorem ofList_ne_identifier {name text : List Char} (hname : ¬ Plain name)
    (htext : text.head? ≠ some '"') : String.ofList text ≠ identifier name := by
  rw [identifier_of_not_plain hname]
  intro h
  have htext' : text = quotedWith '"' name := by simpa using congrArg String.toList h
  rw [htext'] at htext
  exact htext rfl

/-- A plain name does not begin with a quote. -/
theorem head?_ne_of_plain {name : List Char} (h : Plain name) : name.head? ≠ some '"' := by
  intro hhead
  obtain ⟨rest, hrest⟩ := List.head?_eq_some_iff.1 hhead
  exact ne_quote_cons_of_plain h rest hrest

/-- The key of a name that is not plain is one quoted identifier, which means the name. -/
theorem lex_identifier {name : List Char} (h : ¬ Plain name) :
    Sql.lex (identifier name).toList = some [.name name] := by
  rw [identifier_of_not_plain h, String.toList_ofList]
  exact Sql.lex_quotedWith .double name

/-- Different names make different keys: those in quotes are read back as their names. -/
theorem identifier_injective {n m : List Char} (h : identifier n = identifier m) : n = m := by
  by_cases hn : Plain n
  · by_cases hm : Plain m
    · rw [identifier_of_plain hn, identifier_of_plain hm] at h
      simpa using congrArg String.toList h
    · rw [identifier_of_plain hn] at h
      exact absurd h (ofList_ne_identifier hm (head?_ne_of_plain hn))
  · by_cases hm : Plain m
    · rw [identifier_of_plain hm] at h
      exact absurd h.symm (ofList_ne_identifier hn (head?_ne_of_plain hm))
    · have hlex := lex_identifier hn
      rw [h, lex_identifier hm] at hlex
      simpa using hlex.symm

/-- A key as it stands in a text: a name in quotes, or a bare text that does not begin with one. -/
inductive WrittenKey where
  | bare (text : List Char) (hquote : text.head?.any isQuoteMark = false)
  | quoted (name : List Char)
  deriving DecidableEq

namespace WrittenKey

/-- The key of the entry that is made. -/
def key : WrittenKey → String
  | .bare text _ => String.ofList text
  | .quoted name => identifier name

/-- Two keys stand for the same column: equal names in quotes, equal bare texts, or a name in quotes
    that is plain and equal to a bare text. -/
def SameColumn : WrittenKey → WrittenKey → Prop
  | .quoted name, .quoted other => name = other
  | .quoted name, .bare text _ => Plain name ∧ name = text
  | .bare text _, .quoted name => Plain name ∧ name = text
  | .bare text _, .bare other _ => text = other

/-- A bare text is the key of a name exactly if it is that name, and plain. -/
theorem key_bare_eq_iff {text : List Char} (hquote : text.head?.any isQuoteMark = false)
    (name : List Char) : String.ofList text = identifier name ↔ Plain name ∧ name = text := by
  constructor
  · intro h
    by_cases hname : Plain name
    · rw [identifier_of_plain hname] at h
      exact ⟨hname, by simpa using (congrArg String.toList h).symm⟩
    · refine absurd h (ofList_ne_identifier hname ?_)
      intro hhead
      rw [hhead] at hquote
      contradiction
  · rintro ⟨hname, rfl⟩
    exact (identifier_of_plain hname).symm

/-- Keys are equal exactly where they stand for the same column. -/
theorem key_eq_iff (w w' : WrittenKey) : w.key = w'.key ↔ w.SameColumn w' := by
  cases w with
  | bare text hquote =>
    cases w' with
    | bare other hquote' => exact String.ofList_inj
    | quoted name => exact key_bare_eq_iff hquote name
  | quoted name =>
    cases w' with
    | bare text hquote => exact eq_comm.trans (key_bare_eq_iff hquote name)
    | quoted other => exact ⟨identifier_injective, congrArg identifier⟩

end WrittenKey

/-- The key under a cursor: the name up to the next quote of its kind, or the bare text up to a
    separator or a colon. -/
def writtenKey (c : Cursor) : WrittenKey :=
  match c.rest with
  | [] => .bare [] rfl
  | first :: rest =>
    if hquote : isQuoteMark first = true then .quoted (rest.takeWhile (· != first))
    else .bare ((first :: rest).takeWhile fun ch => !(isSeparator ch || ch == ':')) (by
      rw [List.takeWhile_cons]
      split <;> simp [hquote])

/-- A key in quotes is what stands between them. -/
theorem writtenKey_of_quoted {c : Cursor} {mark : Char} {contents rest : List Char}
    (hmark : isQuoteMark mark = true) (hcontents : mark ∉ contents)
    (h : c.rest = mark :: contents ++ mark :: rest) : writtenKey c = .quoted contents := by
  have htake : (contents ++ mark :: rest).takeWhile (· != mark) = contents :=
    takeWhile_append_of_stops (bne_of_not_mem hcontents) (stopsBefore_mark mark rest)
  unfold writtenKey
  rw [h]
  dsimp only [List.cons_append]
  rw [dif_pos hmark, htake]

/-- A bare key is the text up to a separator or a colon, as it stands. -/
theorem key_writtenKey_of_bare {c : Cursor} (h : c.current?.any isQuoteMark = false) :
    (writtenKey c).key =
      String.ofList (c.rest.takeWhile fun ch => !(isSeparator ch || ch == ':')) := by
  unfold writtenKey
  cases hrest : c.rest with
  | nil => rfl
  | cons first rest =>
    have hfirst : ¬ isQuoteMark first = true := by
      rw [Cursor.current?_of_rest hrest] at h
      simpa using h
    dsimp only
    rw [dif_neg hfirst]
    rfl

/-- A key that is read is the one that is written. -/
theorem key_writtenKey {c d : Cursor} {key : String} (h : cutKey c = .ok (key, d)) :
    (writtenKey c).key = key := by
  rcases cutKey_eq_ok h with ⟨name, rfl, -, hread⟩ | ⟨token, rfl, hquote, hread⟩
  · obtain ⟨mark, hmark, hcontents, hrest⟩ := Cursor.exists_of_takeQuoted hread
    rw [writtenKey_of_quoted hmark hcontents hrest]
    rfl
  · obtain ⟨rfl, -⟩ := run_of_cutToken hread
    have hstops (ch : Char) : [':'].contains ch = (ch == ':') := by
      rw [List.contains_cons, List.contains_nil, Bool.or_false]
    simp only [hstops]
    exact key_writtenKey_of_bare hquote

/-- The entries ahead of the cursor that can be cut off, with their keys as they are written. -/
def writtenEntries (kind : Mapping) (c : Cursor) : List (WrittenKey × Piece) :=
  if hend : c.skipGap.atEnd = true then []
  else match h : cutEntry kind c.skipGap with
    | .error _ => []
    | .ok (entry, next) =>
      have : next.remaining < c.remaining := by
        obtain ⟨hlead, hmoved, -⟩ := cutEntry_ok h
        exact hlead.remaining_lt_of_skip hmoved (Bool.eq_false_iff.2 hend)
      (writtenKey c.skipGap, entry.2) :: writtenEntries kind next
termination_by c.remaining

/-- The entries in the braces of a text, with their keys as they are written. -/
def writtenIn (kind : Mapping) (text : List Char) : List (WrittenKey × Piece) :=
  (unwrap? '{' '}' (trim text)).elim [] fun inner => writtenEntries kind (.start inner)

/-- The entries that are cut are the written ones, with their keys in the form that is stored. -/
theorem pieces_cutEntries (kind : Mapping) (c : Cursor) :
    (cutEntries kind c).pieces = (writtenEntries kind c).map fun e => (e.1.key, e.2) := by
  fun_induction writtenEntries kind c with
  | case1 c hend =>
    rw [cutEntries_done kind c hend]
    rfl
  | case2 c hend fault h =>
    rw [(cutLoop_cutEntries kind).stopped c fault (Bool.eq_false_iff.2 hend) (by rw [h]; rfl)]
    rfl
  | case3 c hend entry next h _ ih =>
    obtain ⟨atColon, -, hkey, -⟩ := cutEntry_eq_ok h
    rw [cutEntries_step kind c next entry (Bool.eq_false_iff.2 hend) h, List.map_cons, ← ih,
      key_writtenKey hkey]
    rfl

/-- The document that written entries make: its keys stand in the order in which they first came,
    each written entry has a position there, which two of them share exactly if their keys stand for
    the same column, and the last value of a column counts. -/
structure Merges (entries : List (WrittenKey × Value)) (d : Document) : Prop where
  keys : d.keys = (entries.map fun e => e.1.key).eraseDups
  position : ∀ e ∈ entries, ∃ position value,
    d.index[e.1.key]? = some position ∧ d.entries[position]? = some (e.1.key, value)
  merged : ∀ e ∈ entries, ∀ e' ∈ entries,
    d.index[e.1.key]? = d.index[e'.1.key]? ↔ e.1.SameColumn e'.1
  last : ∀ before e after, entries = before ++ e :: after →
    (∀ e' ∈ after, ¬ e.1.SameColumn e'.1) → d.get? e.1.key = some e.2

/-- No two keys have the same position. -/
theorem Document.eq_of_index_eq {d : Document} {key key' : String} {position : Nat}
    (h : d.index[key]? = some position) (h' : d.index[key']? = some position) : key = key' := by
  rw [index_eq_some_iff] at h h'
  exact Option.some.inj (h.symm.trans h')

/-- Entries that are inserted in order are merged by the columns that they stand for. -/
theorem merges_ofEntries (entries : List (WrittenKey × Value)) :
    Merges entries (.ofEntries (entries.map fun e => (e.1.key, e.2))) := by
  have hrecords := Document.records_insertAll (entries.map fun e => (e.1.key, e.2))
  have hkeys := hrecords.keys
  rw [List.map_map] at hkeys
  rw [Document.ofEntries_eq_insertAll]
  generalize Document.empty.insertAll (entries.map fun e => (e.1.key, e.2)) = d at hrecords hkeys
  have hindex : ∀ e ∈ entries, ∃ position, d.index[e.1.key]? = some position := by
    intro e he
    have hmem : e.1.key ∈ d.keys := by
      rw [hkeys, List.mem_eraseDups]
      exact List.mem_map_of_mem he
    exact ⟨_, (d.getElem?_index e.1.key).trans (if_pos hmem)⟩
  refine ⟨hkeys, ?_, ?_, ?_⟩
  · intro e he
    obtain ⟨position, hposition⟩ := hindex e he
    obtain ⟨value, hvalue⟩ := Document.exists_of_index hposition
    exact ⟨position, value, hposition, hvalue⟩
  · intro e he e' _
    obtain ⟨position, hposition⟩ := hindex e he
    rw [← WrittenKey.key_eq_iff, hposition]
    exact ⟨fun h => Document.eq_of_index_eq hposition h.symm, fun h => h ▸ hposition.symm⟩
  · rintro before e after rfl hafter
    -- The insertions are looked up from the last one back, and none of the later ones has this key.
    have hnone : (after.map fun e => (e.1.key, e.2)).reverse.lookup e.1.key = none := by
      rw [List.lookup_eq_none_iff]
      intro entry hentry
      obtain ⟨e', he', rfl⟩ := List.mem_map.1 (List.mem_reverse.1 hentry)
      have hne : e.1.key ≠ e'.1.key := fun h => hafter e' he' ((WrittenKey.key_eq_iff _ _).1 h)
      simpa using hne
    rw [hrecords.get, List.map_append, List.map_cons, List.reverse_append, List.reverse_cons,
      List.append_assoc, List.lookup_append, hnone]
    simp

/-- A written entry and what was read of it. -/
def ReadsWritten (read : Piece → Except SyntaxError Value) (written : WrittenKey × Piece)
    (entry : WrittenKey × Value) : Prop :=
  entry.1 = written.1 ∧ read written.2 = .ok entry.2

/-- What was read of written entries, with the keys as they were written. -/
theorem exists_readsWritten {read : Piece → Except SyntaxError Value}
    {written : List (WrittenKey × Piece)} {results : List (String × Value)}
    (h : List.Forall₂ (fun e result => (do return (e.1.key, ← read e.2)) = Except.ok result)
      written results) :
    ∃ entries, List.Forall₂ (ReadsWritten read) written entries ∧
      results = entries.map fun e => (e.1.key, e.2) := by
  induction h with
  | nil => exact ⟨[], .nil, rfl⟩
  | @cons e result written results hresult _ ih =>
    obtain ⟨value, hvalue, hpair⟩ := bind_eq_ok.1 hresult
    obtain ⟨entries, hentries, rfl⟩ := ih
    refine ⟨(e.1, value) :: entries, .cons ⟨rfl, hvalue⟩ hentries, ?_⟩
    rw [← Except.ok.inj hpair]
    rfl

/-- A mapping that is read merges the entries that are written in it. -/
theorem merges_of_readMap {kind : Mapping} {text : List Char}
    {read : Piece → Except SyntaxError Value} {d : Document}
    (h : readMap kind text (fun piece _ => read piece) = .ok d) :
    ∃ entries, List.Forall₂ (ReadsWritten read) (writtenIn kind text) entries ∧
      Merges entries d := by
  cases hunwrap : unwrap? '{' '}' (trim text) with
  | none =>
    rw [readMap_of_not_unwrap hunwrap] at h
    contradiction
  | some inner =>
    rw [readMap_of_unwrap hunwrap, map_eq_ok] at h
    obtain ⟨results, hresults, rfl⟩ := h
    obtain ⟨-, hread⟩ := Cut.readAll_eq_ok hresults
    rw [pieces_cutEntries, List.forall₂_map_left_iff] at hread
    have hwritten : writtenIn kind text = writtenEntries kind (.start inner) := by
      rw [writtenIn, hunwrap]
      rfl
    obtain ⟨entries, hentries, rfl⟩ := exists_readsWritten hread
    rw [hwritten]
    exact ⟨entries, hentries, merges_ofEntries entries⟩

/-- A blank text holds no entries. -/
theorem writtenIn_of_blank {kind : Mapping} {text : List Char} (h : trim text = []) :
    writtenIn kind text = [] := by
  rw [writtenIn, h]
  rfl

/-- A key that is read bare does not begin with a quote. -/
theorem ne_identifier_of_cutKey {c d : Cursor} {key : String} {name : List Char}
    (hbare : c.current?.any isQuoteMark = false) (h : cutKey c = .ok (key, d))
    (hname : ¬ Plain name) : key ≠ identifier name := by
  obtain ⟨text, -, ⟨hquote, -⟩ | ⟨-, rfl, hhead⟩⟩ := exists_of_cutKey h
  · rw [hbare] at hquote
    contradiction
  · rw [← String.ofList_toList (s := key)]
    exact ofList_ne_identifier hname hhead

/-- Quoted keys are faithful: the key of a name determines the name, and that of a name which is
    not plain is one quoted identifier of a statement, no operator, and none that can be read bare.
    So a mapping merges quoted keys if their names are equal, a quoted key with a bare one if they
    are the same plain name, and no others. -/
theorem identifier_faithful :
    (∀ n m, identifier n = identifier m → n = m) ∧
    (∀ n, ¬ Plain n →
      Sql.lex (identifier n).toList = some [.name n] ∧
      (identifier n).toList.head? ≠ some '$' ∧
      ∀ c key d, c.current?.any isQuoteMark = false → cutKey c = .ok (key, d) →
        key ≠ identifier n) ∧
    (∀ text d, Document.parse text = .ok d →
      ∃ entries, List.Forall₂ (ReadsWritten readDocumentValue) (writtenIn .document text.toList)
        entries ∧ Merges entries d) ∧
    ∀ text d, Document.parseOperators text = .ok d →
      ∃ entries, List.Forall₂ (ReadsWritten readOperatorValue) (writtenIn .operators text.toList)
        entries ∧ Merges entries d := by
  refine ⟨fun _ _ => identifier_injective, ?_, ?_, ?_⟩
  · intro n hn
    refine ⟨lex_identifier hn, ?_, fun c key d hbare hkey => ne_identifier_of_cutKey hbare hkey hn⟩
    rw [identifier_of_not_plain hn, String.toList_ofList, quotedWith]
    simp
  · intro text d h
    rw [Document.parse, readDocument_eq] at h
    split at h
    · rename_i hblank
      obtain rfl := Except.ok.inj h
      rw [writtenIn_of_blank hblank]
      exact ⟨[], .nil, merges_ofEntries []⟩
    · exact merges_of_readMap h
  · intro text d h
    rw [Document.parseOperators, readOperators] at h
    exact merges_of_readMap h

/-- Quoted and bare keys that are merged, and quoted ones that need their quotes. -/
def mergedKeys : String := "\x7b'x': 1, x: 2, 'a b': 3, \"a b\": 4, 'a\"b': 5, \"x \": 6\x7d"

theorem identifier_faithful_mergedKeys :
    let d := Document.ofEntries [("x", .integer 2), ("\"a b\"", .integer 4),
      ("\"a\"\"b\"", .integer 5), ("\"x \"", .integer 6)]
    Document.parse mergedKeys = .ok d ∧
      (writtenIn .document mergedKeys.toList).map Prod.fst =
        [.quoted ['x'], .bare ['x'] rfl, .quoted "a b".toList, .quoted "a b".toList,
          .quoted "a\"b".toList, .quoted "x ".toList] ∧
      (∃ entries, List.Forall₂ (ReadsWritten readDocumentValue)
        (writtenIn .document mergedKeys.toList) entries ∧ Merges entries d) ∧
      Sql.lex "\"a\"\"b\"".toList = some [.name "a\"b".toList] := by
  intro d
  have hparse : Document.parse mergedKeys = .ok d := by decide +kernel
  have hname : identifier "a\"b".toList = "\"a\"\"b\"" := by decide +kernel
  refine ⟨hparse, by decide +kernel, identifier_faithful.2.2.1 mergedKeys d hparse, ?_⟩
  rw [← hname]
  exact (identifier_faithful.2.1 "a\"b".toList (by decide +kernel)).1

end FindSelect
