import FindSelect.Proofs.Document.Completeness
import FindSelect.Proofs.Document.Continuation
import FindSelect.Proofs.Document.Insertion

namespace FindSelect

open Text

namespace Cut

variable {α β ε : Type}

/-- The pieces in front are read first. -/
theorem readAll_prepend (pieces : List α) (cut : Cut α) (ofFault : CutFault → ε)
    (f : α → Except ε β) :
    (cut.prepend pieces).readAll ofFault f =
      pieces.mapM f >>= fun first => (cut.readAll ofFault f).map (first ++ ·) := by
  simp only [readAll, prepend, List.mapM_append]
  cases pieces.mapM f with
  | error e => rfl
  | ok first =>
    cases cut.pieces.mapM f with
    | error e => rfl
    | ok more => cases cut.fault <;> rfl

/-- Errors of faults differ in the kind of error only where their kinds do. -/
theorem mapError_readAll {κ : Type} {kind : ε → κ} {ofFault ofFault' : CutFault → ε}
    (h : ∀ fault, kind (ofFault fault) = kind (ofFault' fault)) (f : α → Except ε β)
    (cut : Cut α) :
    (cut.readAll ofFault f).mapError kind = (cut.readAll ofFault' f).mapError kind := by
  simp only [readAll]
  cases cut.pieces.mapM f with
  | error e => rfl
  | ok results =>
    cases cut.fault with
    | none => rfl
    | some fault => exact congrArg Except.error (h fault)

end Cut

/-- A loop that passes over separators and then takes a step, until it comes to the end of the
    text or to a fault. Every step moves on, and what it cuts off does not depend on what
    follows after a comma. -/
structure CutLoop {α : Type} (step : Cursor → Except CutFault (List α × Cursor))
    (loop : Cursor → Cut α) : Prop where
  done : ∀ c, c.skipGap.atEnd = true → loop c = .done
  stopped : ∀ c fault, c.skipGap.atEnd = false → step c.skipGap = .error fault →
    loop c = .stopped fault
  next : ∀ c d pieces, c.skipGap.atEnd = false → step c.skipGap = .ok (pieces, d) →
    d.remaining < c.remaining ∧ loop c = (loop d).prepend pieces
  continued : ∀ c c' suffix, Follows suffix → c.rest ≠ [] → c'.rest = c.rest ++ suffix →
    Continued suffix (step c) (step c')

namespace CutLoop

variable {α β ε : Type} {step : Cursor → Except CutFault (List α × Cursor)}
  {loop : Cursor → Cut α}

/-- The loop sees nothing but the text after the separators. -/
theorem eq_of_rest (h : CutLoop step loop) (n : Nat) : ∀ c c' : Cursor, c.remaining < n →
    c'.skipGap.rest = c.skipGap.rest → loop c' = loop c := by
  induction n with
  | zero => intro c c' hlength; omega
  | succ n ih =>
    intro c c' hlength hrest
    have hends : c'.skipGap.atEnd = c.skipGap.atEnd := by
      rw [Bool.eq_iff_iff, Cursor.atEnd_iff, Cursor.atEnd_iff, hrest]
    cases hend : c.skipGap.atEnd with
    | true =>
      rw [hend] at hends
      rw [h.done c hend, h.done c' hends]
    | false =>
      rw [hend] at hends
      have hcut := h.continued c.skipGap c'.skipGap [] (by simp [Follows])
        (Cursor.rest_ne_nil hend) (by rw [hrest, List.append_nil])
      generalize hstep : step c.skipGap = r at hcut
      generalize hstep' : step c'.skipGap = r' at hcut
      cases hcut with
      | @ok pieces d d' hd =>
        obtain ⟨hlt, hloop⟩ := h.next c d pieces hend hstep
        obtain ⟨-, hloop'⟩ := h.next c' d' pieces hends hstep'
        have hskip : d'.skipGap.rest = d.skipGap.rest := by
          simp only [Cursor.skipGap, Cursor.rest_skipWhile, hd, List.append_nil]
        rw [hloop, hloop', ih d d' (by omega) hskip]
      | error hsame =>
        rw [h.stopped c _ hend hstep, h.stopped c' _ hends (hstep'.trans (hsame rfl))]

/-- A text that is cut without a fault is cut in the same way with a comma and another text
    after it, which is then cut as if it stood alone. -/
theorem append (h : CutLoop step loop) (text : List Char) (n : Nat) : ∀ c c' : Cursor,
    c.remaining < n → (loop c).fault = none → c'.rest = c.rest ++ ',' :: text →
      loop c' = (loop (.start text)).prepend (loop c).pieces := by
  induction n with
  | zero => intro c c' hlength; omega
  | succ n ih =>
    intro c c' hlength hfault hrest
    have hskip : c'.skipGap.rest = _ := Cursor.rest_skipWhile isSeparator c'
    have hgap : c.skipGap.rest = _ := Cursor.rest_skipWhile isSeparator c
    rw [hrest, List.dropWhile_append, ← hgap] at hskip
    cases hend : c.skipGap.atEnd with
    | true =>
      -- Only separators are left, and the comma is one more, so the second text is next.
      rw [Cursor.atEnd_iff.1 hend] at hskip
      have hstart : c'.skipGap.rest = (Cursor.start text).skipGap.rest := by
        rw [hskip, Cursor.skipGap, Cursor.rest_skipWhile]
        rfl
      rw [h.eq_of_rest _ (.start text) c' (Nat.lt_succ_self _) hstart, h.done c hend]
      rfl
    | false =>
      have hne : c.skipGap.rest ≠ [] := Cursor.rest_ne_nil hend
      rw [if_neg (by simpa using hne)] at hskip
      have hend' : c'.skipGap.atEnd = false := by
        rw [← Bool.not_eq_true, Cursor.atEnd_iff, hskip]
        simp
      have hcut := h.continued c.skipGap c'.skipGap (',' :: text) (by simp [Follows]) hne hskip
      generalize hstep : step c.skipGap = r at hcut
      generalize hstep' : step c'.skipGap = r' at hcut
      cases hcut with
      | @ok pieces d d' hd =>
        obtain ⟨hlt, hloop⟩ := h.next c d pieces hend hstep
        obtain ⟨-, hloop'⟩ := h.next c' d' pieces hend' hstep'
        rw [hloop] at hfault
        rw [hloop', hloop, ih d d' (by omega) hfault hd]
        simp [Cut.prepend]
      | error =>
        rw [h.stopped c _ hend hstep] at hfault
        contradiction

/-- Reading the pieces of two texts in turn is reading those of both with a comma between. -/
theorem mapError_readAll_append (h : CutLoop step loop) {κ : Type} {kind : ε → κ}
    {first second both : CutFault → ε} (hkind : ∀ fault, kind (both fault) = kind (second fault))
    {f : α → Except ε β} {a : List Char} {results : List β}
    (hread : (loop (.start a)).readAll first f = .ok results) (b : List Char) :
    ((loop (.start (a ++ ',' :: b))).readAll both f).mapError kind =
      (((loop (.start b)).readAll second f).mapError kind).map (results ++ ·) := by
  obtain ⟨hfault, hpieces⟩ := Cut.readAll_eq_ok hread
  rw [h.append b _ (.start a) (.start (a ++ ',' :: b)) (Nat.lt_succ_self _) hfault rfl,
    Cut.readAll_prepend, mapM_eq_ok.2 hpieces, ok_bind, mapError_map, Cut.mapError_readAll hkind]

end CutLoop

/-- The entries of a mapping are cut off one by one. -/
theorem cutLoop_cutEntries (kind : Mapping) :
    CutLoop (fun c => (cutEntry kind c).map fun p => ([p.1], p.2)) (cutEntries kind) where
  done := cutEntries_done kind
  stopped c fault hend h := by
    rw [cutEntries, dif_neg (by simp [hend])]
    split
    · rename_i hcut
      rw [hcut] at h
      rw [Except.error.inj h]
    · rename_i hcut
      rw [hcut] at h
      contradiction
  next c d pieces hend h := by
    obtain ⟨⟨entry, e⟩, hcut, hpair⟩ := map_eq_ok.1 h
    obtain ⟨rfl, rfl⟩ := Prod.mk.inj hpair
    obtain ⟨hlead, hmoved, -⟩ := cutEntry_ok hcut
    exact ⟨hlead.remaining_lt_of_skip hmoved hend, cutEntries_step kind c e entry hend hcut⟩
  continued c c' suffix hsuffix hne h :=
    (continued_cutEntry hsuffix kind hne h).map fun entry => [entry]

/-- The items of a list of primitives are cut off one by one. -/
theorem cutLoop_cutItems :
    CutLoop (fun c => (cutItem c).map fun p => ([p.1], p.2)) cutItems where
  done := cutItems_done
  stopped c fault hend h := by
    rw [cutItems, dif_neg (by simp [hend])]
    split
    · rename_i hcut
      rw [hcut] at h
      rw [Except.error.inj h]
    · rename_i hcut
      rw [hcut] at h
      contradiction
  next c d pieces hend h := by
    obtain ⟨⟨piece, e⟩, hcut, hpair⟩ := map_eq_ok.1 h
    obtain ⟨rfl, rfl⟩ := Prod.mk.inj hpair
    obtain ⟨hlead, hmoved⟩ := cutItem_moves hcut hend
    exact ⟨hlead.remaining_lt_of_skip hmoved hend, cutItems_step c e piece hend hcut⟩
  continued c c' suffix hsuffix hne h :=
    (continued_cutItem hsuffix hne h).map fun piece => [piece]

/-- The documents of a list are cut off one by one, with what stands between them passed over. -/
theorem cutLoop_cutConditions : CutLoop cutCondition cutConditions where
  done := cutConditions_done
  stopped c fault hend h := by
    rw [cutConditions, dif_neg (by simp [hend])]
    split
    · rename_i hcut
      rw [h] at hcut
      rw [Except.error.inj hcut]
    · rename_i hcut
      rw [h] at hcut
      contradiction
  next c d spans hend h := by
    obtain ⟨hlead, hmoved⟩ := cutCondition_moves h
    exact ⟨hlead.remaining_lt_of_skip hmoved hend, cutConditions_next c d spans hend h⟩
  continued c c' suffix hsuffix hne h := by
    rw [cutCondition, cutCondition, current?_of_append hne h]
    split
    · exact (continued_takeEnclosed h).map fun span => [span]
    split
    · exact (continued_takeQuoted h).map fun _ => []
    · refine .ok ?_
      obtain ⟨ch, text, htext⟩ := List.exists_cons_of_ne_nil hne
      rw [Cursor.rest_advance, Cursor.rest_advance, h, htext]
      rfl

/-- The kind of an error, whatever the text that it carries. -/
def SyntaxError.kind (e : SyntaxError) : Nat := e.ctorIdx

/-- The kind of an error for a fault does not depend on the text that the error carries. -/
theorem Mapping.kind_ofFault (kind : Mapping) (text text' : List Char) (fault : CutFault) :
    (kind.ofFault text fault).kind = (kind.ofFault text' fault).kind := by
  cases kind <;> cases fault <;> rfl

theorem kind_itemsFault (text text' : List Char) (fault : CutFault) :
    (itemsFault text fault).kind = (itemsFault text' fault).kind := by
  cases fault <;> rfl

theorem kind_conditionsFault (text text' : List Char) (fault : CutFault) :
    (conditionsFault text fault).kind = (conditionsFault text' fault).kind := by
  cases fault with
  | unclosed span => cases span <;> rfl
  | _ => rfl

section Readers

variable {a : List Char}

/-- Entries that are read in turn are inserted in turn. -/
theorem mapError_readMap_append {kind : Mapping} {read : Piece → Except SyntaxError Value}
    {d : Document} (h : readMap kind ('{' :: a ++ ['}']) (fun piece _ => read piece) = .ok d)
    (b : List Char) :
    (readMap kind ('{' :: (a ++ ',' :: b) ++ ['}']) fun piece _ => read piece).mapError
        SyntaxError.kind =
      ((readMap kind ('{' :: b ++ ['}']) fun piece _ => read piece).mapError
        SyntaxError.kind).map fun e => d.insertAll e.entries := by
  rw [readMap_of_unwrap (unwrap?_trim_brackets braces a)] at h
  obtain ⟨entries, hread, rfl⟩ := map_eq_ok.1 h
  have hboth := (cutLoop_cutEntries kind).mapError_readAll_append
    (kind.kind_ofFault (trim ('{' :: (a ++ ',' :: b) ++ ['}'])) (trim ('{' :: b ++ ['}']))) hread b
  -- Repeated keys of the second text are merged before they are inserted, or while they are.
  have hjoin (more : List (String × Value)) : Document.ofEntries (entries ++ more) =
      (Document.ofEntries entries).insertAll (Document.ofEntries more).entries := by
    rw [Document.insertAll_ofEntries, Document.ofEntries_eq_insertAll, Document.insertAll_append]
    rfl
  rw [readMap_of_unwrap (unwrap?_trim_brackets braces (a ++ ',' :: b)),
    readMap_of_unwrap (unwrap?_trim_brackets braces b), mapError_map, mapError_map, hboth]
  cases ((cutEntries kind (.start b)).readAll _ _).mapError SyntaxError.kind with
  | error e => rfl
  | ok more => exact congrArg Except.ok (hjoin more)

/-- The entries of two documents are read in turn where both stand in one, with a comma between
    them. -/
theorem mapError_readDocument_append {d : Document} (h : readDocument ('{' :: a ++ ['}']) = .ok d)
    (b : List Char) :
    (readDocument ('{' :: (a ++ ',' :: b) ++ ['}'])).mapError SyntaxError.kind =
      ((readDocument ('{' :: b ++ ['}'])).mapError SyntaxError.kind).map
        fun e => d.insertAll e.entries := by
  have hbraces (inner : List Char) : readDocument ('{' :: inner ++ ['}']) =
      readMap .document ('{' :: inner ++ ['}']) fun piece _ => readDocumentValue piece := by
    rw [readDocument_eq, trim_brackets braces, if_neg (by simp)]
  rw [hbraces] at h
  rw [hbraces, hbraces, mapError_readMap_append h]

/-- The entries of two operator maps are read in turn where both stand in one. -/
theorem mapError_readOperators_append {d : Document}
    (h : readOperators ('{' :: a ++ ['}']) = .ok d) (b : List Char) :
    (readOperators ('{' :: (a ++ ',' :: b) ++ ['}'])).mapError SyntaxError.kind =
      ((readOperators ('{' :: b ++ ['}'])).mapError SyntaxError.kind).map
        fun e => d.insertAll e.entries := by
  rw [readOperators] at h
  rw [readOperators, readOperators, mapError_readMap_append h]

/-- The items of two lists of primitives are read in turn where both stand in one. -/
theorem mapError_readValues_append {values : List Value}
    (h : readValues ('[' :: a ++ [']']) = .ok values) (b : List Char) :
    (readValues ('[' :: (a ++ ',' :: b) ++ [']'])).mapError SyntaxError.kind =
      ((readValues ('[' :: b ++ [']'])).mapError SyntaxError.kind).map (values ++ ·) := by
  rw [readValues_of_unwrap (unwrap?_trim_brackets squares _)] at h ⊢
  rw [readValues_of_unwrap (unwrap?_trim_brackets squares b)]
  exact cutLoop_cutItems.mapError_readAll_append (kind_itemsFault _ _) h b

/-- The documents of two lists are read in turn where both stand in one. -/
theorem mapError_readConditions_append {documents : List Document}
    (h : readConditions ('[' :: a ++ [']']) = .ok documents) (b : List Char) :
    (readConditions ('[' :: (a ++ ',' :: b) ++ [']'])).mapError SyntaxError.kind =
      ((readConditions ('[' :: b ++ [']'])).mapError SyntaxError.kind).map (documents ++ ·) := by
  rw [readConditions_of_unwrap (unwrap?_trim_brackets squares _)] at h ⊢
  rw [readConditions_of_unwrap (unwrap?_trim_brackets squares b)]
  exact cutLoop_cutConditions.mapError_readAll_append (kind_conditionsFault _ _) h b

end Readers

/-- A text in brackets. -/
def enclosed (opening closing : Char) (inner : String) : String :=
  String.ofList (opening :: inner.toList ++ [closing])

/-- Where the first of two texts is read, both are read with a comma between them: their results
    are joined, and an error of the second is one of the same kind. -/
structure Concatenates {α : Type} (parse : String → Except SyntaxError α)
    (opening closing : Char) (join : α → α → α) : Prop where
  ok : ∀ (a b : String) (x y : α), parse (enclosed opening closing a) = .ok x →
    parse (enclosed opening closing b) = .ok y →
      parse (enclosed opening closing (a ++ "," ++ b)) = .ok (join x y)
  error : ∀ (a b : String) (x : α) (e : SyntaxError), parse (enclosed opening closing a) = .ok x →
    parse (enclosed opening closing b) = .error e →
      ∃ e', parse (enclosed opening closing (a ++ "," ++ b)) = .error e' ∧ e'.kind = e.kind

/-- It is enough to compare the outcomes up to the kinds of their errors. -/
theorem concatenates_of_mapError {α : Type} {read : List Char → Except SyntaxError α}
    {opening closing : Char} {join : α → α → α}
    (h : ∀ {a : List Char} {x : α}, read (opening :: a ++ [closing]) = .ok x → ∀ b,
      (read (opening :: (a ++ ',' :: b) ++ [closing])).mapError SyntaxError.kind =
        ((read (opening :: b ++ [closing])).mapError SyntaxError.kind).map (join x)) :
    Concatenates (fun text => read text.toList) opening closing join := by
  have hboth {a : String} {x : α} (b : String)
      (hx : read (enclosed opening closing a).toList = .ok x) :
      (read (enclosed opening closing (a ++ "," ++ b)).toList).mapError SyntaxError.kind =
        ((read (enclosed opening closing b).toList).mapError SyntaxError.kind).map (join x) := by
    rw [enclosed, String.toList_ofList] at hx
    simpa [enclosed] using h hx b.toList
  constructor
  · intro a b x y hx hy
    have hxy := hboth b hx
    rw [hy] at hxy
    exact mapError_eq_ok.1 hxy
  · intro a b x e hx he
    have hxe := hboth b hx
    rw [he] at hxe
    exact mapError_eq_error.1 hxe

/-- Documents, operator maps, lists of primitives and lists of documents can be joined at a
    comma, whatever stands in them. -/
theorem Document.concatenates_parse :
    Concatenates Document.parse '{' '}' (fun d e => d.insertAll e.entries) ∧
    Concatenates Document.parseOperators '{' '}' (fun d e => d.insertAll e.entries) ∧
    Concatenates Value.parseList '[' ']' (· ++ ·) ∧
    Concatenates Document.parseList '[' ']' (· ++ ·) :=
  ⟨concatenates_of_mapError mapError_readDocument_append,
    concatenates_of_mapError mapError_readOperators_append,
    concatenates_of_mapError mapError_readValues_append,
    concatenates_of_mapError mapError_readConditions_append⟩

/-- Two texts without a comma at the right places, whose keys hold a brace. -/
theorem Document.concatenates_parse_braceKeys :
    Document.parse (enclosed '{' '}' ("x\x7b: 1 'q r':2" ++ "," ++ "x\x7b 3")) =
      .ok (Document.ofEntries [("x\x7b", .integer 3), ("\"q r\"", .integer 2)]) ∧
    ∃ e, Document.parse (enclosed '{' '}' ("x\x7b: 1 'q r':2" ++ "," ++ "y:")) = .error e ∧
      e.kind = (SyntaxError.openDocument "\x7by:\x7d").kind := by
  have hfirst : Document.parse (enclosed '{' '}' "x\x7b: 1 'q r':2") =
      .ok (Document.ofEntries [("x\x7b", .integer 1), ("\"q r\"", .integer 2)]) := by decide +kernel
  have hsecond : Document.parse (enclosed '{' '}' "x\x7b 3") =
      .ok (Document.ofEntries [("x\x7b", .integer 3)]) := by decide +kernel
  have hfault : Document.parse (enclosed '{' '}' "y:") =
      .error (.openDocument "\x7by:\x7d") := by decide +kernel
  refine ⟨?_, Document.concatenates_parse.1.error _ _ _ _ hfirst hfault⟩
  rw [Document.concatenates_parse.1.ok _ _ _ _ hfirst hsecond]
  decide +kernel

end FindSelect
