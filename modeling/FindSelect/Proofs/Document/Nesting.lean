import FindSelect.Proofs.Document.Concatenation
import FindSelect.Proofs.Document.Rewriting

namespace FindSelect

open Text

/-- The characters of a condition list that are passed over one by one. They stand between its
    documents and quoted texts and are no separators. -/
def passedOver (c : Cursor) : List Char :=
  if hend : c.skipGap.atEnd = true then []
  else if c.skipGap.current? = some '{' then
    match h : closed (c.skipGap.takeEnclosed '{' '}') with
    | .error _ => []
    | .ok (_, next) =>
      have : next.remaining < c.remaining := by
        obtain ⟨-, n, hpos, -, rfl⟩ := Cursor.takeEnclosed_ok (closed_ok h)
        exact Cursor.remaining_advance_skip hpos (Bool.eq_false_iff.2 hend)
      passedOver next
  else if c.skipGap.current?.any isQuoteMark then
    match h : closed c.skipGap.takeQuoted with
    | .error _ => []
    | .ok (_, next) =>
      have : next.remaining < c.remaining := by
        obtain ⟨-, rfl⟩ := Cursor.takeQuoted_ok (closed_ok h)
        exact Cursor.remaining_advance_skip (Nat.succ_pos _) (Bool.eq_false_iff.2 hend)
      passedOver next
  else
    have : (c.skipGap.advance 1).remaining < c.remaining :=
      Cursor.remaining_advance_skip Nat.one_pos (Bool.eq_false_iff.2 hend)
    c.skipGap.current?.toList ++ passedOver (c.skipGap.advance 1)
termination_by c.remaining

/-- The characters that are passed over in a value that is a condition list. -/
def Piece.passedOver : Piece → List Char
  | .bracketed span =>
    (unwrap? '[' ']' (trim span)).elim [] fun inner => FindSelect.passedOver (.start inner)
  | _ => []

section Counting

variable {opening closing : Char}

/-- The entries of a text close in excess what is loose in their values, if their bare keys add
    nothing. -/
theorem tally_entriesWith (hbrackets : AreBrackets opening closing) (f : List Char → List Char)
    (g : Piece → List Char → List Char) (kind : Mapping) (loose : Piece → List Char) (c : Cursor)
    (hfault : (cutEntries kind c).fault = none)
    (hentries : ∀ entry ∈ (cutEntries kind c).pieces,
      (entry.1.toList.head? ≠ some '"' → Tally opening closing 0 (f entry.1.toList)) ∧
        ∀ text, entry.2.Stands text →
          Tally opening closing ((loose entry.2).count closing) (g entry.2 text)) :
    Tally opening closing
      (((cutEntries kind c).pieces.flatMap fun entry => loose entry.2).count closing)
      (entriesWith f g kind c) := by
  fun_induction cutEntries kind c with
  | case1 c hend =>
    obtain ⟨gap, hgap, hover⟩ := exists_of_skipGap c
    rw [entriesWith_done f g kind hend, hover.rest, Cursor.atEnd_iff.1 hend, List.append_nil]
    exact hgap.tally hbrackets
  | case2 => contradiction
  | case3 c hend entry next h hlt ih =>
    have hrest := ih hfault fun other hother => hentries other (List.mem_cons_of_mem entry hother)
    obtain ⟨hbare, hvalue⟩ := hentries entry List.mem_cons_self
    obtain ⟨gap, hgap, hover⟩ := exists_of_skipGap c
    obtain ⟨key, key', colon, value, -, hentry, hcolon, hstands, hkey⟩ := exists_of_cutEntry h f g
    have hkeyTally : Tally opening closing 0 key' := by
      rcases hkey with ⟨rfl, hbalanced⟩ | ⟨rfl, rfl, hhead⟩
      · exact hbalanced.tally hbrackets
      · exact hbare hhead
    have hentryTally := hkeyTally.append ((hcolon.tally hbrackets).append (hvalue value hstands))
    have hwhole := (hgap.tally hbrackets).append (hentryTally.append hrest)
    rw [Nat.zero_add, Nat.zero_add, Nat.zero_add, ← List.count_append] at hwhole
    rw [entriesWith_step f g kind hend h, upTo_of_movesOver hover, hentry]
    exact hwhole

/-- A mapping that is read closes in excess what is loose in its values, if its bare keys add
    nothing. -/
theorem tally_mappingWith (hbrackets : AreBrackets opening closing) {kind : Mapping}
    {text : List Char} {read : Piece → Except SyntaxError Value} {d : Document}
    (h : readMap kind text (fun piece _ => read piece) = .ok d) {f : List Char → List Char}
    (hkeys : ∀ key ∈ bareKeys kind text, Tally opening closing 0 (f key.toList))
    (g : Piece → List Char → List Char) (loose : Piece → List Char)
    (hvalues : ∀ entry ∈ entriesIn kind text, ∀ value span, read entry.2 = .ok value →
      entry.2.Stands span →
        Tally opening closing ((loose entry.2).count closing) (g entry.2 span)) :
    Tally opening closing
      (((entriesIn kind text).flatMap fun entry => loose entry.2).count closing)
      (mappingWith f g kind text) := by
  obtain ⟨inner, hunwrap, hfault, hentries, hread⟩ := readMap_accepts h
  rw [mappingWith, hunwrap, hentries]
  apply Tally.enclosed hbrackets braces
  apply tally_entriesWith hbrackets f g kind loose (.start inner) hfault
  intro entry hentry
  rw [← hentries] at hentry
  constructor
  · intro hhead
    apply hkeys
    rw [bareKeys, List.mem_filter]
    exact ⟨List.mem_map_of_mem hentry, decide_eq_true hhead⟩
  · intro span hspan
    obtain ⟨value, hvalue⟩ := hread entry hentry
    exact hvalues entry hentry value span hvalue hspan

end Counting

/-- The items of a list of primitives, and what stands between them, are balanced. -/
theorem balanced_cutItems (c : Cursor) (hfault : (cutItems c).fault = none)
    (hread : ∀ piece ∈ (cutItems c).pieces, ∃ value, readItem piece = .ok value) :
    Balanced c.rest := by
  fun_induction cutItems c with
  | case1 c hend =>
    obtain ⟨gap, hgap, hover⟩ := exists_of_skipGap c
    rw [hover.rest, Cursor.atEnd_iff.1 hend, List.append_nil]
    exact hgap
  | case2 => contradiction
  | case3 c hend piece next h hlt ih =>
    have hrest := ih hfault fun other hother => hread other (List.mem_cons_of_mem piece hother)
    obtain ⟨value, hvalue⟩ := hread piece List.mem_cons_self
    obtain ⟨gap, hgap, hover⟩ := exists_of_skipGap c
    obtain ⟨item, hitem, hitemOver⟩ := exists_of_cutItem h hvalue
    rw [hover.rest, hitemOver.rest]
    exact .append hgap (.append hitem hrest)

/-- A list of primitives that is read is balanced. -/
theorem balanced_of_readValues {span : List Char} {items : List Value}
    (h : readValues span = .ok items) : Balanced span := by
  cases hunwrap : unwrap? '[' ']' (trim span) with
  | none =>
    rw [readValues_of_not_unwrap hunwrap] at h
    contradiction
  | some inner =>
    rw [readValues_of_unwrap hunwrap] at h
    obtain ⟨hfault, hitems⟩ := Cut.readAll_eq_ok h
    have hinner : Balanced inner := by
      apply balanced_cutItems (.start inner) hfault
      intro piece hpiece
      obtain ⟨value, -, hvalue⟩ := exists_of_mem_left hitems hpiece
      exact ⟨value, hvalue⟩
    obtain ⟨before, after, hspan, hbefore, hafter⟩ := exists_of_trim span
    rw [hspan, eq_of_unwrap? hunwrap]
    exact .append (.append (balanced_of_blank hbefore) (.enclosed squares hinner))
      (balanced_of_blank hafter)

section Conditions

variable {c d : Cursor}

/-- Separators add nothing to what a text closes in excess. -/
theorem tally_of_skipGap {extra : Nat} (h : Tally '{' '}' extra c.skipGap.rest) :
    Tally '{' '}' extra c.rest := by
  obtain ⟨gap, hgap, hover⟩ := exists_of_skipGap c
  have hwhole := (hgap.tally braces).append h
  rw [Nat.zero_add, ← hover.rest] at hwhole
  exact hwhole

/-- A step that succeeds leaves the fault of the rest to be found. -/
theorem fault_of_cutCondition {spans : List (List Char)} (hend : ¬ c.skipGap.atEnd = true)
    (h : cutCondition c.skipGap = .ok (spans, d)) :
    (cutConditions c).fault = (cutConditions d).fault := by
  obtain ⟨-, hloop⟩ := cutLoop_cutConditions.next c d spans (Bool.eq_false_iff.2 hend) h
  rw [hloop]
  rfl

theorem fault_ne_none_of_cutCondition {fault : CutFault} (hend : ¬ c.skipGap.atEnd = true)
    (h : cutCondition c.skipGap = .error fault) : (cutConditions c).fault ≠ none := by
  rw [cutLoop_cutConditions.stopped c fault (Bool.eq_false_iff.2 hend) h]
  exact Option.some_ne_none fault

/-- Of a condition list that can be cut, the braces in excess are those passed over. -/
theorem tally_cutConditions (c : Cursor) (hfault : (cutConditions c).fault = none) :
    Tally '{' '}' ((passedOver c).count '}') c.rest := by
  fun_induction passedOver c with
  | case1 c hend =>
    apply tally_of_skipGap
    rw [Cursor.atEnd_iff.1 hend]
    exact .nil
  | case2 c hend hbrace fault hread =>
    have hstep : cutCondition c.skipGap = .error fault := by
      rw [cutCondition, if_pos hbrace, hread]
      rfl
    exact absurd hfault (fault_ne_none_of_cutCondition hend hstep)
  | case3 c hend hbrace span next hread hlt ih =>
    have hstep : cutCondition c.skipGap = .ok ([span], next) := by
      rw [cutCondition, if_pos hbrace, hread]
      rfl
    rw [fault_of_cutCondition hend hstep] at hfault
    have hspan := Cursor.tally_of_takeEnclosed braces (closed_ok hread)
    have hwhole := hspan.append (ih hfault)
    rw [Nat.zero_add, ← (Cursor.movesOver_takeEnclosed (closed_ok hread)).rest] at hwhole
    exact tally_of_skipGap hwhole
  | case4 c hend hbrace hquote fault hread =>
    have hstep : cutCondition c.skipGap = .error fault := by
      rw [cutCondition, if_neg hbrace, if_pos hquote, hread]
      rfl
    exact absurd hfault (fault_ne_none_of_cutCondition hend hstep)
  | case5 c hend hbrace hquote contents next hread hlt ih =>
    have hstep : cutCondition c.skipGap = .ok ([], next) := by
      rw [cutCondition, if_neg hbrace, if_pos hquote, hread]
      rfl
    rw [fault_of_cutCondition hend hstep] at hfault
    obtain ⟨mark, hmark, hcontents, hover⟩ := Cursor.movesOver_takeQuoted (closed_ok hread)
    have hwhole := (tally_quoted hmark hcontents).append (ih hfault)
    rw [Nat.zero_add, ← hover.rest] at hwhole
    exact tally_of_skipGap hwhole
  | case6 c hend hbrace hquote hlt ih =>
    -- The only step that can close a brace which was not opened: no other passes one over alone.
    have hstep : cutCondition c.skipGap = .ok ([], c.skipGap.advance 1) := by
      rw [cutCondition, if_neg hbrace, if_neg hquote]
    rw [fault_of_cutCondition hend hstep] at hfault
    obtain ⟨ch, hcurrent⟩ : ∃ ch, c.skipGap.current? = some ch := by
      rw [← Option.isSome_iff_exists, Option.isSome_iff_ne_none]
      intro hnone
      exact hend (Cursor.atEnd_iff_current?.2 hnone)
    have hrest := Cursor.rest_of_current? hcurrent
    rw [hcurrent] at hbrace hquote
    have hchar : Tally '{' '}' ([ch].count '}') [ch] :=
      Tally.char (by simpa using hquote) (by simpa using hbrace)
    have hwhole := hchar.append (ih hfault)
    apply tally_of_skipGap
    rw [hrest, hcurrent, List.count_append]
    exact hwhole

end Conditions

/-- An operator map closes what it opens. -/
theorem tally_of_readOperators {opening closing : Char} (hbrackets : AreBrackets opening closing)
    {span : List Char} {d : Document} (h : readOperators span = .ok d)
    {f : List Char → List Char}
    (hkeys : ∀ key ∈ bareKeys .operators span, Tally opening closing 0 (f key.toList)) :
    Tally opening closing 0 (mappingWith f (fun _ text => text) .operators span) := by
  rw [readOperators] at h
  have htally := tally_mappingWith hbrackets h hkeys (fun _ text => text) (fun _ => []) ?_
  · rwa [List.flatMap_eq_nil_iff.2 fun _ _ => rfl] at htally
  · rintro ⟨key, piece⟩ hentry value text hvalue hstands
    cases hstands with
    | quoted hmark hcontents => exact tally_quoted hmark hcontents
    | braced => contradiction
    | bracketed =>
      obtain ⟨items, hread, -⟩ := map_eq_ok.1 hvalue
      exact (balanced_of_readValues hread).tally hbrackets
    | bare token => exact (balanced_of_readScalar hvalue).tally hbrackets

/-- Of a condition list that is read, the braces in excess are those passed over. -/
theorem tally_of_readConditions {span : List Char} {documents : List Document}
    (h : readConditions span = .ok documents) :
    Tally '{' '}' ((Piece.bracketed span).passedOver.count '}') span := by
  cases hunwrap : unwrap? '[' ']' (trim span) with
  | none =>
    rw [readConditions_of_not_unwrap hunwrap] at h
    contradiction
  | some inner =>
    rw [readConditions_of_unwrap hunwrap] at h
    have hfault := (Cut.readAll_eq_ok h).1
    rw [Piece.passedOver, hunwrap]
    exact tally_of_unwrap? braces squares hunwrap (tally_cutConditions (.start inner) hfault)

namespace Document

/-- The characters that the condition lists of a document pass over. -/
def passedOver (text : List Char) : List Char :=
  (entriesIn .document text).flatMap fun entry => entry.2.passedOver

/-- Every quote is closed and the brackets are nested, and so are the braces unless one of the
    characters passed over closes one. -/
structure NestsBut (passed text : List Char) : Prop where
  quotes : QuotesClosed text
  squares : Nests '[' ']' text
  braces : Nests '{' '}' text ↔ '}' ∉ passed

section Read

variable {text : List Char} {d : Document}

/-- A document closes in excess what is loose in its lists, if its bare keys add nothing. -/
theorem tally_withKeys {opening closing : Char} (hbrackets : AreBrackets opening closing)
    (h : readMap .document text (fun piece _ => readDocumentValue piece) = .ok d)
    {f : List Char → List Char}
    (hkeys : ∀ key ∈ bareKeys text, Tally opening closing 0 (f key.toList))
    (loose : Piece → List Char)
    (hlist : ∀ span documents, readConditions span = .ok documents → Tally '[' ']' 0 span →
      Tally opening closing ((loose (.bracketed span)).count closing) span)
    (hother : ∀ piece : Piece, (∀ span, piece ≠ .bracketed span) → loose piece = []) :
    Tally opening closing
      (((entriesIn .document text).flatMap fun entry => loose entry.2).count closing)
      (withKeys f text) := by
  refine tally_mappingWith hbrackets h ?_ _ loose ?_
  · intro key hkey
    exact hkeys key (List.mem_append_left _ hkey)
  · rintro ⟨key, piece⟩ hentry value span hvalue hstands
    cases hstands with
    | quoted hmark hcontents =>
      rw [hother _ (by simp)]
      exact tally_quoted hmark hcontents
    | braced =>
      obtain ⟨document, hread, -⟩ := map_eq_ok.1 hvalue
      rw [hother _ (by simp)]
      apply tally_of_readOperators hbrackets hread
      intro key hkey
      exact hkeys key (List.mem_append_right _ (List.mem_flatMap.2 ⟨_, hentry, hkey⟩))
    | bracketed hnested =>
      obtain ⟨documents, hread, -⟩ := map_eq_ok.1 hvalue
      exact hlist span documents hread hnested
    | bare token =>
      rw [hother _ (by simp)]
      exact (balanced_of_readScalar hvalue).tally hbrackets

/-- Whatever is put in place of the bare keys of a document, if it closes what it opens, so does the
    text, apart from the braces that are passed over. -/
theorem tallies_withKeys
    (h : readMap .document text (fun piece _ => readDocumentValue piece) = .ok d)
    {f : List Char → List Char} (hkeys : ∀ key ∈ bareKeys text, WellNested (f key.toList)) :
    Tally '[' ']' 0 (withKeys f text) ∧
      Tally '{' '}' ((passedOver text).count '}') (withKeys f text) := by
  constructor
  · have hbare : ∀ key ∈ bareKeys text, Tally '[' ']' 0 (f key.toList) := by
      intro key hkey
      exact (hkeys key hkey).squares.tally (hkeys key hkey).quotes
    have htally := tally_withKeys squares h hbare (fun _ => []) (fun _ _ _ hnested => hnested)
      (fun _ _ => rfl)
    rwa [List.flatMap_eq_nil_iff.2 fun _ _ => rfl] at htally
  · have hbare : ∀ key ∈ bareKeys text, Tally '{' '}' 0 (f key.toList) := by
      intro key hkey
      exact (hkeys key hkey).braces.tally (hkeys key hkey).quotes
    apply tally_withKeys braces h hbare Piece.passedOver
    · intro span documents hread _
      exact tally_of_readConditions hread
    · intro piece hpiece
      cases piece with
      | bracketed span => exact absurd rfl (hpiece span)
      | _ => rfl

/-- What the brackets and braces of a text come to decides whether they nest. -/
theorem nestsBut_of_tally {passed : List Char} (hsquares : Tally '[' ']' 0 text)
    (hbraces : Tally '{' '}' (passed.count '}') text) : NestsBut passed text where
  quotes := hsquares.quotes
  squares := hsquares.nests_iff_eq_zero.2 rfl
  braces := by rw [hbraces.nests_iff_eq_zero, List.count_eq_zero]

end Read

/-- In every document that is read, what stands around its bare keys closes every quote and nests
    its brackets, and its braces exactly if no condition list passes over one. The text as a whole
    does so if each of these keys does. -/
theorem nests_of_parse {text : String} {d : Document} (h : parse text = .ok d) :
    NestsBut (passedOver text.toList) (withKeys (fun _ => []) text.toList) ∧
      ((∀ key ∈ bareKeys text.toList, WellNested key.toList) →
        NestsBut (passedOver text.toList) text.toList) := by
  rw [parse, readDocument_eq] at h
  split at h
  · rename_i hblank
    have hpassed : passedOver text.toList = [] := by
      rw [passedOver, entriesIn, hblank]
      rfl
    have hkeys : withKeys (fun _ => []) text.toList = [] := by
      rw [withKeys, mappingWith, hblank]
      rfl
    rw [hpassed, hkeys]
    refine ⟨nestsBut_of_tally .nil .nil, fun _ => nestsBut_of_tally ?_ ?_⟩
    · apply tally_of_trim squares
      rw [hblank]
      exact .nil
    · apply tally_of_trim braces
      rw [hblank]
      exact .nil
  · constructor
    · have hnil : WellNested [] := by decide
      obtain ⟨hsquares, hbraces⟩ := tallies_withKeys h (f := fun _ => []) fun _ _ => hnil
      exact nestsBut_of_tally hsquares hbraces
    · intro hkeys
      obtain ⟨hsquares, hbraces⟩ := tallies_withKeys h (f := id) hkeys
      rw [withKeys_id h] at hsquares hbraces
      exact nestsBut_of_tally (tally_of_trim squares hsquares) (tally_of_trim braces hbraces)

/-- A document with brackets in its bare keys, in quoted texts and between the documents of a
    condition list. -/
theorem nests_of_parse_loose :
    let text :=
      "\x7ba[0]: \x7b'x]': 1, $in[]: [1, '\x7d]']\x7d, $or: [x [y] '\x7d', \x7bb: 2\x7d z]\x7d"
    parse text = .ok (ofEntries
      [("a[0]", .document [("\"x]\"", .integer 1), ("$in[]", .list [.integer 1, .string "\x7d]"])]),
        ("$or", .list [.document [("b", .integer 2)]])]) ∧
      bareKeys text.toList = ["a[0]", "$or", "$in[]"] ∧
      passedOver text.toList = ['x', '[', 'y', ']', 'z'] ∧
      WellNested text.toList := by
  intro text
  have hparse : parse text = .ok (ofEntries
      [("a[0]", .document [("\"x]\"", .integer 1), ("$in[]", .list [.integer 1, .string "\x7d]"])]),
        ("$or", .list [.document [("b", .integer 2)]])]) := by decide +kernel
  have hkeys : bareKeys text.toList = ["a[0]", "$or", "$in[]"] := by decide +kernel
  have hpassed : passedOver text.toList = ['x', '[', 'y', ']', 'z'] := by decide +kernel
  have hnested : ∀ key ∈ bareKeys text.toList, WellNested key.toList := by
    rw [hkeys]
    decide
  obtain ⟨hquotes, hsquares, hbraces⟩ := (nests_of_parse hparse).2 hnested
  refine ⟨hparse, hkeys, hpassed, hquotes, hbraces.2 ?_, hsquares⟩
  rw [hpassed]
  decide

/-- A document may be read although its text is not nested: a condition list passes over a brace,
    and a bare key has a bracket or a quote of its own. -/
theorem exists_parse_not_nests :
    parse "\x7b$or: [\x7d]\x7d" = .ok (ofEntries [("$or", .list [])]) ∧
      ¬ Nests '{' '}' "\x7b$or: [\x7d]\x7d".toList ∧
      parse "\x7ba[: 1\x7d" = .ok (ofEntries [("a[", .integer 1)]) ∧
      ¬ Nests '[' ']' "\x7ba[: 1\x7d".toList ∧
      parse "\x7ba': 1\x7d" = .ok (ofEntries [("a'", .integer 1)]) ∧
      ¬ QuotesClosed "\x7ba': 1\x7d".toList := by
  decide +kernel

end Document
end FindSelect
