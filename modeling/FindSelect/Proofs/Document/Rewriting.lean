import FindSelect.Proofs.Document.Faults
import FindSelect.Proofs.Document.Shape
import FindSelect.Proofs.Text.Lossless
import FindSelect.Proofs.Text.Nesting

namespace FindSelect

open Text

/-- The entries that are cut from inside the braces of a text, repeated keys included. -/
def entriesIn (kind : Mapping) (text : List Char) : List (String × Piece) :=
  (unwrap? '{' '}' (trim text)).elim [] fun inner => (cutEntries kind (.start inner)).pieces

/-- The keys of a mapping that stand in it without quotes, with the quoted ones that are plain
    names. A key in double quotes has been quoted in the text. -/
def bareKeys (kind : Mapping) (text : List Char) : List String :=
  ((entriesIn kind text).map Prod.fst).filter fun key => key.toList.head? ≠ some '"'

/-- The text between two cursors. -/
def Text.Cursor.upTo (c d : Cursor) : List Char := c.rest.take (d.position - c.position)

section Rewriting

variable (f : List Char → List Char) (g : Piece → List Char → List Char) (kind : Mapping)

/-- The text of the entry under the cursor, with `f` applied to a bare key and `g` to the value. -/
def entryWith (c : Cursor) : List Char :=
  match cutKey c with
  | .error _ => []
  | .ok (_, atColon) =>
    match kind.skipColon atColon with
    | none => []
    | some atValue =>
      match cutPiece atValue with
      | .error _ => []
      | .ok (piece, d) =>
        let key := c.upTo atColon
        (if c.current?.any isQuoteMark then key else f key) ++
          (atColon.upTo atValue ++ g piece (atValue.upTo d))

/-- The text ahead of the cursor, with its entries rewritten. -/
def entriesWith (c : Cursor) : List Char :=
  if hend : c.skipGap.atEnd = true then c.rest
  else match h : cutEntry kind c.skipGap with
    | .error _ => c.rest
    | .ok (entry, next) =>
      have : next.remaining < c.remaining := by
        obtain ⟨hlead, hmoved, -⟩ := cutEntry_ok h
        exact hlead.remaining_lt_of_skip hmoved (Bool.eq_false_iff.2 hend)
      c.upTo c.skipGap ++ (entryWith f g kind c.skipGap ++ entriesWith next)
termination_by c.remaining

/-- A mapping in braces, with its entries rewritten. -/
def mappingWith (text : List Char) : List Char :=
  (unwrap? '{' '}' (trim text)).elim (trim text) fun inner =>
    '{' :: entriesWith f g kind (.start inner) ++ ['}']

end Rewriting

namespace Piece

/-- The bare keys of a value that is an operator map. -/
def bareKeys : Piece → List String
  | .braced span => FindSelect.bareKeys .operators span
  | _ => []

/-- The text of a value, with `f` applied to the bare keys of an operator map. -/
def withKeys (f : List Char → List Char) : Piece → List Char → List Char
  | .braced span, _ => mappingWith f (fun _ text => text) .operators span
  | _, text => text

/-- The text that a piece was cut from. The span of a list nests its brackets. -/
inductive Stands : Piece → List Char → Prop
  | quoted {mark : Char} {contents : List Char} (hmark : isQuoteMark mark = true)
      (hcontents : mark ∉ contents) : Stands (.quoted contents) (mark :: contents ++ [mark])
  | braced (inner : List Char) :
      Stands (.braced ('{' :: inner ++ ['}'])) ('{' :: inner ++ ['}'])
  | bracketed {span : List Char} (h : Tally '[' ']' 0 span) : Stands (.bracketed span) span
  | bare (token : List Char) : Stands (.bare token) token

end Piece

/-- A scalar holds neither quotes nor brackets, so it is balanced. -/
theorem balanced_of_readScalar {token : List Char} {value : Value}
    (h : readScalar token = .ok value) : Balanced token := by
  apply balanced_of_forall
  intro ch hch
  by_cases hblank : isBlank ch = true
  · have hgap := isSeparator_of_isBlank hblank
    refine ⟨isQuoteMark_eq_false_of_isSeparator hgap, Bool.eq_false_iff.2 ?_⟩
    intro hbracket
    rcases isBracket_iff.1 hbracket with rfl | rfl | rfl | rfl <;> exact absurd hblank (by decide)
  · have htrim := mem_trim hch (Bool.eq_false_iff.2 hblank)
    obtain ⟨-, hquote, hbracket, -⟩ := isTokenChar_spec (isTokenChar_of_readScalar h ch htrim)
    exact ⟨hquote, hbracket⟩

section Cutting

variable {c d : Cursor}

/-- The text between two cursors is what the first one moves over to reach the second. -/
theorem upTo_of_movesOver {text : List Char} (h : c.MovesOver text d) : c.upTo d = text := by
  have hlength : d.position - c.position = text.length := by
    rw [h.moved]
    exact Nat.add_sub_cancel_left ..
  rw [Cursor.upTo, hlength, h.rest, List.take_left]

/-- The cursor moves over exactly the token that it reads. -/
theorem movesOver_cutToken {stops token : List Char} (h : cutToken stops c = .ok (token, d)) :
    c.MovesOver token d :=
  ⟨(cutToken_ok h).2, rest_of_cutToken h⟩

/-- An item was cut from its text, over which the cursor moves. -/
theorem stands_of_cutItem {piece : Piece} (h : cutItem c = .ok (piece, d)) :
    ∃ text, piece.Stands text ∧ c.MovesOver text d := by
  rcases cutItem_eq_ok h with ⟨contents, rfl, -, hread⟩ | ⟨token, rfl, -, hread⟩
  · obtain ⟨mark, hmark, hcontents, hover⟩ := Cursor.movesOver_takeQuoted hread
    exact ⟨_, .quoted hmark hcontents, hover⟩
  · exact ⟨token, .bare token, movesOver_cutToken hread⟩

/-- A piece was cut from its text, over which the cursor moves. -/
theorem stands_of_cutPiece {piece : Piece} (h : cutPiece c = .ok (piece, d)) :
    ∃ text, piece.Stands text ∧ c.MovesOver text d := by
  rcases cutPiece_eq_ok h with ⟨span, rfl, hread⟩ | ⟨span, rfl, hread⟩ | hitem
  · obtain ⟨inner, rfl, -⟩ := Cursor.exists_of_takeEnclosed braces hread
    exact ⟨_, .braced inner, Cursor.movesOver_takeEnclosed hread⟩
  · have htally := Cursor.tally_of_takeEnclosed squares hread
    exact ⟨span, .bracketed htally, Cursor.movesOver_takeEnclosed hread⟩
  · exact stands_of_cutItem hitem

/-- A key is a quoted text, or it stands in the text as it is. -/
theorem exists_of_cutKey {key : String} (h : cutKey c = .ok (key, d)) :
    ∃ text, c.MovesOver text d ∧
      (c.current?.any isQuoteMark = true ∧ Balanced text ∨
        c.current?.any isQuoteMark = false ∧ key.toList = text ∧ text.head? ≠ some '"') := by
  rcases cutKey_eq_ok h with ⟨name, rfl, hquote, hread⟩ | ⟨token, rfl, hquote, hread⟩
  · obtain ⟨mark, hmark, hcontents, hover⟩ := Cursor.movesOver_takeQuoted hread
    exact ⟨_, hover, .inl ⟨hquote, .quoted hmark hcontents⟩⟩
  · have hover := movesOver_cutToken hread
    refine ⟨token, hover, .inr ⟨hquote, String.toList_ofList, ?_⟩⟩
    intro hhead
    obtain ⟨more, rfl⟩ := List.head?_eq_some_iff.1 hhead
    rw [Cursor.current?_of_rest hover.rest] at hquote
    contradiction

/-- What is passed over is balanced if it holds separators and colons only. -/
theorem exists_of_skipWhile (p : Char → Bool) (c : Cursor)
    (hp : ∀ ch, p ch = true → isSeparator ch = true ∨ ch = ':') :
    ∃ gap, Balanced gap ∧ c.MovesOver gap (c.skipWhile p) := by
  refine ⟨c.rest.takeWhile p, balanced_of_separators ?_, Cursor.movesOver_skipWhile p c⟩
  intro ch hch
  exact hp ch (List.mem_takeWhile_imp hch)

theorem exists_of_skipGap (c : Cursor) : ∃ gap, Balanced gap ∧ c.MovesOver gap c.skipGap :=
  exists_of_skipWhile isSeparator c fun _ => .inl

theorem exists_of_skipBlanks (c : Cursor) :
    ∃ gap, Balanced gap ∧ c.MovesOver gap c.skipBlanks :=
  exists_of_skipWhile isBlank c fun _ h => .inl (isSeparator_of_isBlank h)

/-- What stands between a key and its value is balanced. -/
theorem exists_of_skipColon {kind : Mapping} (h : kind.skipColon c = some d) :
    ∃ gap, Balanced gap ∧ c.MovesOver gap d := by
  cases kind with
  | document =>
    obtain rfl := Option.some.inj h
    apply exists_of_skipWhile
    intro ch hch
    rcases Bool.or_eq_true_iff.1 hch with hblank | hcolon
    · exact .inl (isSeparator_of_isBlank hblank)
    · exact .inr (beq_iff_eq.1 hcolon)
  | operators =>
    simp only [Mapping.skipColon] at h
    split at h
    · rename_i hcolon
      obtain rfl := Option.some.inj h
      obtain ⟨before, hbefore, hover⟩ := exists_of_skipBlanks c
      obtain ⟨after, hafter, hover'⟩ := exists_of_skipBlanks (c.skipBlanks.advance 1)
      have hpoint : Balanced [':'] := balanced_of_separators (by simp)
      exact ⟨before ++ [':'] ++ after, .append (.append hbefore hpoint) hafter,
        (hover.trans (Cursor.movesOver_advance hcolon)).trans hover'⟩
    · contradiction

/-- An item that is a primitive is balanced. -/
theorem exists_of_cutItem {piece : Piece} {value : Value} (h : cutItem c = .ok (piece, d))
    (hread : readItem piece = .ok value) : ∃ text, Balanced text ∧ c.MovesOver text d := by
  obtain ⟨text, hstands, hover⟩ := stands_of_cutItem h
  refine ⟨text, ?_, hover⟩
  cases hstands with
  | quoted hmark hcontents => exact .quoted hmark hcontents
  | _ => exact balanced_of_readScalar hread

/-- The parts of the text of an entry, and how they are rewritten: only a bare key is given
    to `f`. -/
theorem exists_of_cutEntry {kind : Mapping} {entry : String × Piece}
    (h : cutEntry kind c = .ok (entry, d)) (f : List Char → List Char)
    (g : Piece → List Char → List Char) :
    ∃ key key' gap value, c.MovesOver (key ++ (gap ++ value)) d ∧
      entryWith f g kind c = key' ++ (gap ++ g entry.2 value) ∧ Balanced gap ∧
      entry.2.Stands value ∧
      (key' = key ∧ Balanced key ∨
        key' = f key ∧ entry.1.toList = key ∧ key.head? ≠ some '"') := by
  obtain ⟨atColon, atValue, hkey, -, hcolon, hvalue⟩ := cutEntry_eq_ok h
  obtain ⟨key, hkeyOver, hkeyText⟩ := exists_of_cutKey hkey
  obtain ⟨gap, hgap, hgapOver⟩ := exists_of_skipColon hcolon
  obtain ⟨value, hstands, hvalueOver⟩ := stands_of_cutPiece hvalue
  have hover := hkeyOver.trans (hgapOver.trans hvalueOver)
  have hentry : entryWith f g kind c =
      (if c.current?.any isQuoteMark then key else f key) ++ (gap ++ g entry.2 value) := by
    rw [entryWith, hkey]
    dsimp only
    rw [hcolon]
    dsimp only
    rw [hvalue]
    dsimp only
    rw [upTo_of_movesOver hkeyOver, upTo_of_movesOver hgapOver, upTo_of_movesOver hvalueOver]
  refine ⟨key, _, gap, value, hover, hentry, hgap, hstands, ?_⟩
  rcases hkeyText with ⟨hquote, hbalanced⟩ | ⟨hquote, hname, hhead⟩
  · exact .inl ⟨if_pos hquote, hbalanced⟩
  · exact .inr ⟨if_neg (Bool.eq_false_iff.1 hquote), hname, hhead⟩

end Cutting

section Rewriting

variable (f : List Char → List Char) (g : Piece → List Char → List Char) (kind : Mapping)

theorem entriesWith_done {c : Cursor} (h : c.skipGap.atEnd = true) :
    entriesWith f g kind c = c.rest := by
  rw [entriesWith, dif_pos h]

/-- An entry is rewritten in its place, after the gap in front of it. -/
theorem entriesWith_step {c d : Cursor} {entry : String × Piece}
    (hend : ¬ c.skipGap.atEnd = true) (h : cutEntry kind c.skipGap = .ok (entry, d)) :
    entriesWith f g kind c =
      c.upTo c.skipGap ++ (entryWith f g kind c.skipGap ++ entriesWith f g kind d) := by
  rw [entriesWith, dif_neg hend]
  split
  · rename_i hcut
    rw [h] at hcut
    contradiction
  · rename_i hcut
    rw [h] at hcut
    obtain ⟨-, rfl⟩ := Prod.mk.inj (Except.ok.inj hcut)
    rfl

theorem entriesWith_stopped {c : Cursor} {fault : CutFault} (hend : ¬ c.skipGap.atEnd = true)
    (h : cutEntry kind c.skipGap = .error fault) : entriesWith f g kind c = c.rest := by
  rw [entriesWith, dif_neg hend]
  split
  · rfl
  · rename_i hcut
    rw [h] at hcut
    contradiction

/-- With nothing changed, the entries of a text are the text. -/
theorem entriesWith_id (c : Cursor)
    (hvalues : ∀ entry ∈ (cutEntries kind c).pieces, ∀ text, entry.2.Stands text →
      g entry.2 text = text) : entriesWith id g kind c = c.rest := by
  fun_induction cutEntries kind c with
  | case1 c hend => exact entriesWith_done id g kind hend
  | case2 c hend fault h => exact entriesWith_stopped id g kind hend h
  | case3 c hend entry next h hlt ih =>
    have hrest := ih fun other hother => hvalues other (List.mem_cons_of_mem entry hother)
    obtain ⟨gap, -, hgap⟩ := exists_of_skipGap c
    obtain ⟨key, key', colon, value, hover, hentry, -, hstands, hkey⟩ := exists_of_cutEntry h id g
    have hsame : key' = key := by
      rcases hkey with ⟨hkey, -⟩ | ⟨hkey, -⟩
      · exact hkey
      · exact hkey
    rw [entriesWith_step id g kind hend h, upTo_of_movesOver hgap, hentry, hsame,
      hvalues entry List.mem_cons_self value hstands, hrest, hgap.rest, hover.rest]

end Rewriting

/-- What is known of a mapping that is read: its braces, the entries in them, and that each of their
    values is read. -/
theorem readMap_accepts {kind : Mapping} {text : List Char}
    {read : Piece → Except SyntaxError Value} {d : Document}
    (h : readMap kind text (fun piece _ => read piece) = .ok d) :
    ∃ inner, unwrap? '{' '}' (trim text) = some inner ∧
      (cutEntries kind (.start inner)).fault = none ∧
      entriesIn kind text = (cutEntries kind (.start inner)).pieces ∧
      ∀ entry ∈ entriesIn kind text, ∃ value, read entry.2 = .ok value := by
  cases hunwrap : unwrap? '{' '}' (trim text) with
  | none =>
    rw [readMap_of_not_unwrap hunwrap] at h
    contradiction
  | some inner =>
    have hentries : entriesIn kind text = (cutEntries kind (.start inner)).pieces := by
      rw [entriesIn, hunwrap]
      rfl
    rw [readMap_of_unwrap hunwrap, map_eq_ok] at h
    obtain ⟨entries, hread, -⟩ := h
    obtain ⟨hfault, hvalues⟩ := Cut.readAll_eq_ok hread
    refine ⟨inner, rfl, hfault, hentries, ?_⟩
    intro entry hentry
    rw [hentries] at hentry
    obtain ⟨result, -, hresult⟩ := exists_of_mem_left hvalues hentry
    obtain ⟨value, hvalue, -⟩ := bind_eq_ok.1 hresult
    exact ⟨value, hvalue⟩

/-- With nothing changed, a mapping is its text without the white space around it. -/
theorem mappingWith_id {kind : Mapping} {text : List Char}
    {read : Piece → Except SyntaxError Value} {d : Document}
    (h : readMap kind text (fun piece _ => read piece) = .ok d)
    (g : Piece → List Char → List Char)
    (hvalues : ∀ entry ∈ entriesIn kind text, ∀ value span, read entry.2 = .ok value →
      entry.2.Stands span → g entry.2 span = span) :
    mappingWith id g kind text = trim text := by
  obtain ⟨inner, hunwrap, -, hentries, hread⟩ := readMap_accepts h
  have hinner : entriesWith id g kind (.start inner) = inner := by
    apply entriesWith_id
    intro entry hentry span hspan
    rw [← hentries] at hentry
    obtain ⟨value, hvalue⟩ := hread entry hentry
    exact hvalues entry hentry value span hvalue hspan
  rw [mappingWith, hunwrap, eq_of_unwrap? hunwrap]
  exact congrArg (fun text => '{' :: text ++ ['}']) hinner

namespace Document

/-- The bare keys of a document and of the operator maps among its values. -/
def bareKeys (text : List Char) : List String :=
  FindSelect.bareKeys .document text ++
    (entriesIn .document text).flatMap fun entry => entry.2.bareKeys

/-- The text of a document, with `f` applied to these keys. -/
def withKeys (f : List Char → List Char) (text : List Char) : List Char :=
  mappingWith f (Piece.withKeys f) .document text

/-- With nothing changed, a document is its text without the white space around it. -/
theorem withKeys_id {text : List Char} {d : Document}
    (h : readMap .document text (fun piece _ => readDocumentValue piece) = .ok d) :
    withKeys id text = trim text := by
  apply mappingWith_id h (Piece.withKeys id)
  rintro ⟨key, piece⟩ hentry value span hvalue hstands
  cases hstands with
  | braced inner =>
    obtain ⟨document, hread, -⟩ := map_eq_ok.1 hvalue
    rw [readOperators] at hread
    have hsame := mappingWith_id hread (fun _ text => text) (fun _ _ _ _ _ _ => rfl)
    rw [trim_brackets braces] at hsame
    exact hsame
  | _ => rfl

end Document
end FindSelect
