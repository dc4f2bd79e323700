import FindSelect.Text.Alphanumeric
import FindSelect.Text.Cursor

namespace FindSelect

open Text

/-- A value as it stands in a text, told by its first character: between quotes,
    in braces, in brackets, or bare. Braces and brackets belong to the span. -/
inductive Piece where
  | quoted (contents : List Char)
  | braced (span : List Char)
  | bracketed (span : List Char)
  | bare (token : List Char)
  deriving DecidableEq, Repr

def Piece.length : Piece → Nat
  | .quoted contents => contents.length
  | .braced span => span.length
  | .bracketed span => span.length
  | .bare token => token.length

/-- Why no further piece could be cut off a text. -/
inductive CutFault where
  /-- A quoted text or a bracketed span does not end. -/
  | unclosed (span : OpenSpan)
  /-- A key is empty. -/
  | emptyKey
  /-- A key has no value, or no colon where one is required. -/
  | noValue
  /-- A token was asked for past the end. -/
  | overrun
  deriving DecidableEq, Repr

/-- The pieces cut off a text from left to right, and what stopped the cutting
    before the end of the text, if anything did. -/
structure Cut (α : Type) where
  pieces : List α
  fault : Option CutFault
  deriving Repr

namespace Cut

variable {α β : Type} {ε : Type}

def done : Cut α := ⟨[], none⟩

def stopped (fault : CutFault) : Cut α := ⟨[], some fault⟩

def cons (piece : α) (cut : Cut α) : Cut α := ⟨piece :: cut.pieces, cut.fault⟩

/-- A cut with some pieces more in front of it. -/
def prepend (pieces : List α) (cut : Cut α) : Cut α := ⟨pieces ++ cut.pieces, cut.fault⟩

/-- Reads every piece. The pieces come before the fault that stopped the cutting,
    so their errors do too. -/
def read (cut : Cut α) (ofFault : CutFault → ε)
    (f : (piece : α) → piece ∈ cut.pieces → Except ε β) : Except ε (List β) := do
  let results ← cut.pieces.attach.mapM fun piece => f piece.val piece.property
  match cut.fault with
  | none => return results
  | some fault => throw (ofFault fault)

/-- Reads every piece by itself, and then reports the fault. -/
def readAll (cut : Cut α) (ofFault : CutFault → ε) (f : α → Except ε β) : Except ε (List β) := do
  let results ← cut.pieces.mapM f
  match cut.fault with
  | none => return results
  | some fault => throw (ofFault fault)

/-- Where the reading of a piece does not depend on its origin, the pieces are
    read one after the other. -/
theorem read_eq_readAll (cut : Cut α) (ofFault : CutFault → ε) (f : α → Except ε β) :
    cut.read ofFault (fun piece _ => f piece) = cut.readAll ofFault f := by
  unfold read readAll
  rw [List.mapM_subtype (g := f) (fun _ _ => rfl), List.unattach_attach]

end Cut

/-- The name of a column for a quoted key: the key itself if it is made of
    letters, numbers and `_`, `$`, `.` only, and else the key in double quotes. -/
def identifier (key : List Char) : String :=
  if key.all fun c => isAlphanumeric c || c == '_' || c == '$' || c == '.' then String.ofList key
  else String.ofList (quotedWith '"' key)

/-- The two kinds of mapping in braces. A document may leave out or repeat the
    colon after a key; an operator map must have exactly one. -/
inductive Mapping where
  | document
  | operators
  deriving DecidableEq, Repr

/-- Moves from the end of a key to its value. -/
def Mapping.skipColon (kind : Mapping) (c : Cursor) : Option Cursor :=
  match kind with
  | .document => some (c.skipWhile fun ch => isBlank ch || ch == ':')
  | .operators =>
    let c := c.skipBlanks
    if c.current? = some ':' then some (c.advance 1).skipBlanks else none

/-- The text of a read that found the end of its span, and the cursor after it. -/
def closed (result : Except OpenSpan (List Char) × Cursor) :
    Except CutFault (List Char × Cursor) :=
  match result with
  | (.ok text, c) => .ok (text, c)
  | (.error span, _) => .error (.unclosed span)

/-- Reads a bare token up to a separator or one of `stops`. -/
def cutToken (stops : List Char) (c : Cursor) : Except CutFault (List Char × Cursor) :=
  match c.takeToken stops with
  | some result => .ok result
  | none => .error .overrun

/-- Reads a key: a quoted one, or a bare one up to a colon. -/
def cutKey (c : Cursor) : Except CutFault (String × Cursor) :=
  if c.current?.any isQuoteMark then
    (closed c.takeQuoted).map fun (key, c) => (identifier key, c)
  else (cutToken [':'] c).map fun (key, c) => (String.ofList key, c)

/-- Cuts the item of a value list under the cursor off. Brackets and braces have
    no meaning in such a list. -/
def cutItem (c : Cursor) : Except CutFault (Piece × Cursor) :=
  if c.current?.any isQuoteMark then
    (closed c.takeQuoted).map fun (contents, c) => (.quoted contents, c)
  else (cutToken [] c).map fun (token, c) => (.bare token, c)

/-- Cuts the value under the cursor off. -/
def cutPiece (c : Cursor) : Except CutFault (Piece × Cursor) :=
  if c.current? = some '{' then
    (closed (c.takeEnclosed '{' '}')).map fun (span, c) => (.braced span, c)
  else if c.current? = some '[' then
    (closed (c.takeEnclosed '[' ']')).map fun (span, c) => (.bracketed span, c)
  else if c.current?.any isQuoteMark then
    (closed c.takeQuoted).map fun (contents, c) => (.quoted contents, c)
  else (cutToken [] c).map fun (token, c) => (.bare token, c)

/-- Cuts the entry under the cursor off: a key that is not empty, what stands
    between key and value, and a value. -/
def cutEntry (kind : Mapping) (c : Cursor) : Except CutFault ((String × Piece) × Cursor) := do
  let (key, c) ← cutKey c
  if key = "" then throw .emptyKey
  let some c := kind.skipColon c | throw .noValue
  if c.atEnd then throw .noValue
  let (piece, c) ← cutPiece c
  return ((key, piece), c)

/-- A span that was found to be closed was read. -/
theorem closed_ok {result : Except OpenSpan (List Char) × Cursor} {text : List Char} {d : Cursor}
    (h : closed result = .ok (text, d)) : result = (.ok text, d) := by
  obtain ⟨outcome, c⟩ := result
  cases outcome with
  | ok read =>
    simp only [closed, Except.ok.injEq, Prod.mk.injEq] at h
    rw [h.1, h.2]
  | error span => simp [closed] at h

/-- A token is cut off exactly if one can be read. -/
theorem cutToken_eq_ok {stops : List Char} {c : Cursor} {result : List Char × Cursor} :
    cutToken stops c = .ok result ↔ c.takeToken stops = some result := by
  unfold cutToken
  cases c.takeToken stops <;> simp

/-- A token is the run of the characters that do not end it. -/
theorem run_of_cutToken {stops : List Char} {c d : Cursor} {token : List Char}
    (h : cutToken stops c = .ok (token, d)) :
    token = c.rest.takeWhile (fun ch => !(isSeparator ch || stops.contains ch)) ∧
      d = c.skipWhile fun ch => !(isSeparator ch || stops.contains ch) :=
  (Cursor.takeToken_eq_some.1 (cutToken_eq_ok.1 h)).2

/-- A token is exactly what the cursor moves over. -/
theorem cutToken_ok {stops : List Char} {c d : Cursor} {token : List Char}
    (h : cutToken stops c = .ok (token, d)) :
    token.length ≤ c.remaining ∧ d = c.advance token.length := by
  obtain ⟨rfl, rfl⟩ := run_of_cutToken h
  refine ⟨?_, rfl⟩
  rw [← Cursor.length_rest]
  exact (List.takeWhile_sublist _).length_le

/-- A key that was cut off is the identifier of a quoted text, or a bare token as
    it stands. -/
theorem cutKey_eq_ok {c d : Cursor} {key : String} (h : cutKey c = .ok (key, d)) :
    (∃ name, key = identifier name ∧ c.current?.any isQuoteMark = true ∧
      c.takeQuoted = (.ok name, d)) ∨
    ∃ token, key = String.ofList token ∧ c.current?.any isQuoteMark = false ∧
      cutToken [':'] c = .ok (token, d) := by
  unfold cutKey at h
  split at h
  · rename_i hquote
    obtain ⟨⟨name, e⟩, hread, hpair⟩ := map_eq_ok.1 h
    obtain ⟨rfl, rfl⟩ := Prod.mk.inj hpair
    exact .inl ⟨name, rfl, hquote, closed_ok hread⟩
  · rename_i hquote
    obtain ⟨⟨token, e⟩, hread, hpair⟩ := map_eq_ok.1 h
    obtain ⟨rfl, rfl⟩ := Prod.mk.inj hpair
    exact .inr ⟨token, rfl, Bool.eq_false_iff.2 hquote, hread⟩

/-- An item that was cut off is a quoted text or a bare token. -/
theorem cutItem_eq_ok {c d : Cursor} {piece : Piece} (h : cutItem c = .ok (piece, d)) :
    (∃ contents, piece = .quoted contents ∧ c.current?.any isQuoteMark = true ∧
      c.takeQuoted = (.ok contents, d)) ∨
    ∃ token, piece = .bare token ∧ c.current?.any isQuoteMark = false ∧
      cutToken [] c = .ok (token, d) := by
  unfold cutItem at h
  split at h
  · rename_i hquote
    obtain ⟨⟨contents, e⟩, hread, hpair⟩ := map_eq_ok.1 h
    obtain ⟨rfl, rfl⟩ := Prod.mk.inj hpair
    exact .inl ⟨contents, rfl, hquote, closed_ok hread⟩
  · rename_i hquote
    obtain ⟨⟨token, e⟩, hread, hpair⟩ := map_eq_ok.1 h
    obtain ⟨rfl, rfl⟩ := Prod.mk.inj hpair
    exact .inr ⟨token, rfl, Bool.eq_false_iff.2 hquote, hread⟩

/-- Where no bracket opens, a value of a mapping is cut off as an item is. -/
theorem cutPiece_eq_cutItem {c : Cursor} (hbrace : c.current? ≠ some '{')
    (hsquare : c.current? ≠ some '[') : cutPiece c = cutItem c := by
  rw [cutPiece, if_neg hbrace, if_neg hsquare, cutItem]

/-- A piece that was cut off is a span in braces, a span in brackets, or an item. -/
theorem cutPiece_eq_ok {c d : Cursor} {piece : Piece} (h : cutPiece c = .ok (piece, d)) :
    (∃ span, piece = .braced span ∧ c.takeEnclosed '{' '}' = (.ok span, d)) ∨
    (∃ span, piece = .bracketed span ∧ c.takeEnclosed '[' ']' = (.ok span, d)) ∨
      cutItem c = .ok (piece, d) := by
  by_cases hbrace : c.current? = some '{'
  · rw [cutPiece, if_pos hbrace] at h
    obtain ⟨⟨span, e⟩, hread, hpair⟩ := map_eq_ok.1 h
    obtain ⟨rfl, rfl⟩ := Prod.mk.inj hpair
    exact .inl ⟨span, rfl, closed_ok hread⟩
  by_cases hsquare : c.current? = some '['
  · rw [cutPiece, if_neg hbrace, if_pos hsquare] at h
    obtain ⟨⟨span, e⟩, hread, hpair⟩ := map_eq_ok.1 h
    obtain ⟨rfl, rfl⟩ := Prod.mk.inj hpair
    exact .inr (.inl ⟨span, rfl, closed_ok hread⟩)
  · rw [cutPiece_eq_cutItem hbrace hsquare] at h
    exact .inr (.inr h)

/-- The parts of an entry that was cut off. -/
theorem cutEntry_eq_ok {kind : Mapping} {c d : Cursor} {entry : String × Piece}
    (h : cutEntry kind c = .ok (entry, d)) :
    ∃ atColon atValue, cutKey c = .ok (entry.1, atColon) ∧ entry.1 ≠ "" ∧
      kind.skipColon atColon = some atValue ∧ cutPiece atValue = .ok (entry.2, d) := by
  obtain ⟨⟨key, atColon⟩, hkey, h⟩ := bind_eq_ok.1 h
  dsimp only at h
  split at h
  · contradiction
  rename_i hne
  split at h
  · rename_i atValue hcolon
    split at h
    · contradiction
    obtain ⟨⟨piece, e⟩, hpiece, h⟩ := bind_eq_ok.1 h
    obtain ⟨rfl, rfl⟩ := Prod.mk.inj (Except.ok.inj h)
    exact ⟨atColon, atValue, hkey, hne, hcolon, hpiece⟩
  · contradiction

/-- A key that is not empty moves the cursor on. -/
theorem cutKey_ok {c d : Cursor} {key : String} (h : cutKey c = .ok (key, d)) (hkey : key ≠ "") :
    c.Leads d ∧ c.position < d.position := by
  rcases cutKey_eq_ok h with ⟨name, -, -, hread⟩ | ⟨token, rfl, -, hread⟩
  · obtain ⟨-, rfl⟩ := Cursor.takeQuoted_ok hread
    exact ⟨Cursor.leads_advance _ c, Nat.lt_add_of_pos_right (Nat.succ_pos _)⟩
  · obtain ⟨-, rfl⟩ := cutToken_ok hread
    refine ⟨Cursor.leads_advance _ c, Nat.lt_add_of_pos_right (Nat.pos_of_ne_zero ?_)⟩
    intro hzero
    exact hkey (congrArg String.ofList (List.length_eq_zero_iff.1 hzero))

/-- Between a key and its value the cursor moves forward. -/
theorem Mapping.skipColon_some {kind : Mapping} {c d : Cursor} (h : kind.skipColon c = some d) :
    c.Leads d := by
  cases kind with
  | document =>
    obtain rfl := Option.some.inj h
    exact Cursor.leads_skipWhile _ c
  | operators =>
    simp only [skipColon] at h
    split at h
    · obtain rfl := Option.some.inj h
      exact (Cursor.leads_skipWhile _ c).trans
        ((Cursor.leads_advance 1 _).trans (Cursor.leads_skipWhile _ _))
    · contradiction

/-- An item is cut from the text ahead of the cursor. -/
theorem cutItem_ok {c d : Cursor} {piece : Piece} (h : cutItem c = .ok (piece, d)) :
    c.Leads d ∧ piece.length ≤ c.remaining := by
  rcases cutItem_eq_ok h with ⟨contents, rfl, -, hread⟩ | ⟨token, rfl, -, hread⟩
  · obtain ⟨hlength, rfl⟩ := Cursor.takeQuoted_ok hread
    exact ⟨Cursor.leads_advance _ c, hlength⟩
  · obtain ⟨hlength, rfl⟩ := cutToken_ok hread
    exact ⟨Cursor.leads_advance _ c, hlength⟩

/-- A piece is cut from the text ahead of the cursor. -/
theorem cutPiece_ok {c d : Cursor} {piece : Piece} (h : cutPiece c = .ok (piece, d)) :
    c.Leads d ∧ piece.length ≤ c.remaining := by
  rcases cutPiece_eq_ok h with ⟨span, rfl, hread⟩ | ⟨span, rfl, hread⟩ | hitem
  · obtain ⟨hlength, n, -, -, rfl⟩ := Cursor.takeEnclosed_ok hread
    exact ⟨Cursor.leads_advance n c, hlength⟩
  · obtain ⟨hlength, n, -, -, rfl⟩ := Cursor.takeEnclosed_ok hread
    exact ⟨Cursor.leads_advance n c, hlength⟩
  · exact cutItem_ok hitem

/-- An entry moves the cursor on, and its value is cut from the text ahead. -/
theorem cutEntry_ok {kind : Mapping} {c d : Cursor} {entry : String × Piece}
    (h : cutEntry kind c = .ok (entry, d)) :
    c.Leads d ∧ c.position < d.position ∧ entry.2.length ≤ c.remaining := by
  obtain ⟨atColon, atValue, hkey, hne, hcolon, hpiece⟩ := cutEntry_eq_ok h
  obtain ⟨hlead, hmoved⟩ := cutKey_ok hkey hne
  obtain ⟨hcut, hlength⟩ := cutPiece_ok hpiece
  have hvalue := Mapping.skipColon_some hcolon
  exact ⟨hlead.trans (hvalue.trans hcut), Nat.lt_of_lt_of_le hmoved (hvalue.trans hcut).2,
    Nat.le_trans hlength (hlead.trans hvalue).remaining_le⟩

end FindSelect
