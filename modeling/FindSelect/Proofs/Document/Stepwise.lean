import FindSelect.Proofs.Document.Concatenation
import FindSelect.Proofs.Document.History
import FindSelect.Proofs.Text.Lossless

namespace FindSelect

open Text

/-- Why a checked reading stops: at a breach, or at what is wrong with the text. -/
inductive Stop (ε : Type) where
  | breach (breach : Cursor.Breach)
  | fault (fault : ε)

/-- A checked reading that ends as the plain one does: with a related result, or with the same
    fault, which is not that of a token past the end. It meets no breach. -/
inductive Guarded {ε α β : Type} (overrun : ε) (R : α → β → Prop) :
    Except ε α → Except (Stop ε) β → Prop where
  | ok {a : α} {b : β} (h : R a b) : Guarded overrun R (.ok a) (.ok b)
  | error {e : ε} (h : e ≠ overrun) : Guarded overrun R (.error e) (.error (.fault e))

namespace Guarded

variable {ε α β γ δ : Type} {overrun : ε} {R : α → β → Prop} {S : γ → δ → Prop}

/-- Guarded parts make a guarded whole, if the second is guarded after every related result. -/
theorem bind {x : Except ε α} {y : Except (Stop ε) β} (h : Guarded overrun R x y)
    {f : α → Except ε γ} {g : β → Except (Stop ε) δ}
    (hnext : ∀ a b, R a b → Guarded overrun S (f a) (g b)) :
    Guarded overrun S (x >>= f) (y >>= g) := by
  cases h with
  | ok h => exact hnext _ _ h
  | error h => exact .error h

/-- A guarded reading is guarded for a weaker relation. -/
theorem mono {R' : α → β → Prop} {x : Except ε α} {y : Except (Stop ε) β}
    (h : Guarded overrun R x y) (hmono : ∀ a b, R a b → R' a b) : Guarded overrun R' x y := by
  cases h with
  | ok h => exact .ok (hmono _ _ h)
  | error h => exact .error h

theorem map {x : Except ε α} {y : Except (Stop ε) β} (h : Guarded overrun R x y)
    {f : α → γ} {g : β → δ} (hmap : ∀ a b, R a b → S (f a) (g b)) :
    Guarded overrun S (x.map f) (y.map g) := by
  cases h with
  | ok h => exact .ok (hmap _ _ h)
  | error h => exact .error h

/-- A plain reading that maps its result is guarded by a checked one that goes on with it. -/
theorem map_bind {x : Except ε α} {y : Except (Stop ε) β} (h : Guarded overrun R x y)
    {f : α → γ} {g : β → Except (Stop ε) δ}
    (hnext : ∀ a b, R a b → Guarded overrun S (.ok (f a)) (g b)) :
    Guarded overrun S (x.map f) (y >>= g) := by
  cases h with
  | ok h => exact hnext _ _ h
  | error h => exact .error h

/-- Items that are guarded one by one are guarded in a row. -/
theorem mapM {items : List γ} {f : γ → Except ε α} {g : γ → Except (Stop ε) β}
    (h : ∀ item ∈ items, Guarded overrun R (f item) (g item)) :
    Guarded overrun (List.Forall₂ R) (items.mapM f) (items.mapM g) := by
  induction items with
  | nil => exact .ok .nil
  | cons item items ih =>
    rw [List.mapM_cons, List.mapM_cons]
    refine (h item List.mem_cons_self).bind fun a b hab => ?_
    refine (ih fun other hother => h other (List.mem_cons_of_mem item hother)).bind ?_
    exact fun as bs hrest => .ok (.cons hab hrest)

/-- Pieces that are guarded are read as the plain ones are, and then the fault is reported. -/
theorem readAll {cut : Cut γ} {ofFault : CutFault → ε} {f : γ → Except ε α}
    {g : γ → Except (Stop ε) β}
    (hpieces : ∀ piece ∈ cut.pieces, Guarded overrun R (f piece) (g piece))
    (hcut : cut.fault ≠ some .overrun)
    (hfault : ∀ fault, fault ≠ .overrun → ofFault fault ≠ overrun) :
    Guarded overrun (List.Forall₂ R) (cut.readAll ofFault f)
      (cut.readAll (fun fault => .fault (ofFault fault)) g) := by
  refine (Guarded.mapM hpieces).bind fun as bs hrest => ?_
  cases h : cut.fault with
  | none => exact .ok hrest
  | some fault =>
    rw [h] at hcut
    exact .error (hfault fault fun he => hcut (congrArg some he))

/-- The error of a guarded reading is not that of a token past the end. -/
theorem ne_of_eq_error {x : Except ε α} {y : Except (Stop ε) β} {e : ε}
    (h : Guarded overrun R x y) (hx : x = .error e) : e ≠ overrun := by
  cases h with
  | ok h => contradiction
  | error h => exact Except.error.inj hx ▸ h

/-- A guarded reading whose result is a view of the plain one. -/
theorem eq_mapError {view : α → β} {x : Except ε α} {y : Except (Stop ε) β}
    (h : Guarded overrun (fun a b => b = view a) x y) :
    y = (x.map view).mapError .fault ∧ x ≠ .error overrun := by
  cases h with
  | ok h => exact ⟨congrArg Except.ok h, by simp⟩
  | error h => exact ⟨rfl, fun he => h (Except.error.inj he)⟩

end Guarded

namespace Stepwise

/-- The text of a checked read that found the end of its span. -/
def closed (result : Except Cursor.Breach (Except OpenSpan (List Char) × Cursor)) :
    Except (Stop CutFault) (List Char × Cursor) := do
  let read ← result.mapError .breach
  (FindSelect.closed read).mapError .fault

def cutToken (stops : List Char) (c : Cursor) : Except (Stop CutFault) (List Char × Cursor) :=
  (Cursor.Stepwise.takeToken stops c).mapError .breach

def cutKey (c : Cursor) : Except (Stop CutFault) (String × Cursor) :=
  if c.current?.any isQuoteMark then
    (closed (Cursor.Stepwise.takeQuoted c)).map fun r => (identifier r.1, r.2)
  else (cutToken [':'] c).map fun r => (String.ofList r.1, r.2)

def skipColon (kind : Mapping) (c : Cursor) : Except Cursor.Breach (Option Cursor) :=
  match kind with
  | .document => (Cursor.Stepwise.skipWhile (fun ch => isBlank ch || ch == ':') c).map some
  | .operators => do
    let c ← Cursor.Stepwise.skipWhile isBlank c
    if c.current? = some ':' then
      let c ← Cursor.Stepwise.next c
      (Cursor.Stepwise.skipWhile isBlank c).map some
    else return none

def cutPiece (c : Cursor) : Except (Stop CutFault) (Piece × Cursor) :=
  if c.current? = some '{' then
    (closed (Cursor.Stepwise.takeEnclosed '{' '}' c)).map fun r => (.braced r.1, r.2)
  else if c.current? = some '[' then
    (closed (Cursor.Stepwise.takeEnclosed '[' ']' c)).map fun r => (.bracketed r.1, r.2)
  else if c.current?.any isQuoteMark then
    (closed (Cursor.Stepwise.takeQuoted c)).map fun r => (.quoted r.1, r.2)
  else (cutToken [] c).map fun r => (.bare r.1, r.2)

def cutEntry (kind : Mapping) (c : Cursor) :
    Except (Stop CutFault) ((String × Piece) × Cursor) := do
  let (key, c) ← cutKey c
  if key = "" then throw (.fault .emptyKey)
  let some c ← (skipColon kind c).mapError .breach | throw (.fault .noValue)
  if c.atEnd then throw (.fault .noValue)
  let (piece, c) ← cutPiece c
  return ((key, piece), c)

def cutItem (c : Cursor) : Except (Stop CutFault) (Piece × Cursor) :=
  if c.current?.any isQuoteMark then
    (closed (Cursor.Stepwise.takeQuoted c)).map fun r => (.quoted r.1, r.2)
  else (cutToken [] c).map fun r => (.bare r.1, r.2)

def cutCondition (c : Cursor) : Except (Stop CutFault) (List (List Char) × Cursor) :=
  if c.current? = some '{' then
    (closed (Cursor.Stepwise.takeEnclosed '{' '}' c)).map fun r => ([r.1], r.2)
  else if c.current?.any isQuoteMark then
    (closed (Cursor.Stepwise.takeQuoted c)).map fun r => ([], r.2)
  else ((Cursor.Stepwise.next c).mapError .breach).map fun d => ([], d)

/-- Cuts pieces off until the end of the text or a fault. -/
def cutAll {α : Type} (step : Cursor → Except (Stop CutFault) (List α × Cursor)) (c : Cursor) :
    Except Cursor.Breach (Cut α) := do
  let start ← Cursor.Stepwise.skipWhile isSeparator c
  if start.atEnd then return .done
  match step start with
  | .error (.breach breach) => throw breach
  | .error (.fault fault) => return .stopped fault
  | .ok (pieces, next) =>
    if next.remaining < c.remaining then return (← cutAll step next).prepend pieces
    else throw .standstill
termination_by c.remaining

/-- Inserts the entries of a mapping in order. -/
def collect (entries : List (String × Value)) : Except (Stop SyntaxError) Store :=
  match Store.empty.insertAll entries with
  | some store => .ok store
  | none => .error (.breach .entry)

def readMap (kind : Mapping) (text : List Char)
    (readValue : Piece → Except (Stop SyntaxError) Value) : Except (Stop SyntaxError) Store :=
  match unwrap? '{' '}' (trim text) with
  | none => .error (.fault (kind.unclosed (trim text)))
  | some inner => do
    let cut ← (cutAll (fun c => (cutEntry kind c).map fun r => ([r.1], r.2))
      (.start inner)).mapError .breach
    let entries ← cut.readAll (fun fault => .fault (kind.ofFault (trim text) fault)) fun entry => do
      return (entry.1, ← readValue entry.2)
    collect entries

def readValues (text : List Char) : Except (Stop SyntaxError) (List Value) :=
  match unwrap? '[' ']' (trim text) with
  | none => .error (.fault (.unbalancedList (String.ofList (trim text))))
  | some inner => do
    let cut ← (cutAll (fun c => (cutItem c).map fun r => ([r.1], r.2)) (.start inner)).mapError
      .breach
    cut.readAll (fun fault => .fault (itemsFault (trim text) fault)) fun piece =>
      (readItem piece).mapError .fault

def readOperators (text : List Char) : Except (Stop SyntaxError) Store :=
  readMap .operators text fun piece =>
    match piece with
    | .quoted contents => .ok (.string (String.ofList contents))
    | .bracketed span => (readValues span).map .list
    | .braced span => .error (.fault (.malformedScalar (String.ofList span)))
    | .bare token => (readScalar token).mapError .fault

def readConditionsWith (text : List Char)
    (readElement : List Char → Except (Stop SyntaxError) Store) :
    Except (Stop SyntaxError) (List Store) :=
  match unwrap? '[' ']' (trim text) with
  | none => .error (.fault (.unbalancedList (String.ofList (trim text))))
  | some inner => do
    let cut ← (cutAll cutCondition (.start inner)).mapError .breach
    cut.readAll (fun fault => .fault (conditionsFault (trim text) fault)) readElement

def readDocument (text : List Char) : Except (Stop SyntaxError) Store :=
  if trim text = [] then .ok .empty
  else readMap .document text fun piece =>
    match piece with
    | .quoted contents => .ok (.string (String.ofList contents))
    | .braced span => (readOperators span).map fun store => .document store.entries
    | .bracketed span =>
      (readConditionsWith span fun element =>
        if element.length < text.length then readDocument element
        else .error (.breach .standstill)).map
          fun stores => .list (stores.map fun store => .document store.entries)
    | .bare token => (readScalar token).mapError .fault
termination_by text.length

def readConditions (text : List Char) : Except (Stop SyntaxError) (List Store) :=
  readConditionsWith text readDocument

section Cutting

variable {c : Cursor}

/-- Two readings give the same result and cursor, which lies in the text. -/
def SameCut {α : Type} (r r' : α × Cursor) : Prop :=
  r' = r ∧ r.2.position ≤ r.2.input.length

/-- Results that are the same are the same after a change of what was read. -/
theorem SameCut.map {α β : Type} {r r' : α × Cursor} (h : SameCut r r') (f : α → β) :
    SameCut (f r.1, r.2) (f r'.1, r'.2) := by
  obtain ⟨rfl, hinside⟩ := h
  exact ⟨rfl, hinside⟩

/-- A span that is read is read again under checks, if it ends inside the text. -/
theorem guarded_closed {read : Except OpenSpan (List Char) × Cursor}
    (h : ∀ text, read.1 = .ok text → read.2.position ≤ read.2.input.length) :
    Guarded .overrun SameCut (FindSelect.closed read) (closed (.ok read)) := by
  obtain ⟨span | text, d⟩ := read
  · exact .error (by simp)
  · exact .ok ⟨rfl, h text rfl⟩

/-- From inside the text a quoted text is read under checks as it is without them. -/
theorem guarded_takeQuoted (hc : c.position ≤ c.input.length) :
    Guarded .overrun SameCut (FindSelect.closed c.takeQuoted)
      (closed (Cursor.Stepwise.takeQuoted c)) := by
  rw [Cursor.Stepwise.takeQuoted_eq]
  apply guarded_closed
  intro text htext
  obtain ⟨mark, -, -, hover⟩ := Cursor.movesOver_takeQuoted (Prod.ext htext rfl)
  exact hover.inside hc

/-- From inside the text a span in brackets is read under checks as it is without them. -/
theorem guarded_takeEnclosed {opening closing : Char} (hbrackets : AreBrackets opening closing)
    (hc : c.position ≤ c.input.length) :
    Guarded .overrun SameCut (FindSelect.closed (c.takeEnclosed opening closing))
      (closed (Cursor.Stepwise.takeEnclosed opening closing c)) := by
  rw [Cursor.Stepwise.takeEnclosed_eq hbrackets.spec.1]
  apply guarded_closed
  intro text htext
  have hover := Cursor.movesOver_takeEnclosed (Prod.ext htext rfl)
  exact hover.inside hc

/-- From inside the text a token can always be read. -/
theorem guarded_cutToken (stops : List Char) (hc : c.position ≤ c.input.length) :
    Guarded .overrun SameCut (FindSelect.cutToken stops c) (cutToken stops c) := by
  rw [cutToken, FindSelect.cutToken, Cursor.Stepwise.takeToken_eq]
  cases hread : c.takeToken stops with
  | none =>
    rw [Cursor.takeToken, if_pos hc] at hread
    contradiction
  | some result => exact .ok ⟨rfl, (Cursor.movesOver_takeToken hread).inside hc⟩

/-- From inside the text a key is cut off under checks as it is without them. -/
theorem guarded_cutKey (hc : c.position ≤ c.input.length) :
    Guarded .overrun SameCut (FindSelect.cutKey c) (cutKey c) := by
  unfold FindSelect.cutKey cutKey
  split
  · exact (guarded_takeQuoted hc).map fun r r' h => h.map identifier
  · exact (guarded_cutToken [':'] hc).map fun r r' h => h.map String.ofList

/-- Under checks the cursor comes to the same value. -/
theorem skipColon_eq (kind : Mapping) (c : Cursor) :
    skipColon kind c = .ok (kind.skipColon c) := by
  cases kind with
  | document =>
    rw [skipColon, Cursor.Stepwise.skipWhile_eq]
    rfl
  | operators =>
    rw [skipColon, Cursor.Stepwise.skipBlanks_eq, ok_bind, Mapping.skipColon]
    by_cases hcolon : c.skipBlanks.current? = some ':'
    · rw [if_pos hcolon, if_pos hcolon, Cursor.Stepwise.next_of_current? hcolon, ok_bind,
        Cursor.Stepwise.skipBlanks_eq]
      rfl
    · rw [if_neg hcolon, if_neg hcolon]
      rfl

/-- The way from a key to its value stays inside the text. -/
theorem inside_of_skipColon {kind : Mapping} {d : Cursor} (hc : c.position ≤ c.input.length)
    (h : kind.skipColon c = some d) : d.position ≤ d.input.length := by
  cases kind with
  | document =>
    obtain rfl := Option.some.inj h
    exact (Cursor.movesOver_skipWhile _ c).inside hc
  | operators =>
    simp only [Mapping.skipColon] at h
    split at h
    · rename_i hcolon
      obtain rfl := Option.some.inj h
      apply (Cursor.movesOver_skipWhile isBlank _).inside
      exact Cursor.position_lt_of_current? hcolon
    · contradiction

/-- From inside the text a value is cut off under checks as it is without them. -/
theorem guarded_cutPiece (hc : c.position ≤ c.input.length) :
    Guarded .overrun SameCut (FindSelect.cutPiece c) (cutPiece c) := by
  unfold FindSelect.cutPiece cutPiece
  split
  · exact (guarded_takeEnclosed braces hc).map fun r r' h => h.map Piece.braced
  split
  · exact (guarded_takeEnclosed squares hc).map fun r r' h => h.map Piece.bracketed
  split
  · exact (guarded_takeQuoted hc).map fun r r' h => h.map Piece.quoted
  · exact (guarded_cutToken [] hc).map fun r r' h => h.map Piece.bare

/-- An entry is cut off under checks as it is without them: each of its parts leaves the cursor
    inside the text for the next one. -/
theorem guarded_cutEntry (kind : Mapping) (hc : c.position ≤ c.input.length) :
    Guarded .overrun SameCut (FindSelect.cutEntry kind c) (cutEntry kind c) := by
  apply (guarded_cutKey hc).bind
  rintro ⟨key, atColon⟩ _ ⟨rfl, hcolon⟩
  dsimp only
  split
  · exact .error (by simp)
  rw [skipColon_eq]
  cases hskip : kind.skipColon atColon with
  | none => exact .error (by simp)
  | some atValue =>
    have hvalue := inside_of_skipColon hcolon hskip
    change Guarded _ _ (if atValue.atEnd = true then _ else _)
      (if atValue.atEnd = true then _ else _)
    split
    · exact .error (by simp)
    apply (guarded_cutPiece hvalue).bind
    rintro ⟨piece, d⟩ _ ⟨rfl, hd⟩
    exact .ok ⟨rfl, hd⟩

/-- From inside the text an item is cut off under checks as it is without them. -/
theorem guarded_cutItem (hc : c.position ≤ c.input.length) :
    Guarded .overrun SameCut (FindSelect.cutItem c) (cutItem c) := by
  unfold FindSelect.cutItem cutItem
  split
  · exact (guarded_takeQuoted hc).map fun r r' h => h.map Piece.quoted
  · exact (guarded_cutToken [] hc).map fun r r' h => h.map Piece.bare

/-- A step through a list of documents is guarded as long as there is text ahead of it. -/
theorem guarded_cutCondition (hc : c.position ≤ c.input.length) (hend : c.atEnd = false) :
    Guarded .overrun SameCut (FindSelect.cutCondition c) (cutCondition c) := by
  unfold FindSelect.cutCondition cutCondition
  split
  · exact (guarded_takeEnclosed braces hc).map fun r r' h => h.map fun span => [span]
  split
  · exact (guarded_takeQuoted hc).map fun r r' h => h.map fun _ => []
  · have hlt := Cursor.position_lt_of_atEnd_eq_false hend
    rw [Cursor.Stepwise.next, if_pos hlt]
    exact .ok ⟨rfl, hlt⟩

/-- A checked loop cuts off what the plain one does, since every step that it takes from inside the
    text is guarded. The induction is on the text ahead. -/
theorem cutAll_eq {α : Type} {plain : Cursor → Except CutFault (List α × Cursor)}
    {step : Cursor → Except (Stop CutFault) (List α × Cursor)} {loop : Cursor → Cut α}
    (hloop : CutLoop plain loop)
    (hstep : ∀ c : Cursor, c.position ≤ c.input.length → c.atEnd = false →
      Guarded .overrun SameCut (plain c) (step c)) (n : Nat) :
    ∀ c : Cursor, c.remaining < n → c.position ≤ c.input.length →
      cutAll step c = .ok (loop c) ∧ (loop c).fault ≠ some .overrun := by
  induction n with
  | zero => intro c hlength; omega
  | succ n ih =>
    intro c hlength hc
    have hskip := (Cursor.movesOver_skipWhile isSeparator c).inside hc
    rw [cutAll, Cursor.Stepwise.skipGap_eq, ok_bind]
    cases hend : c.skipGap.atEnd with
    | true =>
      rw [if_pos rfl, hloop.done c hend]
      exact ⟨rfl, by simp [Cut.done]⟩
    | false =>
      rw [if_neg Bool.false_ne_true]
      have hguard := hstep c.skipGap hskip hend
      generalize hplain : plain c.skipGap = x at hguard
      generalize step c.skipGap = y at hguard
      cases hguard with
      | error hfault =>
        rw [hloop.stopped c _ hend hplain]
        exact ⟨rfl, by simpa [Cut.stopped] using hfault⟩
      | @ok r r' hsame =>
        obtain ⟨rfl, hinside⟩ := hsame
        obtain ⟨hlt, hcut⟩ := hloop.next c r'.2 r'.1 hend hplain
        obtain ⟨hall, hfault⟩ := ih r'.2 (by omega) hinside
        dsimp only
        rw [if_pos hlt, hall, hcut]
        exact ⟨rfl, hfault⟩

/-- The entries of a mapping are the same under checks, and no token is read past the end. -/
theorem cutAll_entries (kind : Mapping) (inner : List Char) :
    cutAll (fun c => (cutEntry kind c).map fun r => ([r.1], r.2)) (.start inner) =
        .ok (cutEntries kind (.start inner)) ∧
      (cutEntries kind (.start inner)).fault ≠ some .overrun := by
  refine cutAll_eq (cutLoop_cutEntries kind) ?_ _ _ (Nat.lt_succ_self _) (Nat.zero_le _)
  intro c hc _
  exact (guarded_cutEntry kind hc).map fun r r' h => h.map fun entry => [entry]

/-- The items of a list are the same under checks, and no token is read past the end. -/
theorem cutAll_items (inner : List Char) :
    cutAll (fun c => (cutItem c).map fun r => ([r.1], r.2)) (.start inner) =
        .ok (cutItems (.start inner)) ∧
      (cutItems (.start inner)).fault ≠ some .overrun := by
  refine cutAll_eq cutLoop_cutItems ?_ _ _ (Nat.lt_succ_self _) (Nat.zero_le _)
  intro c hc _
  exact (guarded_cutItem hc).map fun r r' h => h.map fun piece => [piece]

/-- The documents of a list are the same under checks. -/
theorem cutAll_conditions (inner : List Char) :
    cutAll cutCondition (.start inner) = .ok (cutConditions (.start inner)) ∧
      (cutConditions (.start inner)).fault ≠ some .overrun := by
  refine cutAll_eq cutLoop_cutConditions ?_ _ _ (Nat.lt_succ_self _) (Nat.zero_le _)
  intro c hc hend
  exact guarded_cutCondition hc hend

end Cutting

section Reading

/-- The store of a document is what its entries fill when they are inserted one by one. -/
theorem collect_eq (entries : List (String × Value)) :
    collect entries = .ok (Document.ofEntries entries).store := by
  have hstore : Store.empty.insertAll entries = _ := Document.insertAll_store .empty entries
  rw [collect, hstore, Document.ofEntries_eq_insertAll]

/-- A scalar is read without a cursor, so there is nothing to check but its error. -/
theorem guarded_readScalar (token : List Char) :
    Guarded .overrun Eq (readScalar token) ((readScalar token).mapError .fault) := by
  cases h : readScalar token with
  | ok value => exact .ok rfl
  | error e =>
    apply Guarded.error
    rw [eq_malformed_of_readScalar h]
    simp

theorem guarded_readItem (piece : Piece) :
    Guarded .overrun Eq (readItem piece) ((readItem piece).mapError .fault) := by
  cases piece with
  | quoted contents => exact .ok rfl
  | _ => exact guarded_readScalar _

/-- Only a token past the end makes the error of one. -/
theorem ofFault_ne_overrun (kind : Mapping) (text : List Char) (fault : CutFault)
    (h : fault ≠ .overrun) : kind.ofFault text fault ≠ .overrun := by
  cases kind <;> cases fault <;> simp_all [Mapping.ofFault, Mapping.unclosed]

/-- A mapping is guarded if its values are, each of which is shorter than the text. -/
theorem guarded_readMap {kind : Mapping} {text : List Char}
    {read : Piece → Except SyntaxError Value} {check : Piece → Except (Stop SyntaxError) Value}
    (h : ∀ piece : Piece, piece.length < text.length →
      Guarded .overrun Eq (read piece) (check piece)) :
    Guarded .overrun (fun d s => s = d.store)
      (FindSelect.readMap kind text fun piece _ => read piece) (readMap kind text check) := by
  rw [readMap]
  cases hunwrap : unwrap? '{' '}' (trim text) with
  | none =>
    rw [readMap_of_not_unwrap hunwrap]
    cases kind <;> exact .error (by simp [Mapping.unclosed])
  | some inner =>
    obtain ⟨hcut, hfault⟩ := cutAll_entries kind inner
    rw [readMap_of_unwrap hunwrap]
    dsimp only
    rw [hcut]
    refine (Guarded.readAll (R := Eq) ?_ hfault (ofFault_ne_overrun kind _)).map_bind ?_
    · intro entry hentry
      have hlength := length_le_of_mem_cutEntries kind _ entry hentry
      apply (h entry.2 (lt_length_of_unwrap? hunwrap hlength)).bind
      rintro value _ rfl
      exact .ok rfl
    · intro entries entries' hentries
      rw [List.forall₂_eq_eq_eq] at hentries
      subst hentries
      rw [collect_eq]
      exact .ok rfl

theorem itemsFault_ne_overrun (text : List Char) (fault : CutFault) (h : fault ≠ .overrun) :
    itemsFault text fault ≠ .overrun := by
  cases fault <;> simp_all [itemsFault]

theorem conditionsFault_ne_overrun (text : List Char) (fault : CutFault) (h : fault ≠ .overrun) :
    conditionsFault text fault ≠ .overrun := by
  rcases fault with ⟨_ | _⟩ | _ | _ | _ <;> simp_all [conditionsFault]

/-- A list of primitives is guarded. -/
theorem guarded_readValues (text : List Char) :
    Guarded .overrun Eq (FindSelect.readValues text) (readValues text) := by
  rw [readValues]
  cases hunwrap : unwrap? '[' ']' (trim text) with
  | none =>
    rw [readValues_of_not_unwrap hunwrap]
    exact .error (by simp)
  | some inner =>
    obtain ⟨hcut, hfault⟩ := cutAll_items inner
    rw [readValues_of_unwrap hunwrap]
    dsimp only
    rw [hcut]
    have hread := Guarded.readAll (R := Eq) (fun piece _ => guarded_readItem piece) hfault
      (itemsFault_ne_overrun (trim text))
    rw [List.forall₂_eq_eq_eq] at hread
    exact hread

/-- An operator map is guarded, as its values are. -/
theorem guarded_readOperators (text : List Char) :
    Guarded .overrun (fun d s => s = d.store) (FindSelect.readOperators text)
      (readOperators text) := by
  rw [FindSelect.readOperators, readOperators]
  apply guarded_readMap
  intro piece _
  cases piece with
  | quoted contents => exact .ok rfl
  | bracketed span =>
    exact (guarded_readValues span).map fun items items' h => congrArg Value.list h
  | braced span => exact .error (by simp)
  | bare token => exact guarded_readScalar token

/-- A list of documents is guarded if the documents in it are. -/
theorem guarded_readConditions {text : List Char}
    {check : List Char → Except (Stop SyntaxError) Store}
    (h : ∀ element : List Char, element.length < text.length →
      Guarded .overrun (fun d s => s = d.store) (FindSelect.readDocument element) (check element)) :
    Guarded .overrun (fun documents stores => stores = documents.map Document.store)
      (FindSelect.readConditions text) (readConditionsWith text check) := by
  rw [readConditionsWith]
  cases hunwrap : unwrap? '[' ']' (trim text) with
  | none =>
    rw [readConditions_of_not_unwrap hunwrap]
    exact .error (by simp)
  | some inner =>
    obtain ⟨hcut, hfault⟩ := cutAll_conditions inner
    rw [readConditions_of_unwrap hunwrap]
    dsimp only
    rw [hcut]
    refine (Guarded.readAll (R := fun d s => s = d.store) ?_ hfault
      (conditionsFault_ne_overrun (trim text))).mono ?_
    · intro element hmem
      have hlength := length_le_of_mem_cutConditions _ element hmem
      exact h element (lt_length_of_unwrap? hunwrap hlength)
    · intro documents stores hstores
      rw [← List.forall₂_eq_eq_eq, List.forall₂_map_right_iff]
      exact hstores.flip

/-- Documents and condition lists are read through each other, so the induction is on the length of
    the text. -/
theorem guarded_readDocument (n : Nat) : ∀ text : List Char, text.length < n →
    Guarded .overrun (fun d s => s = d.store) (FindSelect.readDocument text)
      (readDocument text) := by
  induction n with
  | zero => intro text hlength; omega
  | succ n ih =>
    intro text hlength
    rw [readDocument_eq, readDocument]
    split
    · exact .ok rfl
    apply guarded_readMap
    intro piece hpiece
    cases piece with
    | quoted contents => exact .ok rfl
    | braced span => exact (guarded_readOperators span).map fun d s h => h ▸ rfl
    | bracketed span =>
      refine (guarded_readConditions ?_).map ?_
      · intro element helement
        have hshort : element.length < text.length := Nat.lt_trans helement hpiece
        rw [if_pos hshort]
        exact ih element (by omega)
      · rintro documents _ rfl
        rw [List.map_map]
        rfl
    | bare token => exact guarded_readScalar token

end Reading

end Stepwise
end FindSelect
