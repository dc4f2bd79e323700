import FindSelect.Proofs.Document.Concatenation

namespace FindSelect

open Text

/-- What a reading does to get on: a loop goes round once more, or a part of a text is read by
    itself. -/
inductive Stride where
  | round (before after : Cursor)
  | nested (text part : List Char)
  deriving DecidableEq

/-- A round moves the cursor on, and a part is shorter than the text that it was cut from. -/
def Stride.Progresses : Stride → Prop
  | .round before after => after.input = before.input ∧ before.position < after.position
  | .nested text part => part.length < text.length

/-- A reading with a bound: the strides that it took, and its outcome unless it ran out before it
    came to one. -/
structure Metered (α : Type) where
  strides : List Stride
  outcome : Option (Except SyntaxError α)

namespace Metered

variable {α β : Type}

/-- An outcome that takes no strides. -/
def of (outcome : Except SyntaxError α) : Metered α := ⟨[], some outcome⟩

def exhausted : Metered α := ⟨[], none⟩

def after (stride : Stride) (x : Metered α) : Metered α := ⟨stride :: x.strides, x.outcome⟩

def map (f : α → β) (x : Metered α) : Metered β := ⟨x.strides, x.outcome.map (Except.map f)⟩

/-- Goes on with a value, if there is one; the strides of both parts follow each other. -/
def andThen (x : Metered α) (f : α → Metered β) : Metered β :=
  match x.outcome with
  | some (.ok a) => ⟨x.strides ++ (f a).strides, (f a).outcome⟩
  | some (.error e) => ⟨x.strides, some (.error e)⟩
  | none => ⟨x.strides, none⟩

/-- Reads items in order, up to the first error. -/
def each (read : α → Metered β) : List α → Metered (List β)
  | [] => .of (.ok [])
  | item :: items => (read item).andThen fun first => (each read items).map (first :: ·)

/-- Passes over separators and takes a step, at most `bound` times. What a step cuts off is read
    before the next round. -/
def loop (step : Cursor → Except CutFault (List α × Cursor)) (ofFault : CutFault → SyntaxError)
    (read : α → Metered β) : (bound : Nat) → Cursor → Metered (List β)
  | 0, _ => .exhausted
  | bound + 1, c =>
    if c.skipGap.atEnd then .of (.ok [])
    else match step c.skipGap with
      | .error fault => .of (.error (ofFault fault))
      | .ok (pieces, next) =>
        (each read pieces).andThen fun first =>
          ((loop step ofFault read bound next).map (first ++ ·)).after (.round c next)

end Metered

namespace Bounded

open Metered

def readValues : (bound : Nat) → List Char → Metered (List Value)
  | 0, _ => .exhausted
  | bound + 1, text =>
    match unwrap? '[' ']' (trim text) with
    | none => .of (.error (.unbalancedList (String.ofList (trim text))))
    | some inner =>
      loop (fun c => (cutItem c).map fun r => ([r.1], r.2)) (itemsFault (trim text))
        (fun piece => .of (readItem piece)) bound (.start inner)

def readMap (kind : Mapping) (read : Piece → Metered Value) (bound : Nat) (text : List Char) :
    Metered Document :=
  match unwrap? '{' '}' (trim text) with
  | none => .of (.error (kind.unclosed (trim text)))
  | some inner =>
    (loop (fun c => (cutEntry kind c).map fun r => ([r.1], r.2)) (kind.ofFault (trim text))
      (fun entry => (read entry.2).map fun value => (entry.1, value)) bound (.start inner)).map
        Document.ofEntries

def readOperators : (bound : Nat) → List Char → Metered Document
  | 0, _ => .exhausted
  | bound + 1, text =>
    readMap .operators (fun piece =>
      match piece with
      | .quoted contents => .of (.ok (.string (String.ofList contents)))
      | .bracketed span => ((readValues bound span).map .list).after (.nested text span)
      | .braced span => .of (.error (.malformedScalar (String.ofList span)))
      | .bare token => .of (readScalar token)) bound text

mutual

/-- Reads a document. With `bound + 1` to go, the loop over its entries goes round `bound` times at
    most, and each nested reading has `bound` to go. -/
def readDocument : (bound : Nat) → List Char → Metered Document
  | 0, _ => .exhausted
  | bound + 1, text =>
    if trim text = [] then .of (.ok .empty)
    else readMap .document (fun piece =>
      match piece with
      | .quoted contents => .of (.ok (.string (String.ofList contents)))
      | .braced span =>
        ((readOperators bound span).map Document.toValue).after (.nested text span)
      | .bracketed span =>
        ((readConditions bound span).map fun documents =>
          .list (documents.map Document.toValue)).after (.nested text span)
      | .bare token => .of (readScalar token)) bound text

def readConditions : (bound : Nat) → List Char → Metered (List Document)
  | 0, _ => .exhausted
  | bound + 1, text =>
    match unwrap? '[' ']' (trim text) with
    | none => .of (.error (.unbalancedList (String.ofList (trim text))))
    | some inner =>
      loop cutCondition (conditionsFault (trim text))
        (fun span => (readDocument bound span).after (.nested text span)) bound (.start inner)

end

end Bounded

/-- A step that, after the separators, moves the cursor on. -/
def Moves {α : Type} (step : Cursor → Except CutFault (List α × Cursor)) : Prop :=
  ∀ (c d : Cursor) (pieces : List α), c.skipGap.atEnd = false →
    step c.skipGap = .ok (pieces, d) → c.skipGap.Leads d ∧ c.skipGap.position < d.position

/-- An entry moves the cursor on by its key at least. -/
theorem moves_cutEntry (kind : Mapping) :
    Moves fun c => (cutEntry kind c).map fun r => ([r.1], r.2) := by
  intro c d pieces _ h
  obtain ⟨⟨entry, e⟩, hcut, hpair⟩ := map_eq_ok.1 h
  obtain ⟨-, rfl⟩ := Prod.mk.inj hpair
  obtain ⟨hleads, hmoved, -⟩ := cutEntry_ok hcut
  exact ⟨hleads, hmoved⟩

theorem moves_cutItem : Moves fun c => (cutItem c).map fun r => ([r.1], r.2) := by
  intro c d pieces hend h
  obtain ⟨⟨piece, e⟩, hcut, hpair⟩ := map_eq_ok.1 h
  obtain ⟨-, rfl⟩ := Prod.mk.inj hpair
  exact cutItem_moves hcut hend

theorem moves_cutCondition : Moves cutCondition := fun _ _ _ _ h => cutCondition_moves h

/-- A bounded reading whose strides all make progress and that, if the bound is large enough, ends
    as the plain one does. -/
structure Settled {α : Type} (x : Metered α) (plain : Except SyntaxError α) (enough : Prop) :
    Prop where
  progress : ∀ stride ∈ x.strides, stride.Progresses
  outcome : enough → x.outcome = some plain

namespace Settled

variable {α β : Type} {x : Metered α} {plain : Except SyntaxError α} {enough : Prop}

/-- A reading without strides is settled, whatever the bound. -/
theorem of (plain : Except SyntaxError α) : Settled (.of plain) plain enough :=
  ⟨by simp [Metered.of], fun _ => rfl⟩

/-- A reading that has run out is settled if its bound was too small. -/
theorem exhausted (h : ¬ enough) : Settled .exhausted plain enough :=
  ⟨by simp [Metered.exhausted], fun henough => absurd henough h⟩

theorem mono {enough' : Prop} (h : Settled x plain enough) (hmono : enough' → enough) :
    Settled x plain enough' :=
  ⟨h.progress, fun henough => h.outcome (hmono henough)⟩

/-- One more stride that makes progress leaves a reading settled. -/
theorem after {stride : Stride} (h : Settled x plain enough) (hstride : stride.Progresses) :
    Settled (x.after stride) plain enough where
  progress := by
    intro other hother
    rcases List.mem_cons.1 hother with rfl | hother
    · exact hstride
    · exact h.progress other hother
  outcome := h.outcome

/-- What is enough for a text is enough for a part of it. -/
theorem nested {text part : List Char} {bound : Nat} (h : Settled x plain (part.length < bound))
    (hshort : part.length < text.length) :
    Settled (x.after (.nested text part)) plain (text.length ≤ bound) :=
  (h.mono fun hlength => Nat.lt_of_lt_of_le hshort hlength).after hshort

theorem map (h : Settled x plain enough) (f : α → β) :
    Settled (x.map f) (plain.map f) enough where
  progress := h.progress
  outcome := by
    intro henough
    rw [Metered.map, h.outcome henough]
    rfl

/-- The strides of both parts make progress, and the second part begins with the same value. -/
theorem andThen {f : α → Metered β} {g : α → Except SyntaxError β} (h : Settled x plain enough)
    (hnext : ∀ a, Settled (f a) (g a) enough) :
    Settled (x.andThen f) (plain >>= g) enough where
  progress := by
    unfold Metered.andThen
    split
    · intro stride hstride
      rcases List.mem_append.1 hstride with hstride | hstride
      · exact h.progress stride hstride
      · exact (hnext _).progress stride hstride
    · exact h.progress
    · exact h.progress
  outcome := by
    intro henough
    rw [Metered.andThen, h.outcome henough]
    cases plain with
    | ok a => exact (hnext a).outcome henough
    | error e => rfl

/-- Items that are settled one by one are settled in a row. -/
theorem each {read : α → Metered β} {plain : α → Except SyntaxError β} {items : List α}
    (h : ∀ item ∈ items, Settled (read item) (plain item) enough) :
    Settled (Metered.each read items) (items.mapM plain) enough := by
  induction items with
  | nil => exact .of (.ok [])
  | cons item items ih =>
    have hitems := ih fun other hother => h other (List.mem_cons_of_mem item hother)
    rw [List.mapM_cons]
    exact (h item List.mem_cons_self).andThen fun first => hitems.map (first :: ·)

/-- Each round of a loop moves on, so a bound larger than the text ahead is enough for it if it is
    enough for what is cut off. The induction is on the bound. -/
theorem loop {step : Cursor → Except CutFault (List α × Cursor)} {cut : Cursor → Cut α}
    {ofFault : CutFault → SyntaxError} {read : α → Metered β} {plain : α → Except SyntaxError β}
    (hloop : CutLoop step cut) (hmoves : Moves step) (bound : Nat) (c : Cursor)
    (hread : ∀ piece ∈ (cut c).pieces, Settled (read piece) (plain piece) enough) :
    Settled (Metered.loop step ofFault read bound c) ((cut c).readAll ofFault plain)
      (enough ∧ c.remaining < bound) := by
  induction bound generalizing c with
  | zero =>
    apply exhausted
    rintro ⟨-, hlt⟩
    omega
  | succ bound ih =>
    rw [Metered.loop]
    cases hend : c.skipGap.atEnd with
    | true =>
      rw [if_pos rfl, hloop.done c hend]
      exact .of (.ok [])
    | false =>
      rw [if_neg Bool.false_ne_true]
      cases hstep : step c.skipGap with
      | error fault =>
        rw [hloop.stopped c fault hend hstep]
        exact .of (.error (ofFault fault))
      | ok result =>
        obtain ⟨hleads, hmoved⟩ := hmoves c result.2 result.1 hend hstep
        obtain ⟨hlt, hcut⟩ := hloop.next c result.2 result.1 hend hstep
        rw [hcut] at hread ⊢
        rw [Cut.readAll_prepend]
        -- What was cut off is read first, then the loop goes on with less text and a smaller bound.
        have hfirst := each fun piece hpiece => hread piece (List.mem_append_left _ hpiece)
        have hnext := ih result.2 fun piece hpiece => hread piece (List.mem_append_right _ hpiece)
        have hskip : c.Leads c.skipGap := Cursor.leads_skipWhile _ c
        refine (hfirst.mono And.left).andThen fun first =>
          ((hnext.map (first ++ ·)).mono ?_).after ?_
        · rintro ⟨henough, hbound⟩
          exact ⟨henough, by omega⟩
        · exact ⟨(hskip.trans hleads).1, Nat.lt_of_le_of_lt hskip.2 hmoved⟩

end Settled

section Readers

/-- The loop over what stands in the brackets of a text goes round less often than the text has
    characters. -/
theorem settled_loop_unwrapped {α β : Type} {step : Cursor → Except CutFault (List α × Cursor)}
    {cut : Cursor → Cut α} {ofFault : CutFault → SyntaxError} {read : α → Metered β}
    {plain : α → Except SyntaxError β} (hloop : CutLoop step cut) (hmoves : Moves step)
    {opening closing : Char} {text inner : List Char}
    (hunwrap : unwrap? opening closing (trim text) = some inner) {bound : Nat}
    (hread : ∀ piece ∈ (cut (.start inner)).pieces,
      Settled (read piece) (plain piece) (text.length ≤ bound)) :
    Settled (Metered.loop step ofFault read bound (.start inner))
      ((cut (.start inner)).readAll ofFault plain) (text.length ≤ bound) := by
  apply (Settled.loop hloop hmoves bound (.start inner) hread).mono
  intro hlength
  have hinner : (Cursor.start inner).remaining < text.length :=
    lt_length_of_unwrap? hunwrap (Nat.le_refl _)
  exact ⟨hlength, by omega⟩

/-- The only strides of a list of primitives are the rounds of its loop. -/
theorem settled_readValues (bound : Nat) (text : List Char) :
    Settled (Bounded.readValues bound text) (readValues text) (text.length < bound) := by
  cases bound with
  | zero => exact .exhausted (Nat.not_lt_zero _)
  | succ bound =>
    rw [Bounded.readValues]
    cases hunwrap : unwrap? '[' ']' (trim text) with
    | none =>
      rw [readValues_of_not_unwrap hunwrap]
      exact .of _
    | some inner =>
      rw [readValues_of_unwrap hunwrap]
      apply (settled_loop_unwrapped cutLoop_cutItems moves_cutItem hunwrap ?_).mono
        Nat.le_of_lt_succ
      exact fun piece _ => .of (readItem piece)

/-- A mapping is settled if its values are, each of which is shorter than the text. -/
theorem settled_readMap {kind : Mapping} {text : List Char} {bound : Nat}
    {read : Piece → Metered Value} {plain : Piece → Except SyntaxError Value}
    (h : ∀ piece : Piece, piece.length < text.length →
      Settled (read piece) (plain piece) (text.length ≤ bound)) :
    Settled (Bounded.readMap kind read bound text)
      (readMap kind text fun piece _ => plain piece) (text.length < bound + 1) := by
  rw [Bounded.readMap]
  cases hunwrap : unwrap? '{' '}' (trim text) with
  | none =>
    rw [readMap_of_not_unwrap hunwrap]
    exact .of _
  | some inner =>
    rw [readMap_of_unwrap hunwrap]
    refine .map (.mono (settled_loop_unwrapped (cutLoop_cutEntries kind) (moves_cutEntry kind)
      hunwrap ?_) Nat.le_of_lt_succ) Document.ofEntries
    intro entry hentry
    have hlength := length_le_of_mem_cutEntries kind _ entry hentry
    exact (h entry.2 (lt_length_of_unwrap? hunwrap hlength)).map fun value => (entry.1, value)

/-- Each list in an operator map is a shorter text. -/
theorem settled_readOperators (bound : Nat) (text : List Char) :
    Settled (Bounded.readOperators bound text) (readOperators text) (text.length < bound) := by
  cases bound with
  | zero => exact .exhausted (Nat.not_lt_zero _)
  | succ bound =>
    rw [readOperators, Bounded.readOperators]
    apply settled_readMap
    intro piece hpiece
    cases piece with
    | quoted contents => exact .of _
    | bracketed span =>
      exact ((settled_readValues bound span).map Value.list).nested hpiece
    | braced span => exact .of _
    | bare token => exact .of _

/-- A list of documents is settled if its documents are with one less to go. -/
theorem settled_readConditions {bound : Nat}
    (h : ∀ text : List Char,
      Settled (Bounded.readDocument bound text) (readDocument text) (text.length < bound))
    (text : List Char) :
    Settled (Bounded.readConditions (bound + 1) text) (readConditions text)
      (text.length < bound + 1) := by
  rw [Bounded.readConditions]
  cases hunwrap : unwrap? '[' ']' (trim text) with
  | none =>
    rw [readConditions_of_not_unwrap hunwrap]
    exact .of _
  | some inner =>
    rw [readConditions_of_unwrap hunwrap]
    apply (settled_loop_unwrapped cutLoop_cutConditions moves_cutCondition hunwrap ?_).mono
      Nat.le_of_lt_succ
    intro span hspan
    have hlength := length_le_of_mem_cutConditions _ span hspan
    have hshort : span.length < text.length := lt_length_of_unwrap? hunwrap hlength
    exact (h span).nested hshort

/-- Documents and condition lists are read through each other, so the induction is on the bound for
    both. -/
theorem settled_readDocument (bound : Nat) :
    (∀ text : List Char,
      Settled (Bounded.readDocument bound text) (readDocument text) (text.length < bound)) ∧
    ∀ text : List Char,
      Settled (Bounded.readConditions bound text) (readConditions text) (text.length < bound) := by
  induction bound with
  | zero =>
    exact ⟨fun _ => .exhausted (Nat.not_lt_zero _), fun _ => .exhausted (Nat.not_lt_zero _)⟩
  | succ bound ih =>
    obtain ⟨hdocument, hconditions⟩ := ih
    refine ⟨?_, settled_readConditions hdocument⟩
    intro text
    rw [readDocument_eq, Bounded.readDocument]
    split
    · exact .of _
    apply settled_readMap
    intro piece hpiece
    cases piece with
    | quoted contents => exact .of _
    | braced span =>
      exact ((settled_readOperators bound span).map Document.toValue).nested hpiece
    | bracketed span =>
      have hlist := (hconditions span).map fun documents =>
        Value.list (documents.map Document.toValue)
      exact hlist.nested hpiece
    | bare token => exact .of _

end Readers

/-- Whatever the bound, every stride of a reading makes progress; and from `limit` on every bound
    is enough, so that the reading comes to the end that it has without one. -/
structure EndsWithin {α : Type} (limit : Nat) (reading : Nat → Metered α)
    (plain : Except SyntaxError α) : Prop where
  progress : ∀ bound, ∀ stride ∈ (reading bound).strides, stride.Progresses
  outcome : ∀ bound, limit ≤ bound → (reading bound).outcome = some plain

/-- A reading that is settled for every bound ends within the first one that is enough. -/
theorem endsWithin_of_settled {α : Type} {limit : Nat} {reading : Nat → Metered α}
    {plain : Except SyntaxError α} (h : ∀ bound, Settled (reading bound) plain (limit < bound)) :
    EndsWithin (limit + 1) reading plain :=
  ⟨fun bound => (h bound).progress, fun bound => (h bound).outcome⟩

/-- Documents, operator maps and both kinds of list are read to the end with any bound larger than
    the number of characters: each round of a loop moves its cursor on, and each nested reading is
    of a shorter text. -/
theorem reads_within_length (text : String) :
    EndsWithin (text.length + 1) (Bounded.readDocument · text.toList) (Document.parse text) ∧
      EndsWithin (text.length + 1) (Bounded.readOperators · text.toList)
        (Document.parseOperators text) ∧
      EndsWithin (text.length + 1) (Bounded.readConditions · text.toList)
        (Document.parseList text) ∧
      EndsWithin (text.length + 1) (Bounded.readValues · text.toList) (Value.parseList text) := by
  rw [← String.length_toList]
  refine ⟨?_, ?_, ?_, ?_⟩ <;> apply endsWithin_of_settled
  · exact fun bound => (settled_readDocument bound).1 text.toList
  · exact fun bound => settled_readOperators bound text.toList
  · exact fun bound => (settled_readDocument bound).2 text.toList
  · exact fun bound => settled_readValues bound text.toList

example :
    (Bounded.readDocument 5 "\x7ba: \x7b$in: [1]\x7d\x7d".toList).strides =
      [.nested "\x7ba: \x7b$in: [1]\x7d\x7d".toList "\x7b$in: [1]\x7d".toList,
        .nested "\x7b$in: [1]\x7d".toList "[1]".toList,
        .round ⟨['1'], 0⟩ ⟨['1'], 1⟩,
        .round ⟨"$in: [1]".toList, 0⟩ ⟨"$in: [1]".toList, 8⟩,
        .round ⟨"a: \x7b$in: [1]\x7d".toList, 0⟩ ⟨"a: \x7b$in: [1]\x7d".toList, 13⟩] := by
  decide +kernel

end FindSelect
