import FindSelect.Proofs.Outcome
import FindSelect.Proofs.Text.Cursor

namespace FindSelect.Text.Cursor

/-- What may go wrong when a text is read one character at a time. -/
inductive Breach where
  /-- The cursor would leave the text. -/
  | position
  /-- The two ends of a piece are out of order, or not both in the text. -/
  | slice
  /-- A bracket is closed while none is open. -/
  | depth
  /-- A position of the index is not among the entries. -/
  | entry
  /-- A loop stays where it is, or a nested reading gets no shorter text. -/
  | standstill
  deriving DecidableEq, Repr

theorem position_lt_of_current? {c : Cursor} {ch : Char} (h : c.current? = some ch) :
    c.position < c.input.length :=
  (List.getElem?_eq_some_iff.1 h).1

/-- The character under the cursor is ahead of all that comes after it. -/
theorem rest_of_current? {c : Cursor} {ch : Char} (h : c.current? = some ch) :
    c.rest = ch :: (c.advance 1).rest := by
  rw [current?_eq_head?_rest, List.head?_eq_some_iff] at h
  obtain ⟨text, htext⟩ := h
  rw [rest_advance, htext]
  rfl

theorem current?_eq_none_iff {c : Cursor} : c.current? = none ↔ c.rest = [] := by
  rw [current?_eq_head?_rest, List.head?_eq_none_iff]

theorem advance_advance (c : Cursor) (m n : Nat) :
    (c.advance m).advance n = c.advance (n + m) := by
  simp only [advance, Nat.add_assoc, Nat.add_comm n m]

/-- Without a second quote, the cursor is left at the end. -/
theorem takeQuoted_of_open {c : Cursor} {mark : Char} {text : List Char} (h : c.rest = mark :: text)
    (hmark : isQuoteMark mark = true) (htext : mark ∉ text) :
    c.takeQuoted = (.error .quote, { c with position := c.input.length }) := by
  have htake : text.takeWhile (· != mark) = text :=
    List.takeWhile_eq_self_iff.2 (bne_of_not_mem htext)
  rw [takeQuoted, h]
  dsimp only
  rw [if_pos hmark, htake, if_neg (Nat.lt_irrefl _)]

namespace Stepwise

/-- Moves on over one character of the text. -/
def next (c : Cursor) : Except Breach Cursor :=
  if c.position < c.input.length then .ok (c.advance 1) else .error .position

/-- The text between two positions. -/
def slice (c : Cursor) (first last : Nat) : Except Breach (List Char) :=
  if first ≤ last ∧ last ≤ c.input.length then .ok ((c.input.take last).drop first)
  else .error .slice

/-- Each move leaves less text ahead, so that the loops below come to an end. -/
theorem remaining_of_next {c d : Cursor} (h : next c = .ok d) : d.remaining < c.remaining := by
  unfold next at h
  split at h
  · rename_i hlt
    obtain rfl := Except.ok.inj h
    exact (leads_advance 1 c).remaining_lt (Nat.lt_succ_self _) hlt
  · contradiction

/-- Moves over characters while they satisfy `p`. -/
def skipWhile (p : Char → Bool) (c : Cursor) : Except Breach Cursor :=
  match c.current? with
  | none => .ok c
  | some ch =>
    if p ch then
      match h : next c with
      | .ok d =>
        have : d.remaining < c.remaining := remaining_of_next h
        skipWhile p d
      | .error breach => .error breach
    else .ok c
termination_by c.remaining

/-- Looks for the end of a quoted text that began at `first`. -/
def quotedFrom (quote : Char) (first : Nat) (c : Cursor) :
    Except Breach (Except OpenSpan (List Char) × Cursor) :=
  match c.current? with
  | none => .ok (.error .quote, c)
  | some ch =>
    if ch = quote then do
      let contents ← slice c first c.position
      let d ← next c
      return (.ok contents, d)
    else match h : next c with
      | .ok d =>
        have : d.remaining < c.remaining := remaining_of_next h
        quotedFrom quote first d
      | .error breach => .error breach
termination_by c.remaining

def takeQuoted (c : Cursor) : Except Breach (Except OpenSpan (List Char) × Cursor) :=
  match c.current? with
  | none => .ok (.error .quote, c)
  | some quote =>
    if isQuoteMark quote then do
      let d ← next c
      quotedFrom quote d.position d
    else .ok (.error .quote, c)

/-- The open quote and the number of open brackets after one more character, or nothing if that
    character ends the span. A closing bracket takes one off the depth. -/
def spanStep (opening closing : Char) (quote : Option Char) (depth : Nat) (ch : Char) :
    Except Breach (Option (Option Char × Nat)) :=
  match quote with
  | some mark => .ok (some (if ch = mark then none else some mark, depth))
  | none =>
    if isQuoteMark ch then .ok (some (some ch, depth))
    else if ch = opening then .ok (some (none, depth + 1))
    else if ch = closing then
      match depth with
      | 0 => .error .depth
      | 1 => .ok none
      | depth + 2 => .ok (some (none, depth + 1))
    else .ok (some (none, depth))

/-- Looks for the end of a span that began at `first`. -/
def enclosedFrom (opening closing : Char) (first : Nat) (quote : Option Char) (depth : Nat)
    (c : Cursor) : Except Breach (Except OpenSpan (List Char) × Cursor) :=
  match c.current? with
  | none => .ok (.error (if quote.isSome then .quote else .bracket), c)
  | some ch =>
    match h : next c with
    | .error breach => .error breach
    | .ok d =>
      have : d.remaining < c.remaining := remaining_of_next h
      match spanStep opening closing quote depth ch with
      | .error breach => .error breach
      | .ok none => (slice d first d.position).map fun span => (.ok span, d)
      | .ok (some (quote, depth)) => enclosedFrom opening closing first quote depth d
termination_by c.remaining

def takeEnclosed (opening closing : Char) (c : Cursor) :
    Except Breach (Except OpenSpan (List Char) × Cursor) :=
  if c.current? = some opening then enclosedFrom opening closing c.position none 0 c
  else .ok (.error .bracket, c)

def takeToken (stops : List Char) (c : Cursor) : Except Breach (List Char × Cursor) := do
  let d ← skipWhile (fun ch => !(isSeparator ch || stops.contains ch)) c
  let token ← slice d c.position d.position
  return (token, d)

/-- There is a next character wherever there is one under the cursor. -/
theorem next_of_current? {c : Cursor} {ch : Char} (h : c.current? = some ch) :
    next c = .ok (c.advance 1) :=
  if_pos (position_lt_of_current? h)

/-- The text between the cursor and a position ahead of it. -/
theorem slice_advance {c : Cursor} {n : Nat} (h : c.position + n ≤ c.input.length) :
    slice (c.advance n) c.position (c.advance n).position = .ok (c.rest.take n) := by
  have hslice : (c.input.take (c.position + n)).drop c.position = c.rest.take n := by
    rw [List.drop_take, Nat.add_sub_cancel_left]
    rfl
  rw [slice, if_pos ⟨Nat.le_add_right _ _, h⟩]
  exact congrArg Except.ok hslice

/-- Characters are skipped one at a time to where their run ends, without a breach. -/
theorem skipWhile_eq (p : Char → Bool) (c : Cursor) : skipWhile p c = .ok (c.skipWhile p) := by
  fun_induction skipWhile p c with
  | case1 c hnone =>
    rw [Cursor.skipWhile, current?_eq_none_iff.1 hnone]
    rfl
  | case2 c ch hch hp d hnext hlt ih =>
    rw [next_of_current? hch] at hnext
    obtain rfl := Except.ok.inj hnext
    rw [ih, Cursor.skipWhile, Cursor.skipWhile, rest_of_current? hch,
      List.takeWhile_cons_of_pos hp, advance_advance]
    rfl
  | case3 c ch hch hp breach hnext =>
    rw [next_of_current? hch] at hnext
    contradiction
  | case4 c ch hch hp =>
    rw [Cursor.skipWhile, rest_of_current? hch, List.takeWhile_cons_of_neg hp]
    rfl

theorem skipBlanks_eq (c : Cursor) : skipWhile isBlank c = .ok c.skipBlanks :=
  skipWhile_eq isBlank c

theorem skipGap_eq (c : Cursor) : skipWhile isSeparator c = .ok c.skipGap :=
  skipWhile_eq isSeparator c

/-- A token is cut out without a breach, unless it is asked for past the end. -/
theorem takeToken_eq (stops : List Char) (c : Cursor) :
    takeToken stops c = (c.takeToken stops).elim (.error .slice) .ok := by
  rw [takeToken, skipWhile_eq, Cursor.takeToken]
  split
  · rename_i hposition
    have hlength : (c.rest.takeWhile fun ch => !(isSeparator ch || stops.contains ch)).length ≤
        c.rest.length := (List.takeWhile_sublist _).length_le
    rw [length_rest, remaining] at hlength
    have hslice := slice_advance (c := c) (Nat.add_le_of_le_sub' hposition hlength)
    rw [← List.prefix_iff_eq_take.1 (List.takeWhile_prefix _)] at hslice
    rw [ok_bind, Cursor.skipWhile, hslice]
    rfl
  · rename_i hover
    have hrest : c.rest = [] := List.drop_eq_nil_of_le (Nat.le_of_not_le hover)
    have hslice : slice c c.position c.position = .error .slice := if_neg fun h => hover h.2
    rw [ok_bind, Cursor.skipWhile, hrest]
    exact congrArg (· >>= fun token => pure (token, c)) hslice

/-- One step through a quoted text. -/
theorem quotedFrom_step {c : Cursor} {ch quote : Char} (h : c.current? = some ch) (hne : ch ≠ quote)
    (first : Nat) : quotedFrom quote first c = quotedFrom quote first (c.advance 1) := by
  rw [quotedFrom, h]
  dsimp only
  rw [if_neg hne]
  split
  · rename_i d hd
    rw [next_of_current? h] at hd
    rw [Except.ok.inj hd]
  · rename_i hd
    rw [next_of_current? h] at hd
    contradiction

/-- One step through a span that goes on. -/
theorem enclosedFrom_step {opening closing ch : Char} {quote quote' : Option Char}
    {depth depth' : Nat} {c : Cursor} (h : c.current? = some ch)
    (hstep : spanStep opening closing quote depth ch = .ok (some (quote', depth'))) (first : Nat) :
    enclosedFrom opening closing first quote depth c =
      enclosedFrom opening closing first quote' depth' (c.advance 1) := by
  rw [enclosedFrom, h]
  dsimp only
  split
  · rename_i hd
    rw [next_of_current? h] at hd
    contradiction
  · rename_i d hd
    rw [next_of_current? h] at hd
    rw [hstep, Except.ok.inj hd]

/-- The step that ends a span. -/
theorem enclosedFrom_last {opening closing ch : Char} {quote : Option Char} {depth : Nat}
    {c : Cursor} (h : c.current? = some ch)
    (hstep : spanStep opening closing quote depth ch = .ok none) (first : Nat) :
    enclosedFrom opening closing first quote depth c =
      (slice (c.advance 1) first (c.advance 1).position).map
        fun span => (.ok span, c.advance 1) := by
  rw [enclosedFrom, h]
  dsimp only
  split
  · rename_i hd
    rw [next_of_current? h] at hd
    contradiction
  · rename_i d hd
    rw [next_of_current? h] at hd
    rw [hstep, Except.ok.inj hd]

/-- While a bracket is open, a step of the search breaches nothing: none is closed below zero. -/
theorem spanStep_eq {opening closing ch : Char} {quote : Option Char} {depth : Nat}
    {next : Option (Option Char × Nat)} (h : ScanStep opening closing quote depth ch next)
    (hdepth : 0 < depth) : spanStep opening closing quote depth ch = .ok next := by
  cases h with
  | quoted mark => rfl
  | quote hquote => exact if_pos hquote
  | opening hquote hopening => exact (if_neg hquote).trans (if_pos hopening)
  | closing hquote hopening hclosing hlast =>
    obtain ⟨depth, rfl⟩ : ∃ n, depth = n + 2 := ⟨depth - 2, by omega⟩
    exact (if_neg hquote).trans ((if_neg hopening).trans (if_pos hclosing))
  | last hquote hopening hclosing hlast =>
    subst hlast
    exact (if_neg hquote).trans ((if_neg hopening).trans (if_pos hclosing))
  | other hquote hopening hclosing =>
    exact (if_neg hquote).trans ((if_neg hopening).trans (if_neg hclosing))

section Reading

variable {s : Cursor} {a b : List Char}

theorem rest_advance_of_append (h : s.rest = a ++ b) :
    (s.advance a.length).rest = b := by
  rw [rest_advance, h, List.drop_left]

/-- Behind what has been read of the text ahead stands the character that follows it. -/
theorem current?_advance_of_append {ch : Char} (h : s.rest = a ++ ch :: b) :
    (s.advance a.length).current? = some ch :=
  current?_of_rest (rest_advance_of_append h)

/-- What has been read of the text ahead lies in it. -/
theorem position_add_le (hs : s.position ≤ s.input.length) (h : s.rest = a ++ b) :
    s.position + a.length ≤ s.input.length := by
  have hlength := congrArg List.length h
  rw [length_rest, remaining, List.length_append] at hlength
  omega

/-- Reading all that is ahead leads to the end. -/
theorem advance_rest (hs : s.position ≤ s.input.length) :
    s.advance s.rest.length = { s with position := s.input.length } := by
  have hposition : s.position + s.rest.length = s.input.length := by
    rw [length_rest, remaining]
    omega
  rw [advance, hposition]

theorem advance_concat (ch : Char) :
    (s.advance a.length).advance 1 = s.advance (a ++ [ch]).length := by
  rw [advance_advance, List.length_append, Nat.add_comm]
  rfl

/-- A quoted text that is closed is returned without its quote. The induction is on what is left
    of its contents. -/
theorem quotedFrom_closed (hs : s.position ≤ s.input.length) {quote : Char}
    {contents text : List Char} (h : s.rest = a ++ contents ++ quote :: text)
    (hcontents : quote ∉ contents) :
    quotedFrom quote s.position (s.advance a.length) =
      .ok (.ok (a ++ contents), s.advance ((a ++ contents).length + 1)) := by
  induction contents generalizing a with
  | nil =>
    rw [List.append_nil] at h ⊢
    have hcurrent := current?_advance_of_append h
    have hslice := slice_advance (position_add_le hs h)
    rw [h, List.take_left] at hslice
    rw [quotedFrom, hcurrent]
    dsimp only
    rw [if_pos rfl, hslice, next_of_current? hcurrent, advance_advance, Nat.add_comm]
    rfl
  | cons ch contents ih =>
    rw [List.mem_cons, not_or] at hcontents
    have hcurrent : (s.advance a.length).current? = some ch :=
      current?_advance_of_append (b := contents ++ quote :: text) (by simpa using h)
    rw [quotedFrom_step hcurrent (Ne.symm hcontents.1), advance_concat ch,
      ih (by simpa using h) hcontents.2, List.append_assoc]
    rfl

/-- A quoted text that is not closed is read to the end. -/
theorem quotedFrom_open (hs : s.position ≤ s.input.length) {quote : Char}
    (h : s.rest = a ++ b) (hb : quote ∉ b) :
    quotedFrom quote s.position (s.advance a.length) =
      .ok (.error .quote, { s with position := s.input.length }) := by
  induction b generalizing a with
  | nil =>
    have hcurrent : (s.advance a.length).current? = none :=
      current?_eq_none_iff.2 (rest_advance_of_append h)
    rw [List.append_nil] at h
    rw [quotedFrom, hcurrent, ← h, advance_rest hs]
  | cons ch b ih =>
    rw [List.mem_cons, not_or] at hb
    rw [quotedFrom_step (current?_advance_of_append h) (Ne.symm hb.1), advance_concat ch,
      ih (by simpa using h) hb.2]

/-- What is read when the search for the end of a span begins `n` characters after the cursor. -/
def spanRead (s : Cursor) (n : Nat) : Except OpenSpan Nat → Except OpenSpan (List Char) × Cursor
  | .ok length => (.ok (s.rest.take (length + n)), s.advance (length + n))
  | .error fault => (.error fault, { s with position := s.input.length })

/-- A step over one more character begins the search one character later. -/
theorem spanRead_map (s : Cursor) (n : Nat) (result : Except OpenSpan Nat) :
    spanRead s n (result.map (· + 1)) = spanRead s (n + 1) result := by
  cases result with
  | error fault => rfl
  | ok length =>
    have hadd : length + 1 + n = length + (n + 1) := by omega
    simp only [Except.map, spanRead, hadd]

/-- With a bracket open, the search ends as the counting of brackets says. The induction is on the
    text ahead. -/
theorem enclosedFrom_eq (hs : s.position ≤ s.input.length) {opening closing : Char}
    {quote : Option Char} {depth : Nat} (hdepth : 0 < depth) (h : s.rest = a ++ b) :
    enclosedFrom opening closing s.position quote depth (s.advance a.length) =
      .ok (spanRead s a.length (spanLength opening closing quote depth b)) := by
  induction b generalizing a quote depth with
  | nil =>
    have hcurrent : (s.advance a.length).current? = none :=
      current?_eq_none_iff.2 (rest_advance_of_append h)
    rw [List.append_nil] at h
    rw [enclosedFrom, hcurrent, ← h, advance_rest hs]
    cases quote <;> rfl
  | cons ch b ih =>
    have hcurrent := current?_advance_of_append h
    have hsplit : s.rest = (a ++ [ch]) ++ b := by simpa using h
    obtain ⟨next, hscan, hlength⟩ := exists_scanStep opening closing quote depth ch
    have hstep := spanStep_eq hscan hdepth
    rw [hlength]
    cases next with
    | none =>
      have hslice := slice_advance (position_add_le hs hsplit)
      rw [enclosedFrom_last hcurrent hstep, advance_concat ch, hslice, Option.elim, spanRead,
        Nat.add_comm 1, List.length_append]
      rfl
    | some next =>
      have hdepth' := hscan.depth_pos hdepth
      rw [enclosedFrom_step hcurrent hstep, advance_concat ch, ih hdepth' hsplit, Option.elim,
        spanRead_map, List.length_append]
      rfl

end Reading

/-- A quoted text is read one character at a time without a breach. -/
theorem takeQuoted_eq (c : Cursor) : takeQuoted c = .ok c.takeQuoted := by
  cases hcurrent : c.current? with
  | none =>
    have hquoted : c.takeQuoted = (.error .quote, c) := by
      rw [Cursor.takeQuoted, current?_eq_none_iff.1 hcurrent]
    rw [takeQuoted, hcurrent, hquoted]
  | some quote =>
    have hrest := rest_of_current? hcurrent
    rw [takeQuoted, hcurrent]
    dsimp only
    split
    · rename_i hmark
      have hinside : (c.advance 1).position ≤ (c.advance 1).input.length :=
        position_lt_of_current? hcurrent
      rw [next_of_current? hcurrent]
      by_cases hquote : quote ∈ (c.advance 1).rest
      · obtain ⟨contents, text, hsplit, hcontents⟩ := List.eq_append_cons_of_mem hquote
        have hwhole : c.rest = quote :: contents ++ quote :: text := by
          rw [hrest, hsplit, List.cons_append]
        obtain ⟨d, hread, -⟩ := takeQuoted_of_rest hwhole hmark hcontents
        have hread' :
            c.takeQuoted = (.ok contents, (c.advance 1).advance (contents.length + 1)) := by
          rw [hread, (takeQuoted_ok hread).2, advance_advance]
        rw [hread']
        exact quotedFrom_closed hinside (a := []) hsplit hcontents
      · rw [takeQuoted_of_open hrest hmark hquote]
        exact quotedFrom_open hinside (a := []) rfl hquote
    · rename_i hmark
      rw [Cursor.takeQuoted, hrest]
      dsimp only
      rw [if_neg hmark]

/-- A span is read one character at a time without a breach: brackets are only closed while one is
    open, if the opening bracket is not taken for a quote. -/
theorem takeEnclosed_eq {opening : Char} (hquote : isQuoteMark opening = false) (closing : Char)
    (c : Cursor) : takeEnclosed opening closing c = .ok (c.takeEnclosed opening closing) := by
  rw [takeEnclosed, Cursor.takeEnclosed]
  split
  · rename_i hcurrent
    have hstep : spanStep opening closing none 0 opening = .ok (some (none, 1)) := by
      simp [spanStep, hquote]
    have hrest := rest_of_current? hcurrent
    have hposition := Nat.le_of_lt (position_lt_of_current? hcurrent)
    have hspan : spanLength opening closing none 0 c.rest =
        (spanLength opening closing none 1 (c.advance 1).rest).map (· + 1) := by
      rw [hrest, spanLength_opening hquote]
    have hread : enclosedFrom opening closing c.position none 1 (c.advance 1) =
        .ok (spanRead c 1 (spanLength opening closing none 1 (c.advance 1).rest)) :=
      enclosedFrom_eq hposition Nat.one_pos (a := [opening]) hrest
    rw [enclosedFrom_step hcurrent hstep, hread, hspan]
    cases spanLength opening closing none 1 (c.advance 1).rest <;> rfl
  · rfl

end Stepwise
end FindSelect.Text.Cursor
