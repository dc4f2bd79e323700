import FindSelect.Proofs.Text.Quotes

namespace FindSelect.Text

/-- A character if it stands outside quoted strings and is no quote. -/
def shown (quote : Option Char) (ch : Char) : List Char :=
  if quote = none ∧ isQuoteMark ch = false then [ch] else []

/-- The characters of a text outside quoted strings, given the quote that is open before it. -/
def unquotedFrom (quote : Option Char) : List Char → List Char
  | [] => []
  | ch :: text => shown quote ch ++ unquotedFrom (quoteStep quote ch) text

/-- The characters of a text outside quoted strings. -/
def unquoted (text : List Char) : List Char := unquotedFrom none text

/-- Outside quoted strings a text has as many closing brackets as opening ones, and no beginning of
    it has more. -/
structure Nests (opening closing : Char) (text : List Char) : Prop where
  balanced : (unquoted text).count closing = (unquoted text).count opening
  beginnings : ∀ n,
    (unquoted (text.take n)).count closing ≤ (unquoted (text.take n)).count opening

/-- A text with every quote closed and both kinds of brackets nested. -/
structure WellNested (text : List Char) : Prop where
  quotes : QuotesClosed text
  braces : Nests '{' '}' text
  squares : Nests '[' ']' text

/-- Only the beginnings up to the length of the text have to be looked at. -/
theorem nests_iff {opening closing : Char} {text : List Char} :
    Nests opening closing text ↔
      (unquoted text).count closing = (unquoted text).count opening ∧
        ∀ n ≤ text.length,
          (unquoted (text.take n)).count closing ≤ (unquoted (text.take n)).count opening := by
  constructor
  · intro h
    exact ⟨h.balanced, fun n _ => h.beginnings n⟩
  · rintro ⟨hbalanced, hbeginnings⟩
    refine ⟨hbalanced, fun n => ?_⟩
    rcases Nat.le_total n text.length with hn | hn
    · exact hbeginnings n hn
    · rw [List.take_of_length_le hn]
      omega

instance (opening closing : Char) (text : List Char) : Decidable (Nests opening closing text) :=
  decidable_of_iff _ nests_iff.symm

instance (text : List Char) : Decidable (QuotesClosed text) :=
  inferInstanceAs (Decidable (quoteAfter none text = none))

instance (text : List Char) : Decidable (WellNested text) :=
  decidable_of_iff (QuotesClosed text ∧ Nests '{' '}' text ∧ Nests '[' ']' text)
    ⟨fun h => ⟨h.1, h.2.1, h.2.2⟩, fun h => ⟨h.quotes, h.braces, h.squares⟩⟩

/-- What is shown of a text depends on what stands before it only through the open quote. -/
theorem unquotedFrom_append (quote : Option Char) (a b : List Char) :
    unquotedFrom quote (a ++ b) = unquotedFrom quote a ++ unquotedFrom (quoteAfter quote a) b := by
  induction a generalizing quote with
  | nil => rfl
  | cons ch a ih =>
    rw [List.cons_append, unquotedFrom, unquotedFrom, ih, quoteAfter_cons, List.append_assoc]

/-- Where no quote is left open, what two texts show stands side by side. -/
theorem QuotesClosed.unquoted_append {a : List Char} (ha : QuotesClosed a) (b : List Char) :
    unquoted (a ++ b) = unquoted a ++ unquoted b := by
  rw [unquoted, unquotedFrom_append, ha]
  rfl

theorem unquoted_cons {ch : Char} (hch : isQuoteMark ch = false) (text : List Char) :
    unquoted (ch :: text) = ch :: unquoted text := by
  have hshown : shown none ch = [ch] := if_pos ⟨rfl, hch⟩
  have hstep : quoteStep none ch = none := by simp [quoteStep, hch]
  rw [unquoted, unquotedFrom, hshown, hstep]
  rfl

/-- A text with every quote closed that closes `extra` brackets more than it opens. If there are
    none of these, the brackets are nested. -/
structure Tally (opening closing : Char) (extra : Nat) (text : List Char) : Prop where
  quotes : QuotesClosed text
  count : (unquoted text).count closing = (unquoted text).count opening + extra
  beginnings : extra = 0 → ∀ n,
    (unquoted (text.take n)).count closing ≤ (unquoted (text.take n)).count opening

/-- Nested brackets close none in excess. -/
theorem Nests.tally {opening closing : Char} {text : List Char} (h : Nests opening closing text)
    (hquotes : QuotesClosed text) : Tally opening closing 0 text :=
  ⟨hquotes, h.balanced, fun _ => h.beginnings⟩

namespace Tally

variable {opening closing : Char}

/-- The brackets are nested exactly if none is closed in excess. -/
theorem nests_iff_eq_zero {extra : Nat} {text : List Char}
    (h : Tally opening closing extra text) : Nests opening closing text ↔ extra = 0 := by
  have hcount := h.count
  constructor
  · intro hnests
    have hbalanced := hnests.balanced
    omega
  · intro hextra
    exact ⟨by omega, h.beginnings hextra⟩

/-- What two texts close in excess adds up. -/
theorem append {m n : Nat} {a b : List Char} (ha : Tally opening closing m a)
    (hb : Tally opening closing n b) : Tally opening closing (m + n) (a ++ b) where
  quotes := ha.quotes.append_iff.2 hb.quotes
  count := by
    have hcount := ha.count
    have hcount' := hb.count
    rw [ha.quotes.unquoted_append, List.count_append, List.count_append]
    omega
  beginnings := by
    intro hextra k
    have hfirst := ha.beginnings (by omega) k
    rw [List.take_append]
    rcases Nat.le_total k a.length with hk | hk
    · rw [Nat.sub_eq_zero_of_le hk, List.take_zero, List.append_nil]
      exact hfirst
    · have hcount := ha.count
      have hsecond := hb.beginnings (by omega) (k - a.length)
      rw [List.take_of_length_le hk, ha.quotes.unquoted_append, List.count_append,
        List.count_append]
      omega

theorem nil : Tally opening closing 0 [] where
  quotes := rfl
  count := rfl
  beginnings := by
    intro _ n
    rw [List.take_nil]
    exact Nat.le_refl _

/-- A character that is neither a quote nor an opening bracket. -/
theorem char {ch : Char} (hquote : isQuoteMark ch = false) (hopening : ch ≠ opening) :
    Tally opening closing ([ch].count closing) [ch] where
  quotes := quotesClosed_of_forall (by simpa using hquote)
  count := by
    have hzero : [ch].count opening = 0 := List.count_eq_zero.2 (by simpa using hopening.symm)
    have hshown : unquoted [ch] = [ch] := unquoted_cons hquote []
    rw [hshown]
    omega
  beginnings := by
    intro hextra n
    have hshown : unquoted [ch] = [ch] := unquoted_cons hquote []
    cases n with
    | zero => exact Nat.le_refl _
    | succ n =>
      rw [List.take_succ_cons, List.take_nil, hshown]
      omega

/-- A character that is neither a quote nor one of the brackets. -/
theorem neutral {ch : Char} (hquote : isQuoteMark ch = false) (hopening : ch ≠ opening)
    (hclosing : ch ≠ closing) : Tally opening closing 0 [ch] := by
  have hzero : [ch].count closing = 0 := List.count_eq_zero.2 (by simpa using hclosing.symm)
  have hchar : Tally opening closing ([ch].count closing) [ch] := char hquote hopening
  rw [hzero] at hchar
  exact hchar

/-- A text that shows nothing outside its quoted strings. -/
theorem of_unquoted {text : List Char} (hquotes : QuotesClosed text) (h : unquoted text = []) :
    Tally opening closing 0 text where
  quotes := hquotes
  count := by
    rw [h]
    rfl
  beginnings := by
    intro _ n
    have hsplit := unquotedFrom_append none (text.take n) (text.drop n)
    have hwhole : unquotedFrom none text = [] := h
    rw [List.take_append_drop, hwhole] at hsplit
    have hnone : unquoted (text.take n) = [] := (List.append_eq_nil_iff.1 hsplit.symm).1
    rw [hnone]
    exact Nat.le_refl _

/-- Brackets of the kind that is counted, around a text. -/
theorem within {extra : Nat} {inner : List Char} (hbrackets : AreBrackets opening closing)
    (h : Tally opening closing extra inner) :
    Tally opening closing extra (opening :: inner ++ [closing]) := by
  obtain ⟨hopening, hclosing, hne, -⟩ := hbrackets.spec
  have hlast : unquoted [closing] = [closing] := unquoted_cons hclosing []
  have hwhole : unquoted (inner ++ [closing]) = unquoted inner ++ [closing] := by
    rw [h.quotes.unquoted_append, hlast]
  have hzero : [closing].count opening = 0 := List.count_eq_zero.2 (by simpa using hne.symm)
  have hcounts : (opening :: unquoted (inner ++ [closing])).count closing =
      (opening :: unquoted (inner ++ [closing])).count opening + extra := by
    have hcount := h.count
    rw [hwhole, List.count_cons_of_ne hne.symm, List.count_cons_self, List.count_append,
      List.count_append, List.count_singleton_self, hzero]
    omega
  refine ⟨h.quotes.enclosed hbrackets, ?_, ?_⟩
  · rw [List.cons_append, unquoted_cons hopening]
    exact hcounts
  · intro hextra n
    cases n with
    | zero => exact Nat.le_refl _
    | succ n =>
      rw [List.cons_append, List.take_succ_cons, unquoted_cons hopening]
      rcases Nat.lt_or_ge inner.length n with hn | hn
      · have hlength : (inner ++ [closing]).length ≤ n := by
          rw [List.length_append]
          exact hn
        rw [List.take_of_length_le hlength]
        omega
      · have hbeginning := h.beginnings hextra n
        rw [List.take_append_of_le_length hn, List.count_cons_of_ne hne.symm,
          List.count_cons_self]
        omega

/-- Brackets of either kind around a text. -/
theorem enclosed {first last : Char} {extra : Nat} {inner : List Char}
    (hbrackets : AreBrackets opening closing) (hinner : AreBrackets first last)
    (h : Tally opening closing extra inner) :
    Tally opening closing extra (first :: inner ++ [last]) := by
  by_cases hsame : first = opening
  · obtain rfl : last = closing := by
      rcases hbrackets with ⟨rfl, rfl⟩ | ⟨rfl, rfl⟩ <;>
        rcases hinner with ⟨rfl, rfl⟩ | ⟨rfl, rfl⟩ <;> simp_all
    subst hsame
    exact h.within hbrackets
  · have hother : isQuoteMark first = false ∧ isQuoteMark last = false ∧ first ≠ closing ∧
        last ≠ opening ∧ last ≠ closing := by
      rcases hbrackets with ⟨rfl, rfl⟩ | ⟨rfl, rfl⟩ <;>
        rcases hinner with ⟨rfl, rfl⟩ | ⟨rfl, rfl⟩ <;> simp_all [isQuoteMark]
    obtain ⟨hquote, hquote', hclosing, hopening', hclosing'⟩ := hother
    have hmiddle := h.append (neutral hquote' hopening' hclosing')
    have hwhole := (neutral hquote hsame hclosing).append hmiddle
    rw [Nat.zero_add] at hwhole
    exact hwhole

end Tally

/-- Inside quotes nothing is shown until the next mark. -/
theorem unquotedFrom_quoted {mark : Char} {contents : List Char} (h : mark ∉ contents) :
    unquotedFrom (some mark) contents = [] ∧ quoteAfter (some mark) contents = some mark := by
  induction contents with
  | nil => exact ⟨rfl, rfl⟩
  | cons ch contents ih =>
    rw [List.mem_cons, not_or] at h
    have hstep : quoteStep (some mark) ch = some mark := if_neg (Ne.symm h.1)
    have hshown : shown (some mark) ch = [] := if_neg (by simp)
    obtain ⟨hunquoted, hafter⟩ := ih h.2
    rw [unquotedFrom, quoteAfter_cons, hshown, hstep, hunquoted]
    exact ⟨rfl, hafter⟩

/-- A quoted text closes no brackets, whatever its contents. -/
theorem tally_quoted {opening closing mark : Char} {contents : List Char}
    (hmark : isQuoteMark mark = true) (hcontents : mark ∉ contents) :
    Tally opening closing 0 (mark :: contents ++ [mark]) := by
  obtain ⟨hunquoted, hafter⟩ := unquotedFrom_quoted hcontents
  have hstep : quoteStep none mark = some mark := if_pos hmark
  have hfirst : shown none mark = [] := if_neg (by simp [hmark])
  have hlast : quoteStep (some mark) mark = none := if_pos rfl
  have hshown : shown (some mark) mark = [] := if_neg (by simp)
  apply Tally.of_unquoted
  · rw [QuotesClosed, List.cons_append, quoteAfter_cons, hstep, quoteAfter_append, hafter,
      quoteAfter_cons, hlast]
    rfl
  · rw [unquoted, List.cons_append, unquotedFrom, hfirst, hstep, unquotedFrom_append, hunquoted,
      hafter, unquotedFrom, hshown]
    rfl

/-- In a balanced text both kinds of brackets are nested. -/
theorem Balanced.tally {opening closing : Char} (hbrackets : AreBrackets opening closing)
    {text : List Char} (h : Balanced text) : Tally opening closing 0 text := by
  obtain ⟨-, -, -, hopening, hclosing⟩ := hbrackets.spec
  induction h with
  | nil => exact .nil
  | @char ch hquote hbracket =>
    apply Tally.neutral hquote
    · rintro rfl
      simp [hopening] at hbracket
    · rintro rfl
      simp [hclosing] at hbracket
  | quoted hmark hcontents => exact tally_quoted hmark hcontents
  | enclosed hinner _ ih => exact ih.enclosed hbrackets hinner
  | append _ _ iha ihb => exact iha.append ihb

/-- White space is all that trimming takes off. -/
theorem exists_of_trim (text : List Char) :
    ∃ before after, text = before ++ trim text ++ after ∧
      (∀ ch ∈ before, isBlank ch = true) ∧ ∀ ch ∈ after, isBlank ch = true := by
  have hstart : text = text.takeWhile isBlank ++ trimStart text :=
    List.takeWhile_append_dropWhile.symm
  have hend : trimStart text =
      trim text ++ ((trimStart text).reverse.takeWhile isBlank).reverse := by
    rw [trim, trimEnd, ← List.reverse_append, List.takeWhile_append_dropWhile, List.reverse_reverse]
  refine ⟨text.takeWhile isBlank, ((trimStart text).reverse.takeWhile isBlank).reverse, ?_, ?_, ?_⟩
  · rw [List.append_assoc, ← hend]
    exact hstart
  · intro ch hch
    exact List.mem_takeWhile_imp hch
  · intro ch hch
    exact List.mem_takeWhile_imp (List.mem_reverse.1 hch)

/-- What is unwrapped stood between the two brackets. -/
theorem eq_of_unwrap? {opening closing : Char} {text inner : List Char}
    (h : unwrap? opening closing text = some inner) : text = opening :: inner ++ [closing] := by
  cases text with
  | nil => contradiction
  | cons first rest =>
    rw [unwrap?, dropLast?] at h
    split at h
    · rename_i hfirst
      split at h
      · rename_i hlast
        obtain ⟨inner', rfl⟩ := List.getLast?_eq_some_iff.1 hlast
        rw [List.dropLast_concat] at h
        rw [hfirst, Option.some.inj h, List.cons_append]
      · contradiction
    · contradiction

/-- White space is balanced text. -/
theorem balanced_of_blank {run : List Char} (h : ∀ ch ∈ run, isBlank ch = true) : Balanced run :=
  balanced_of_separators fun ch hch => .inl (isSeparator_of_isBlank (h ch hch))

/-- White space around a text makes no difference to the brackets that it closes. -/
theorem tally_of_trim {opening closing : Char} (hbrackets : AreBrackets opening closing)
    {extra : Nat} {text : List Char} (h : Tally opening closing extra (trim text)) :
    Tally opening closing extra text := by
  obtain ⟨before, after, htext, hbefore, hafter⟩ := exists_of_trim text
  have hstart := (balanced_of_blank hbefore).tally hbrackets
  have hend := (balanced_of_blank hafter).tally hbrackets
  have hwhole := (hstart.append h).append hend
  rw [Nat.zero_add, ← htext] at hwhole
  exact hwhole

/-- What is counted inside the brackets of a text is counted in the text. -/
theorem tally_of_unwrap? {opening closing first last : Char}
    (hbrackets : AreBrackets opening closing) (hinner : AreBrackets first last) {extra : Nat}
    {text inner : List Char} (hunwrap : unwrap? first last (trim text) = some inner)
    (h : Tally opening closing extra inner) : Tally opening closing extra text := by
  apply tally_of_trim hbrackets
  rw [eq_of_unwrap? hunwrap]
  exact h.enclosed hbrackets hinner

/-- Read with `quote` open and `depth` brackets open, a text closes all of these brackets, and no
    beginning of it closes more. -/
structure Closes (opening closing : Char) (quote : Option Char) (depth : Nat)
    (text : List Char) : Prop where
  count : (unquotedFrom quote text).count closing =
    (unquotedFrom quote text).count opening + depth
  beginnings : ∀ n, (unquotedFrom quote (text.take n)).count closing ≤
    (unquotedFrom quote (text.take n)).count opening + depth

theorem Closes.nil {opening closing : Char} {quote : Option Char} :
    Closes opening closing quote 0 [] where
  count := rfl
  beginnings := by
    intro n
    rw [List.take_nil]
    exact Nat.le_refl _

/-- One more character in front of a text that closes what is open after it. -/
theorem Closes.cons {opening closing ch : Char} {quote : Option Char} {depth depth' : Nat}
    {text : List Char} (h : Closes opening closing (quoteStep quote ch) depth' text)
    (hdepth : depth + (shown quote ch).count opening = depth' + (shown quote ch).count closing) :
    Closes opening closing quote depth (ch :: text) where
  count := by
    have hcount := h.count
    rw [unquotedFrom, List.count_append, List.count_append]
    omega
  beginnings := by
    intro n
    cases n with
    | zero => exact Nat.zero_le _
    | succ n =>
      have hbeginning := h.beginnings n
      rw [List.take_succ_cons, unquotedFrom, List.count_append, List.count_append]
      omega

namespace Cursor

/-- While a bracket is open, a step leaves brackets open as its character opens and closes them. -/
theorem ScanStep.count {opening closing ch : Char} {quote : Option Char} {depth : Nat}
    {next : Option Char × Nat} (h : ScanStep opening closing quote depth ch (some next))
    (hne : closing ≠ opening) (hdepth : 0 < depth) :
    depth + (shown quote ch).count opening = next.2 + (shown quote ch).count closing := by
  have hcount {other : Char} (h : ch ≠ other) : [ch].count other = 0 :=
    List.count_eq_zero.2 (by simpa using h.symm)
  have hshown (h : ¬ isQuoteMark ch = true) : shown none ch = [ch] :=
    if_pos ⟨rfl, Bool.eq_false_iff.2 h⟩
  cases h with
  | quoted mark => rfl
  | quote hquote =>
    have hnone : shown none ch = [] := if_neg (by simp [hquote])
    rw [hnone]
    rfl
  | opening hquote hopening =>
    subst hopening
    rw [hshown hquote, List.count_singleton_self, hcount hne.symm]
  | closing hquote hopening hclosing hlast =>
    subst hclosing
    rw [hshown hquote, List.count_singleton_self, hcount hopening]
    omega
  | other hquote hopening hclosing =>
    rw [hshown hquote, hcount hopening, hcount hclosing]

/-- The span that is found closes what is open. -/
theorem closes_of_spanLength {opening closing : Char} (hbrackets : AreBrackets opening closing)
    {quote : Option Char} {depth n : Nat} {text : List Char} (hdepth : 0 < depth)
    (h : spanLength opening closing quote depth text = .ok n) :
    Closes opening closing quote depth (text.take n) := by
  obtain ⟨-, hclosing, hne, -⟩ := hbrackets.spec
  have hshown : shown none closing = [closing] := if_pos ⟨rfl, hclosing⟩
  induction text generalizing quote depth n with
  | nil => cases quote <;> simp [spanLength] at h
  | cons ch text ih =>
    obtain ⟨next, hstep, hlength⟩ := exists_scanStep opening closing quote depth ch
    rw [hlength] at h
    cases next with
    | none =>
      obtain rfl := Except.ok.inj h
      cases hstep with
      | last _ _ hlast hdepth =>
        have hcount :
            depth + (shown none ch).count opening = 0 + (shown none ch).count closing := by
          rw [hlast, hdepth, hshown, List.count_singleton_self,
            List.count_eq_zero.2 (by simpa using hne.symm)]
        exact Closes.nil.cons hcount
    | some next =>
      obtain ⟨m, hm, rfl⟩ := map_eq_ok.1 h
      have hrest := ih (hstep.depth_pos hdepth) hm
      rw [hstep.eq_quoteStep] at hrest
      exact hrest.cons (hstep.count hne hdepth)

/-- A span in brackets nests the brackets of its kind. -/
theorem tally_of_takeEnclosed {opening closing : Char} (hbrackets : AreBrackets opening closing)
    {c d : Cursor} {span : List Char} (h : c.takeEnclosed opening closing = (.ok span, d)) :
    Tally opening closing 0 span := by
  obtain ⟨hopening, -, hne, -⟩ := hbrackets.spec
  obtain ⟨inner, hinner, hquotes, -⟩ := exists_of_takeEnclosed hbrackets h
  have hcloses : Closes opening closing none 0 span := by
    obtain ⟨hcurrent, n, hn, rfl, -⟩ := takeEnclosed_eq_ok.1 h
    rw [current?_eq_head?_rest, List.head?_eq_some_iff] at hcurrent
    obtain ⟨text, htext⟩ := hcurrent
    rw [htext, spanLength_opening hopening] at hn
    obtain ⟨m, hm, rfl⟩ := map_eq_ok.1 hn
    have hshown : shown none opening = [opening] := if_pos ⟨rfl, hopening⟩
    have hstep : quoteStep none opening = none := by simp [quoteStep, hopening]
    have hrest := closes_of_spanLength hbrackets Nat.one_pos hm
    rw [← hstep] at hrest
    rw [htext, List.take_succ_cons]
    apply hrest.cons
    rw [hshown, List.count_singleton_self, List.count_eq_zero.2 (by simpa using hne)]
  refine ⟨?_, hcloses.count, fun _ => hcloses.beginnings⟩
  rw [hinner]
  exact hquotes.enclosed hbrackets

end Cursor
end FindSelect.Text
