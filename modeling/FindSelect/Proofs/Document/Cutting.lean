import FindSelect.Proofs.Document.Layout

namespace FindSelect

open Text

/-- A text after which a bare token has ended. -/
def EndsToken (text : List Char) : Prop := ∀ c ∈ text.head?, isSeparator c = true

section Sequences

variable {α β : Type}

/-- A text that `cut` takes off as a whole, into a piece that `Piece` relates to an item. A
    text that is bare needs a separator after it. -/
structure Cuttable (cut : Cursor → Except CutFault (β × Cursor)) (Piece : β → α → Prop)
    (item : α) (bare : Bool) (text : List Char) : Prop where
  starts : ∃ first more, text = first :: more ∧ isSeparator first = false ∧ first ≠ ':'
  balanced : Balanced text
  cuts : ∃ piece, Piece piece item ∧ ∀ (c : Cursor) (rest : List Char), c.rest = text ++ rest →
    (bare = true → EndsToken rest) → ∃ d, cut c = .ok (piece, d) ∧ d.rest = rest

/-- A token has ended before a gap, and at the end of the text. -/
theorem endsToken_gap {gap rest : List Char} (hgap : ∀ c ∈ gap, isSeparator c = true)
    (hrest : rest ≠ [] → gap ≠ []) : EndsToken (gap ++ rest) := by
  intro c hc
  cases gap with
  | nil =>
    have hnil : rest = [] := by
      by_contra hne
      exact hrest hne rfl
    simp [hnil] at hc
  | cons first gap =>
    obtain rfl : first = c := by simpa using hc
    exact hgap first List.mem_cons_self

theorem Spaced.eq_nil {Item : α → Bool → List Char → Prop} {items : List α} {text : List Char}
    (h : Spaced Item items text) (hitems : items = []) : text = [] := by
  cases h with
  | nil => rfl
  | cons => contradiction

/-- Items that are balanced make a balanced text, since gaps are. -/
theorem Spaced.balanced {Item : α → Bool → List Char → Prop} {items : List α} {text : List Char}
    (h : Spaced Item items text)
    (hitem : ∀ item bare t, Item item bare t → t.length ≤ text.length → Balanced t) :
    Balanced text := by
  induction h with
  | nil => exact .nil
  | @cons bare item items t gap rest hfirst hgap _ _ ih =>
    simp only [List.length_append] at hitem
    have hgap : Balanced gap := balanced_of_separators fun c hc => .inl (hgap c hc)
    refine .append (.append (hitem item bare t hfirst (by omega)) hgap) (ih ?_)
    intro item bare t ht hlength
    exact hitem item bare t ht (by omega)

/-- A loop that cuts one piece after the other, with gaps between them, cuts a spaced text
    into the pieces of its items. -/
theorem Spaced.cut {Item : α → Bool → List Char → Prop}
    {cut : Cursor → Except CutFault (β × Cursor)} {loop : Cursor → Cut β} {Piece : β → α → Prop}
    (hdone : ∀ c : Cursor, c.skipGap.atEnd = true → loop c = .done)
    (hstep : ∀ (c d : Cursor) (piece : β), c.skipGap.atEnd = false →
      cut c.skipGap = .ok (piece, d) → loop c = (loop d).cons piece)
    {items : List α} {text : List Char} (h : Spaced Item items text)
    (hitem : ∀ item bare t, Item item bare t → t.length ≤ text.length →
      Cuttable cut Piece item bare t) :
    ∃ pieces, List.Forall₂ Piece pieces items ∧
      ∀ (c : Cursor) (gap : List Char), (∀ ch ∈ gap, isSeparator ch = true) →
        c.rest = gap ++ text → loop c = ⟨pieces, none⟩ := by
  induction h with
  | nil =>
    refine ⟨[], .nil, ?_⟩
    intro c gap hgap hrest
    have hend : c.skipGap.rest = [] :=
      Cursor.rest_skipWhile_of_rest hrest hgap (stopsBefore_nil _)
    exact hdone c (Cursor.atEnd_iff.2 hend)
  | @cons bare item items t gap rest hfirst hgap hbare hspaced ih =>
    simp only [List.length_append] at hitem
    obtain ⟨⟨first, more, rfl, hseparator, -⟩, -, piece, hpiece, hcut⟩ :=
      hitem item bare t hfirst (by omega)
    obtain ⟨pieces, hpieces, hloop⟩ := ih fun item bare t ht hlength =>
      hitem item bare t ht (by omega)
    refine ⟨piece :: pieces, .cons hpiece hpieces, ?_⟩
    intro c before hbefore hrest
    have hskip : c.skipGap.rest = first :: more ++ (gap ++ rest) := by
      refine Cursor.rest_skipWhile_of_rest ?_ hbefore (stopsBefore_cons hseparator _)
      simpa using hrest
    -- A bare item is followed by a gap or by nothing, so its token ends where the item does.
    have hends : bare = true → EndsToken (gap ++ rest) := by
      intro htrue
      apply endsToken_gap hgap
      intro hne
      exact hbare htrue fun hnil => hne (hspaced.eq_nil hnil)
    obtain ⟨d, hd, hmore⟩ := hcut c.skipGap (gap ++ rest) hskip hends
    rw [hstep c d piece (Cursor.atEnd_eq_false_of_rest hskip) hd, hloop d gap hgap hmore]
    rfl

end Sequences

/-- A key begins with a character that is neither a separator nor a colon. -/
theorem NameText.starts {name : String} {bare : Bool} {key : List Char}
    (h : NameText name bare key) :
    ∃ first more, key = first :: more ∧ isSeparator first = false ∧ first ≠ ':' := by
  cases h with
  | bare hne hplain =>
    obtain ⟨first, more, rfl⟩ := List.exists_cons_of_ne_nil hne
    obtain ⟨hseparator, -, -, hcolon⟩ :=
      isTokenChar_spec (isTokenChar_of_isPlain (hplain first List.mem_cons_self))
    exact ⟨first, more, rfl, hseparator, hcolon⟩
  | @quoted mark name hmark =>
    exact ⟨mark, name ++ [mark], rfl, by rcases isQuoteMark_iff.1 hmark with rfl | rfl <;> decide⟩

/-- A key holds no bracket outside quotes and closes its own quotes. -/
theorem NameText.balanced {name : String} {bare : Bool} {key : List Char}
    (h : NameText name bare key) : Balanced key := by
  cases h with
  | bare _ hplain =>
    apply balanced_of_forall
    intro c hc
    obtain ⟨-, hquote, hbracket, -⟩ := isTokenChar_spec (isTokenChar_of_isPlain (hplain c hc))
    exact ⟨hquote, hbracket⟩
  | quoted hmark _ hname => exact .quoted hmark hname

/-- A token is cut off where a character ends it, and what follows is left. -/
theorem cutToken_of_rest {c : Cursor} {stops token text : List Char} (h : c.rest = token ++ text)
    (hne : token ≠ []) (htoken : ∀ ch ∈ token, (isSeparator ch || stops.contains ch) = false)
    (htext : ∀ ch ∈ text.head?, (isSeparator ch || stops.contains ch) = true) :
    ∃ d, cutToken stops c = .ok (token, d) ∧ d.rest = text := by
  obtain ⟨d, hread, hrest⟩ := Cursor.takeToken_of_rest h hne htoken htext
  refine ⟨d, ?_, hrest⟩
  rw [cutToken, hread]

/-- A name is cut off as a key, and what follows it is left. -/
theorem NameText.cutKey {name : String} {bare : Bool} {key : List Char}
    (h : NameText name bare key) {c : Cursor} {rest : List Char} (hrest : c.rest = key ++ rest)
    (hbare : bare = true → ∀ ch ∈ rest.head?, (isSeparator ch || [':'].contains ch) = true) :
    ∃ d, cutKey c = .ok (identifier name.toList, d) ∧ d.rest = rest := by
  cases h with
  | @bare name hne hplain =>
    obtain ⟨first, more, rfl⟩ := List.exists_cons_of_ne_nil hne
    have hspec (ch : Char) (hch : ch ∈ first :: more) :=
      isTokenChar_spec (isTokenChar_of_isPlain (hplain ch hch))
    have hquote : c.current?.any isQuoteMark = false := by
      rw [Cursor.current?_of_rest hrest]
      exact (hspec first List.mem_cons_self).2.1
    have htoken : ∀ ch ∈ first :: more, (isSeparator ch || [':'].contains ch) = false := by
      intro ch hch
      obtain ⟨hseparator, -, -, hcolon⟩ := hspec ch hch
      simp [hseparator, hcolon]
    obtain ⟨d, hread, hd⟩ := cutToken_of_rest hrest hne htoken (hbare rfl)
    refine ⟨d, ?_, hd⟩
    rw [FindSelect.cutKey, hquote, if_neg (by simp), hread, String.toList_ofList,
      identifier_of_plain hplain]
    rfl
  | @quoted mark name hmark _ hname =>
    have hquote : c.current?.any isQuoteMark = true := by
      rw [Cursor.current?_of_rest hrest]
      exact hmark
    obtain ⟨d, hread, hd⟩ := Cursor.takeQuoted_of_rest (by simpa using hrest) hmark hname
    refine ⟨d, ?_, hd⟩
    rw [FindSelect.cutKey, hquote, if_pos rfl, hread, String.toList_ofList]
    rfl

/-- A key is cut off up to the value that it stands for. -/
theorem KeyText.cut {kind : Mapping} {name : String} {key : List Char} (h : KeyText kind name key)
    {c : Cursor} {first : Char} {more : List Char} (hrest : c.rest = key ++ first :: more)
    (hseparator : isSeparator first = false) (hcolon : first ≠ ':') :
    ∃ d e, cutKey c = .ok (identifier name.toList, d) ∧ kind.skipColon d = some e ∧
      e.rest = first :: more := by
  have hblank : isBlank first = false := by
    simp only [isSeparator, Bool.or_eq_false_iff] at hseparator
    exact hseparator.1
  cases h with
  | @document _ bare key colons hname hcolons hbare =>
    have hends : bare = true →
        ∀ ch ∈ (colons ++ first :: more).head?, (isSeparator ch || [':'].contains ch) = true := by
      intro htrue ch hch
      cases colons with
      | nil => exact absurd rfl (hbare htrue)
      | cons colon colons =>
        obtain rfl : colon = ch := by simpa using hch
        have hrun := hcolons colon List.mem_cons_self
        simp only [Bool.or_eq_true, beq_iff_eq] at hrun
        rcases hrun with hrun | rfl
        · simp [isSeparator_of_isBlank hrun]
        · decide
    obtain ⟨d, hd, hmore⟩ := hname.cutKey (by simpa using hrest) hends
    refine ⟨d, _, hd, rfl, ?_⟩
    have hstops : (isBlank first || first == ':') = false := by simp [hblank, hcolon]
    exact Cursor.rest_skipWhile_of_rest hmore hcolons (stopsBefore_cons hstops more)
  | @operators _ bare key before after hname hbefore hafter =>
    -- Here exactly one colon is passed over, so the blanks on its two sides are skipped apart.
    have hends : bare = true → ∀ ch ∈ (before ++ ':' :: (after ++ first :: more)).head?,
        (isSeparator ch || [':'].contains ch) = true := by
      intro _ ch hch
      cases before with
      | nil =>
        obtain rfl : ':' = ch := by simpa using hch
        decide
      | cons blank before =>
        obtain rfl : blank = ch := by simpa using hch
        simp [isSeparator_of_isBlank (hbefore blank List.mem_cons_self)]
    obtain ⟨d, hd, hmore⟩ := hname.cutKey (by simpa using hrest) hends
    have hcolon' : d.skipBlanks.rest = ':' :: (after ++ first :: more) :=
      Cursor.rest_skipWhile_of_rest hmore hbefore (stopsBefore_cons (by decide) _)
    have hvalue : (d.skipBlanks.advance 1).rest = after ++ first :: more := by
      rw [Cursor.rest_advance, hcolon']
      rfl
    refine ⟨d, (d.skipBlanks.advance 1).skipBlanks, hd, ?_, ?_⟩
    · simp only [Mapping.skipColon]
      rw [if_pos (Cursor.current?_of_rest hcolon')]
    · exact Cursor.rest_skipWhile_of_rest hvalue hafter (stopsBefore_cons hblank _)

theorem KeyText.starts {kind : Mapping} {name : String} {key : List Char}
    (h : KeyText kind name key) :
    ∃ first more, key = first :: more ∧ isSeparator first = false ∧ first ≠ ':' := by
  cases h with
  | document hname =>
    obtain ⟨first, more, rfl, hfirst⟩ := hname.starts
    exact ⟨first, _, rfl, hfirst⟩
  | operators hname =>
    obtain ⟨first, more, rfl, hfirst⟩ := hname.starts
    exact ⟨first, _, rfl, hfirst⟩

/-- A key with the colons and spaces after it is balanced. -/
theorem KeyText.balanced {kind : Mapping} {name : String} {key : List Char}
    (h : KeyText kind name key) : Balanced key := by
  cases h with
  | document hname hcolons =>
    refine .append hname.balanced (balanced_of_separators ?_)
    intro c hc
    have hrun := hcolons c hc
    simp only [Bool.or_eq_true, beq_iff_eq] at hrun
    exact hrun.imp_left isSeparator_of_isBlank
  | operators hname hbefore hafter =>
    have hspaces {blanks : List Char} (h : ∀ c ∈ blanks, isBlank c = true) : Balanced blanks :=
      balanced_of_separators fun c hc => .inl (isSeparator_of_isBlank (h c hc))
    have hcolon : Balanced [':'] := .char (by decide) (by decide)
    exact .append (.append hname.balanced (hspaces hbefore)) (.append hcolon (hspaces hafter))

/-- The identifier of a name is not empty, with quotes or without. -/
theorem identifier_ne_empty {name : List Char} (h : name ≠ []) : identifier name ≠ "" := by
  by_cases hplain : Plain name
  · rw [identifier_of_plain hplain]
    simpa using h
  · rw [identifier_of_not_plain hplain]
    simp [quotedWith]

theorem KeyText.identifier_ne_empty {kind : Mapping} {name : String} {key : List Char}
    (h : KeyText kind name key) : identifier name.toList ≠ "" := by
  have hname {bare : Bool} {key : List Char} (h : NameText name bare key) : name.toList ≠ [] := by
    cases h <;> simpa
  cases h with
  | document h => exact FindSelect.identifier_ne_empty (hname h)
  | operators h => exact FindSelect.identifier_ne_empty (hname h)

/-- A piece that is read as the value of a syntax tree. -/
def ReadsAs (read : Piece → Except SyntaxError Value) (piece : Piece) (value : Value) : Prop :=
  read piece = .ok value.build

/-- An entry that is read as an entry of a syntax tree. -/
def EntryReadsAs (read : Piece → Except SyntaxError Value) (entry : String × Piece)
    (tree : String × Value) : Prop :=
  entry.1 = identifier tree.1.toList ∧ ReadsAs read entry.2 tree.2

/-- An entry is cut off as a whole, and read as its syntax tree says, if its value is. -/
theorem EntryText.cuttable {kind : Mapping} {Item : Value → Bool → List Char → Prop}
    {read : Piece → Except SyntaxError Value} {entry : String × Value} {bare : Bool}
    {text : List Char} (h : EntryText kind Item entry bare text)
    (hitem : ∀ value bare t, Item value bare t → t.length ≤ text.length →
      Cuttable cutPiece (ReadsAs read) value bare t) :
    Cuttable (cutEntry kind) (EntryReadsAs read) entry bare text := by
  cases h with
  | @mk name value _ key t hkey hvalue =>
    obtain ⟨⟨first, more, rfl, hseparator, hcolon⟩, hbalanced, piece, hread, hcut⟩ :=
      hitem value bare t hvalue (by simp)
    refine ⟨?_, .append hkey.balanced hbalanced, (identifier name.toList, piece), ⟨rfl, hread⟩, ?_⟩
    · obtain ⟨start, tail, rfl, hstart⟩ := hkey.starts
      exact ⟨start, _, rfl, hstart⟩
    · intro c rest hrest hends
      have hparts : c.rest = key ++ first :: (more ++ rest) := by simpa using hrest
      obtain ⟨d, e, hd, he, hvalue⟩ := hkey.cut hparts hseparator hcolon
      have hend := Cursor.atEnd_eq_false_of_rest hvalue
      obtain ⟨f, hpiece, hf⟩ := hcut e rest (by simpa using hvalue) hends
      refine ⟨f, ?_, hf⟩
      simp [cutEntry, hd, hkey.identifier_ne_empty, he, hend, hpiece, bind, Except.bind, pure,
        Except.pure]

/-- A primitive is built as it stands. -/
theorem build_of_isPrimitive {value : Value} (h : value.isPrimitive = true) :
    value.build = value := by
  cases value with
  | list items => contradiction
  | document entries => contradiction
  | _ => rfl

/-- A token without blanks holds nothing but the characters of tokens. -/
theorem isTokenChar_of_mem {token : List Char} {value : Value} (h : readScalar token = .ok value)
    (hblank : ∀ c ∈ token, isBlank c = false) : ∀ c ∈ token, isTokenChar c = true :=
  fun c hc => isTokenChar_of_readScalar h c (mem_trim hc (hblank c hc))

/-- A primitive is cut off by whatever takes quoted texts and tokens. -/
theorem PrimitiveText.cuttable {cut : Cursor → Except CutFault (Piece × Cursor)}
    {read : Piece → Except SyntaxError Value}
    (hcut : ∀ c : Cursor, c.current? ≠ some '{' → c.current? ≠ some '[' → cut c = cutItem c)
    (hquoted : ∀ contents, read (.quoted contents) = .ok (.string (String.ofList contents)))
    (htoken : ∀ token, read (.bare token) = readScalar token)
    {value : Value} {bare : Bool} {text : List Char} (h : PrimitiveText value bare text) :
    Cuttable cut (ReadsAs read) value bare text := by
  cases h with
  | bare hne hblank hread =>
    have hchars := isTokenChar_of_mem hread hblank
    have hvalue : ReadsAs read (.bare text) value := by
      rw [ReadsAs, htoken, hread, build_of_isPrimitive (isPrimitive_of_readScalar hread)]
    obtain ⟨first, more, rfl⟩ := List.exists_cons_of_ne_nil hne
    obtain ⟨hseparator, hquote, hbracket, hcolon⟩ :=
      isTokenChar_spec (hchars first List.mem_cons_self)
    refine ⟨⟨first, more, rfl, hseparator, hcolon⟩, balanced_of_forall ?_, _, hvalue, ?_⟩
    · intro c hc
      obtain ⟨-, hquote, hbracket, -⟩ := isTokenChar_spec (hchars c hc)
      exact ⟨hquote, hbracket⟩
    · intro c rest hrest hends
      have hcurrent : c.current? = some first := Cursor.current?_of_rest hrest
      have hkeep : ∀ ch ∈ first :: more, (isSeparator ch || [].contains ch) = false := by
        intro ch hch
        simp [(isTokenChar_spec (hchars ch hch)).1]
      have hstop : ∀ ch ∈ rest.head?, (isSeparator ch || [].contains ch) = true := by
        intro ch hch
        simp [hends rfl ch hch]
      obtain ⟨d, hd, hmore⟩ := cutToken_of_rest hrest hne hkeep hstop
      refine ⟨d, ?_, hmore⟩
      have hother (opening : Char) (hopening : isBracket opening = true) :
          c.current? ≠ some opening := by
        rw [hcurrent]
        rintro ⟨⟩
        rw [hopening] at hbracket
        contradiction
      rw [hcut c (hother '{' rfl) (hother '[' rfl), cutItem, hcurrent, hd]
      simp [hquote, Except.map]
  | @quoted mark contents hmark hcontents =>
    have hspec : isSeparator mark = false ∧ mark ≠ ':' := by
      rcases isQuoteMark_iff.1 hmark with rfl | rfl <;> decide
    refine ⟨⟨mark, _, rfl, hspec⟩, .quoted hmark hcontents, .quoted contents, hquoted contents, ?_⟩
    intro c rest hrest _
    have hcurrent : c.current? = some mark := Cursor.current?_of_rest hrest
    obtain ⟨d, hd, hmore⟩ := Cursor.takeQuoted_of_rest (by simpa using hrest) hmark hcontents
    refine ⟨d, ?_, hmore⟩
    have hother (opening : Char) (hopening : isQuoteMark opening = false) :
        c.current? ≠ some opening := by
      rw [hcurrent]
      rintro ⟨⟩
      rw [hopening] at hmark
      contradiction
    rw [hcut c (hother '{' rfl) (hother '[' rfl), cutItem, hcurrent, hd]
    simp [hmark, closed, Except.map]

end FindSelect
