import FindSelect.Find.Call
import FindSelect.Proofs.Document.Elements

namespace FindSelect

open Text

/-- A run of white space, which may be empty. -/
structure Blanks where
  text : List Char
  isBlank_of_mem : ∀ c ∈ text, isBlank c = true

/-- A name that a table can have in a call, without white space around it. -/
structure TableName where
  text : List Char
  ne_nil : text ≠ []
  point_not_mem : '.' ∉ text
  trim_eq : trim text = text

/-- The white space in a call, and whether a semicolon ends it. -/
structure CallLayout where
  before : Blanks
  beforeTable : Blanks
  afterTable : Blanks
  beforeFind : Blanks
  afterFind : Blanks
  beforeQuery : Blanks
  afterQuery : Blanks
  afterCall : Blanks
  semicolon : Bool
  after : Blanks

namespace CallLayout

/-- The text between the parentheses. -/
def arguments (layout : CallLayout) (query : BraceGroup) (projection : Option (List Char)) :
    List Char :=
  layout.beforeQuery.text ++ (query.text ++ (layout.afterQuery.text ++
    projection.elim [] fun text => ',' :: text))

/-- The text after the second point. -/
def method (layout : CallLayout) (query : BraceGroup) (projection : Option (List Char)) :
    List Char :=
  layout.beforeFind.text ++ ("find".toList ++ (layout.afterFind.text ++
    ('(' :: layout.arguments query projection ++ [')'])))

/-- The text from the database to the parenthesis that closes. -/
def call (layout : CallLayout) (table : TableName) (query : BraceGroup)
    (projection : Option (List Char)) : List Char :=
  "db".toList ++ '.' :: (layout.beforeTable.text ++ table.text ++ layout.afterTable.text ++
    '.' :: layout.method query projection)

/-- The text of a call with a query, and a projection if there is one. -/
def write (layout : CallLayout) (table : TableName) (query : BraceGroup)
    (projection : Option (List Char)) : List Char :=
  layout.before.text ++ (layout.call table query projection ++ (layout.afterCall.text ++
    if layout.semicolon then [';'] else [])) ++ layout.after.text

end CallLayout

namespace FindCall

variable (layout : CallLayout) (table : TableName) (query : BraceGroup)
  (projection : Option (List Char))

theorem exists_call_eq : ∃ text, layout.call table query projection = 'd' :: text ++ [')'] := by
  refine ⟨'b' :: '.' :: (layout.beforeTable.text ++ table.text ++ layout.afterTable.text ++
    '.' :: (layout.beforeFind.text ++ ("find".toList ++ (layout.afterFind.text ++
      '(' :: layout.arguments query projection)))), ?_⟩
  simp [CallLayout.call, CallLayout.method]

/-- The white space around a call and a semicolon at its end are taken off. -/
theorem trimCall_write :
    trimCall (layout.write table query projection) = layout.call table query projection := by
  obtain ⟨text, htext⟩ := exists_call_eq layout table query projection
  have htrim : trim (layout.write table query projection) = layout.call table query projection ++
      trimEnd (layout.afterCall.text ++ if layout.semicolon then [';'] else []) := by
    rw [CallLayout.write, trim_padded layout.before.isBlank_of_mem layout.after.isBlank_of_mem,
      htext]
    exact trim_ends_append (by decide) (by decide) _ _
  have hblank : trimEnd layout.afterCall.text = [] :=
    trimEnd_append_blank layout.afterCall.isBlank_of_mem []
  unfold trimCall
  rw [htrim]
  cases layout.semicolon with
  | false =>
    have hlast : dropLast? ';' (layout.call table query projection) = none := by
      rw [htext, dropLast?, List.getLast?_concat, if_neg (by decide)]
    simp only [Bool.false_eq_true, if_false, List.append_nil, hblank, hlast]
  | true =>
    -- The semicolon keeps the white space before it until it is taken off itself.
    have hsemicolon : trimEnd (layout.afterCall.text ++ [';']) =
        layout.afterCall.text ++ [';'] := by
      have hstop : isBlank ';' = false := by decide
      have htrim := trimEnd_concat_append hstop layout.afterCall.text []
      rw [List.append_nil] at htrim
      exact htrim.trans (List.append_nil _)
    have hcall : trimEnd (layout.call table query projection ++ layout.afterCall.text) =
        layout.call table query projection := by
      rw [htext, trimEnd_concat_append (by decide), hblank, List.append_nil]
    simp only [if_true, hsemicolon, ← List.append_assoc, dropLast?_concat, hcall]

/-- White space in a method makes no difference to its arguments. -/
theorem argumentsOf_method :
    argumentsOf (trim (layout.method query projection)) =
      .ok (trim (layout.arguments query projection)) := by
  have hmethod : trim (layout.method query projection) =
      "find".toList ++ (layout.afterFind.text ++
        ('(' :: layout.arguments query projection ++ [')'])) := by
    have hfirst : isBlank 'f' = false := by decide
    have hlast : isBlank ')' = false := by decide
    have hends := trim_ends hfirst hlast
      ("ind".toList ++ (layout.afterFind.text ++ '(' :: layout.arguments query projection))
    rw [CallLayout.method, trim_blank_append layout.beforeFind.isBlank_of_mem]
    simpa using hends
  have hparentheses : trim (layout.afterFind.text ++
      ('(' :: layout.arguments query projection ++ [')'])) =
        '(' :: layout.arguments query projection ++ [')'] := by
    rw [trim_blank_append layout.afterFind.isBlank_of_mem, trim_ends (by decide) (by decide)]
  have hprefix : "find".toList.isPrefixOf (trim (layout.method query projection)) = true := by
    rw [hmethod]
    exact List.isPrefixOf_iff_prefix.2 (List.prefix_append _ _)
  have hdrop : (trim (layout.method query projection)).drop 4 =
      layout.afterFind.text ++ ('(' :: layout.arguments query projection ++ [')']) := by
    rw [hmethod]
    rfl
  rw [argumentsOf, if_pos hprefix, hdrop, hparentheses]
  dsimp only
  rw [unwrap?_brackets]

/-- The query is the first argument, and what follows the comma is the second. -/
theorem queryAndProjection_arguments :
    queryAndProjection (trim (layout.arguments query projection)) =
      .ok (query.text, trim (projection.getD [])) := by
  obtain ⟨inner, hinner⟩ := query.exists_inner
  obtain ⟨tail, htail⟩ : ∃ tail, tail = layout.afterQuery.text ++
    projection.elim [] fun text => ',' :: text := ⟨_, rfl⟩
  have harguments : trim (layout.arguments query projection) = query.text ++ trimEnd tail := by
    rw [CallLayout.arguments, trim_blank_append layout.beforeQuery.isBlank_of_mem, ← htail,
      hinner, trim_ends_append (by decide) (by decide)]
  obtain ⟨d, hread, hrest⟩ := query.takeEnclosed_append (trimEnd tail)
  have hhead : (query.text ++ trimEnd tail).head? = some '{' := by
    rw [hinner]
    rfl
  have hbrace : '{' ∈ query.text ++ trimEnd tail := List.mem_of_head? hhead
  rw [harguments, queryAndProjection, if_neg (not_not.2 hbrace), if_neg (not_not.2 hhead), hread]
  dsimp only
  rw [hrest, trim_trimEnd, htail, trim_blank_append layout.afterQuery.isBlank_of_mem]
  cases projection with
  | none => rfl
  | some text =>
    have hcomma : trim (',' :: text) = ',' :: trimEnd text := by
      rw [trim, trimStart, List.dropWhile_cons_of_neg (by decide)]
      exact trimEnd_concat_append (by decide) [] text
    simp only [Option.elim_some, hcomma, Option.getD_some, trim_trimEnd]

/-- The parts of a call are read back, whatever its layout. -/
theorem readParts_write :
    Parts.read (layout.write table query projection) =
      .ok ⟨table.text, query.text, trim (projection.getD [])⟩ := by
  have hmarker : '.' ∉ "db".toList := by decide
  have htable : '.' ∉ layout.beforeTable.text ++ table.text ++ layout.afterTable.text := by
    intro hmem
    have hpoint : isBlank '.' ≠ true := by decide
    rcases List.mem_append.1 hmem with hmem | hmem
    · rcases List.mem_append.1 hmem with hmem | hmem
      · exact hpoint (layout.beforeTable.isBlank_of_mem '.' hmem)
      · exact table.point_not_mem hmem
    · exact hpoint (layout.afterTable.isBlank_of_mem '.' hmem)
  have hname : trim (layout.beforeTable.text ++ table.text ++ layout.afterTable.text) =
      table.text := by
    rw [trim_padded layout.beforeTable.isBlank_of_mem layout.afterTable.isBlank_of_mem,
      table.trim_eq]
  unfold Parts.read
  simp only [trimCall_write, CallLayout.call, splitAt?_append hmarker, splitAt?_append htable,
    hname, if_neg table.ne_nil, argumentsOf_method]
  rw [if_neg (not_not.2 rfl), ok_bind, queryAndProjection_arguments]
  rfl

/-- A call is read as its arguments are: with the error of its query, or else that of its
    projection, or else with both documents. Without a projection that document is empty. -/
theorem parse_write :
    FindCall.parse (String.ofList (layout.write table query projection)) = do
      let conditions ← Document.parse (String.ofList query.text)
      let columns ← projection.elim (.ok .empty) fun text => Document.parse (String.ofList text)
      return ⟨String.ofList table.text, conditions, columns⟩ := by
  have hprojection : readDocument (trim (projection.getD [])) =
      projection.elim (.ok .empty) fun text => Document.parse (String.ofList text) := by
    rw [readDocument_trim]
    cases projection with
    | none => exact readDocument_eq []
    | some text => exact congrArg readDocument String.toList_ofList.symm
  rw [FindCall.parse, FindCall.read, String.toList_ofList, readParts_write, ok_bind]
  dsimp only
  rw [hprojection, Document.parse, String.toList_ofList]

/-- A call with a space wherever one may stand. -/
def spacedLayout : CallLayout :=
  let space : Blanks := ⟨[' '], List.all_eq_true.1 (by decide +kernel)⟩
  ⟨space, space, space, space, space, space, space, space, true, space⟩

/-- A table whose name has a space inside. -/
def spacedTable : TableName :=
  ⟨"open orders".toList, by decide +kernel, by decide +kernel, by decide +kernel⟩

/-- A query with a parenthesis and a brace in quotes. -/
def quotedQuery : BraceGroup := ⟨"\x7ba: ')\x7d'\x7d".toList, by decide +kernel⟩

theorem parse_write_spaced :
    String.ofList (spacedLayout.write spacedTable quotedQuery (some " \x7b'b.;': 1\x7d".toList)) =
      " db. open orders . find ( \x7ba: ')\x7d'\x7d , \x7b'b.;': 1\x7d) ; " ∧
    FindCall.parse " db. open orders . find ( \x7ba: ')\x7d'\x7d , \x7b'b.;': 1\x7d) ; " =
      .ok ⟨"open orders", .ofEntries [("a", .string ")\x7d")],
        .ofEntries [("\"b.;\"", .integer 1)]⟩ := by
  have htext : String.ofList
      (spacedLayout.write spacedTable quotedQuery (some " \x7b'b.;': 1\x7d".toList)) =
        " db. open orders . find ( \x7ba: ')\x7d'\x7d , \x7b'b.;': 1\x7d) ; " := by
    decide +kernel
  refine ⟨htext, ?_⟩
  rw [← htext, FindCall.parse_write]
  decide +kernel

end FindCall

end FindSelect
