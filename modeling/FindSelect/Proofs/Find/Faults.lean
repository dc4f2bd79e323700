import FindSelect.Proofs.Document.Faults
import FindSelect.Proofs.Text.Lossless
import FindSelect.Proofs.Text.Trimming
import FindSelect.Proofs.Trace
import FindSelect.Sql.Select

namespace FindSelect

open Text

/-- The errors of the shape of a call. -/
def SyntaxError.isOfCall : SyntaxError → Bool
  | .invalidCall _ | .malformedArguments _ => true
  | _ => false

namespace FindCall

/-- The call stands in the text around it. -/
theorem trimCall_isInfix (text : List Char) : trimCall text <:+: text := by
  unfold trimCall
  split
  · rename_i call hcall
    have hfront : call <+: trim text := ⟨[';'], (eq_of_dropLast? hcall).symm⟩
    exact ((trimEnd_isPrefix call).trans hfront).isInfix.trans (trim_isInfix text)
  · exact trim_isInfix text

/-- A method has no arguments for a fault of the call, or they stand in it. -/
theorem argumentsOf_cases (method : List Char) :
    (∃ fault, argumentsOf method = .error (.invalidCall fault)) ∨
      ∃ arguments, arguments <:+: method ∧ argumentsOf method = .ok arguments := by
  unfold argumentsOf
  dsimp only
  split
  · split
    · rename_i inner hinner
      have hdrop := (trim_isInfix (method.drop 4)).trans (List.drop_suffix 4 method).isInfix
      exact .inr ⟨_, (trim_isInfix inner).trans ((infix_of_unwrap? hinner).trans hdrop), rfl⟩
    · exact .inl ⟨_, rfl⟩
  · exact .inl ⟨_, rfl⟩

/-- The shape of a call is at fault, or the arguments stand in its text and decide. -/
theorem Parts.read_cases (text : List Char) :
    (∃ fault, Parts.read text = .error (.invalidCall fault)) ∨
      ∃ table arguments, arguments <:+: text ∧
        Parts.read text = (queryAndProjection arguments).map fun texts =>
          ⟨table, texts.1, texts.2⟩ := by
  unfold Parts.read
  dsimp only
  cases hcall : splitAt? '.' (trimCall text) with
  | none => exact .inl ⟨_, rfl⟩
  | some parts =>
    dsimp only
    split
    · exact .inl ⟨_, rfl⟩
    cases hmethod : splitAt? '.' parts.2 with
    | none => exact .inl ⟨_, rfl⟩
    | some call =>
      dsimp only
      split
      · exact .inl ⟨_, rfl⟩
      rcases argumentsOf_cases (trim call.2) with ⟨fault, h⟩ | ⟨arguments, harguments, h⟩
      · rw [h]
        exact .inl ⟨fault, rfl⟩
      · have hrest : parts.2 <:+ trimCall text := ⟨parts.1 ++ ['.'], by simp [eq_of_splitAt? hcall]⟩
        have hmethod : call.2 <:+ parts.2 := ⟨call.1 ++ ['.'], by simp [eq_of_splitAt? hmethod]⟩
        have hinner := (hmethod.trans hrest).isInfix.trans (trimCall_isInfix text)
        refine .inr ⟨trim call.1, arguments, ?_, ?_⟩
        · exact harguments.trans ((trim_isInfix call.2).trans hinner)
        · rw [h, ok_bind]
          cases queryAndProjection arguments <;> rfl

/-- The arguments are at fault as the shape of a call is or as a whole, or both parts stand in
    them. -/
theorem queryAndProjection_cases (arguments : List Char) :
    (∃ fault, queryAndProjection arguments = .error (.invalidCall fault)) ∨
      queryAndProjection arguments = .error (.malformedArguments (String.ofList arguments)) ∨
      ∃ texts : List Char × List Char, texts.1 <:+: arguments ∧ texts.2 <:+: arguments ∧
        queryAndProjection arguments = .ok texts := by
  unfold queryAndProjection
  split
  · exact .inr (.inr ⟨_, List.nil_infix, List.nil_infix, rfl⟩)
  split
  · exact .inl ⟨_, rfl⟩
  split
  · exact .inr (.inl rfl)
  · rename_i query c hread
    have hover := Cursor.movesOver_takeEnclosed hread
    have hquery : query <:+: arguments := hover.isInfix (List.infix_refl query)
    have hrest : trim c.rest <:+: arguments := (trim_isInfix c.rest).trans hover.suffix.isInfix
    split
    · exact .inr (.inr ⟨_, hquery, List.nil_infix, rfl⟩)
    · rename_i after hafter
      rw [hafter] at hrest
      have hprojection := (trim_isInfix after).trans (List.suffix_cons ',' after).isInfix
      exact .inr (.inr ⟨_, hquery, hprojection.trans hrest, rfl⟩)
    · exact .inl ⟨_, rfl⟩

/-- Whatever a call is refused for before its documents are read is a fault of its shape. -/
theorem isOfCall_of_readParts {text : List Char} {e : SyntaxError}
    (h : Parts.read text = .error e) : e.isOfCall = true := by
  rcases Parts.read_cases text with ⟨fault, hcases⟩ | ⟨table, arguments, -, hcases⟩
  · rw [hcases] at h
    exact Except.error.inj h ▸ rfl
  rw [hcases, map_eq_error] at h
  rcases queryAndProjection_cases arguments with ⟨fault, hsplit⟩ | hsplit | ⟨texts, -, -, hsplit⟩
  · rw [hsplit] at h
    exact Except.error.inj h ▸ rfl
  · rw [hsplit] at h
    exact Except.error.inj h ▸ rfl
  · rw [hsplit] at h
    contradiction

/-- Reading a call fails at its shape or in one of its documents. -/
theorem parse_eq_error {text : String} {e : SyntaxError} (h : parse text = .error e) :
    e.isOfCall = true ∨ e.isOfDocument = true := by
  have hdocument {t : List Char} (h : readDocument t = .error e) : e.isOfDocument = true :=
    isOfDocument_of_readDocument (t.length + 1) t e (Nat.lt_succ_self _) h
  rcases bind_eq_error.1 h with h | ⟨parts, -, h⟩
  · exact .inl (isOfCall_of_readParts h)
  rcases bind_eq_error.1 h with h | ⟨conditions, -, h⟩
  · exact .inr (hdocument h)
  rcases bind_eq_error.1 h with h | ⟨projection, -, h⟩
  · exact .inr (hdocument h)
  · contradiction

end FindCall

theorem FindCall.result_receive (text : String) :
    (receive text).result = (parse text).mapError .parse := by
  rw [receive, Traced.result_bind, Traced.result_mapError, Traced.result_of]
  cases parse text <;> rfl

/-- A text has a statement when it is a call that has one. -/
theorem result_findToSql_eq_ok {text sql : String} :
    (findToSql text).result = .ok sql ↔
      ∃ call, FindCall.parse text = .ok call ∧ call.toSql.result = .ok sql := by
  rw [findToSql, Traced.result_bind_eq_ok]
  simp only [FindCall.result_receive, Traced.result_mapError, mapError_eq_ok]

/-- A text is refused at the first stage exactly if it is no call. -/
theorem result_findToSql_eq_parse {text : String} {e : SyntaxError} :
    (findToSql text).result = .error (.parse e) ↔ FindCall.parse text = .error e := by
  rw [findToSql, Traced.result_bind_eq_error]
  simp [FindCall.result_receive, mapError_eq_error]

/-- A text is refused at the second stage exactly if its call has no statement. -/
theorem result_findToSql_eq_compile {text : String} {e : SelectError} :
    (findToSql text).result = .error (.compile e) ↔
      ∃ call, FindCall.parse text = .ok call ∧ call.toSql.result = .error e := by
  rw [findToSql, Traced.result_bind_eq_error]
  simp [FindCall.result_receive, mapError_eq_ok, mapError_eq_error]

/-- Documents never fail with the errors of lists or of calls, operator maps neither with those
    of documents, and calls never with the errors of lists, although lists on their own do. -/
theorem SyntaxError.unreachable :
    (∀ (text s : String) (fault : CallFault),
      Document.parse text ≠ .error (.openQuote s) ∧
      Document.parse text ≠ .error (.unbalancedList s) ∧
      Document.parse text ≠ .error (.malformedArguments s) ∧
      Document.parse text ≠ .error (.invalidCall fault)) ∧
    (∀ (text s : String) (fault : CallFault),
      Document.parseOperators text ≠ .error (.openQuote s) ∧
      Document.parseOperators text ≠ .error (.unbalancedList s) ∧
      Document.parseOperators text ≠ .error (.malformedArguments s) ∧
      Document.parseOperators text ≠ .error (.invalidCall fault) ∧
      Document.parseOperators text ≠ .error (.unbalancedBraces s) ∧
      Document.parseOperators text ≠ .error (.openDocument s)) ∧
    (∀ text s : String,
      FindCall.parse text ≠ .error (.openQuote s) ∧
      FindCall.parse text ≠ .error (.unbalancedList s) ∧
      (findToSql text).result ≠ .error (.parse (.openQuote s)) ∧
      (findToSql text).result ≠ .error (.parse (.unbalancedList s))) ∧
    (∃ text s, Value.parseList text = .error (.openQuote s)) ∧
    (∃ text s, Value.parseList text = .error (.unbalancedList s)) ∧
    (∃ text s, Document.parseList text = .error (.openQuote s)) ∧
    (∃ text s, Document.parseList text = .error (.unbalancedList s)) := by
  have hdocument {text : String} {e : SyntaxError} (h : Document.parse text = .error e) :
      e.isOfDocument = true :=
    isOfDocument_of_readDocument (text.toList.length + 1) _ e (Nat.lt_succ_self _) h
  have hoperators {text : String} {e : SyntaxError} (h : Document.parseOperators text = .error e) :
      e.isOfOperators = true := isOfOperators_of_readOperators h
  have hcall {text : String} {e : SyntaxError} (h : FindCall.parse text = .error e) :
      e.isOfCall = true ∨ e.isOfDocument = true := FindCall.parse_eq_error h
  refine ⟨?_, ?_, ?_, ?_, ?_, ?_, ?_⟩
  · intro text s fault
    refine ⟨?_, ?_, ?_, ?_⟩ <;>
    · intro h
      exact absurd (hdocument h) (by simp [isOfDocument, isOfOperators])
  · intro text s fault
    refine ⟨?_, ?_, ?_, ?_, ?_, ?_⟩ <;>
    · intro h
      exact absurd (hoperators h) (by simp [isOfOperators])
  · intro text s
    refine ⟨?_, ?_, ?_, ?_⟩
    · intro h
      exact absurd (hcall h) (by simp [isOfCall, isOfDocument, isOfOperators])
    · intro h
      exact absurd (hcall h) (by simp [isOfCall, isOfDocument, isOfOperators])
    · intro h
      exact absurd (hcall (result_findToSql_eq_parse.1 h))
        (by simp [isOfCall, isOfDocument, isOfOperators])
    · intro h
      exact absurd (hcall (result_findToSql_eq_parse.1 h))
        (by simp [isOfCall, isOfDocument, isOfOperators])
  · exact ⟨"['a]", "['a]", by decide +kernel⟩
  · exact ⟨"a", "a", by decide +kernel⟩
  · exact ⟨"['a]", "['a]", by decide +kernel⟩
  · exact ⟨"a", "a", by decide +kernel⟩

end FindSelect
