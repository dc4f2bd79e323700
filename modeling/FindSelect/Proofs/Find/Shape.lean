import FindSelect.Proofs.Document.Shape
import FindSelect.Proofs.Find.Faults

namespace FindSelect

open Text Traced

/-- The errors for values of the wrong shape: a list or a document in place of a literal, and
    an operand of a connective that is no document. -/
def SelectError.isOfShape : SelectError → Bool
  | .unsupportedCondition (.notALiteral _) => true
  | .unsupportedCondition (.operandNotDocument _ _) => true
  | _ => false

theorem Literal.ofValue_ne_error {value : Value} (h : IsScalar value) (e : SelectError) :
    ofValue value ≠ .error e := by
  cases value with
  | list items => exact absurd h (not_isScalar_list items)
  | document entries => exact absurd h (not_isScalar_document entries)
  | _ => simp [ofValue]

namespace Comparison

variable {column : String} {e : SelectError}

/-- An operand that was read is never refused for its shape. -/
theorem not_isOfShape_of_ofOperator {comparator : Comparator} {operand : Value}
    (hoperand : OperandShape IsScalar operand)
    (h : ofOperator column comparator operand = .error e) : e.isOfShape = false := by
  unfold ofOperator at h
  split at h
  · rename_i items
    have hitems : ∀ item ∈ items, IsScalar item := by
      cases hoperand with
      | leaf hleaf => exact absurd hleaf (not_isScalar_list items)
      | list hitems => exact hitems
    obtain ⟨item, hitem, herror⟩ := exists_of_mapM_eq_error (map_eq_error.1 h)
    exact absurd herror (Literal.ofValue_ne_error (hitems item hitem) e)
  · exact Except.error.inj h ▸ rfl
  · contradiction
  · split at h
    · rename_i hprimitive
      cases hoperand with
      | leaf hleaf => exact absurd (map_eq_error.1 h) (Literal.ofValue_ne_error hleaf e)
      | list => contradiction
    · exact Except.error.inj h ▸ rfl

theorem not_isOfShape_of_ofOperators {operators : List (String × Value)}
    (hoperands : ∀ operator ∈ operators, OperandShape IsScalar operator.2)
    (h : ofOperators column operators = .error e) : e.isOfShape = false := by
  unfold ofOperators at h
  split at h
  · exact Except.error.inj h ▸ rfl
  · obtain ⟨operator, hoperator, herror⟩ := exists_of_mapM_eq_error h
    dsimp only at herror
    split at herror
    · exact not_isOfShape_of_ofOperator (hoperands operator hoperator) herror
    · exact Except.error.inj herror ▸ rfl

/-- The value of a column that was read is never refused for its shape. -/
theorem not_isOfShape_of_ofColumn {value : Value} {Key : String → Prop}
    (hvalue : ValueShape Key IsScalar value) (h : ofColumn column value = .error e) :
    e.isOfShape = false := by
  cases hvalue with
  | leaf hleaf =>
    unfold ofColumn at h
    split at h
    · contradiction
    · exact absurd hleaf (not_isScalar_document _)
    · exact absurd hleaf (not_isScalar_list _)
    · exact absurd (map_eq_error.1 h) (Literal.ofValue_ne_error hleaf e)
  | operators _ hoperands => exact not_isOfShape_of_ofOperators hoperands h
  | conditions => exact Except.error.inj h ▸ rfl

end Comparison

namespace Clause

variable {e : SelectError}

theorem not_isOfShape_of_ofPlain {key : String} {value : Value} {Key : String → Prop}
    (hvalue : ValueShape Key IsScalar value) (h : (ofPlain key value).result = .error e) :
    e.isOfShape = false := by
  unfold ofPlain at h
  split at h
  · rw [result_throw] at h
    exact Except.error.inj h ▸ rfl
  · rw [result_of, map_eq_error] at h
    exact Comparison.not_isOfShape_of_ofColumn hvalue h

/-- An entry without a list has no clause because its key is a connective, or because it is
    no test of a column. -/
theorem result_ofEntry_eq_error {key : String} {value : Value}
    (hlist : ∀ operands, value ≠ .list operands) (h : (ofEntry key value).result = .error e) :
    (∃ connective, e = .unsupportedCondition (.notAList connective value)) ∨
      (ofPlain key value).result = .error e := by
  cases hkey : Connective.ofKey? key with
  | none =>
    right
    cases value with
    | list operands => exact absurd rfl (hlist operands)
    | _ => simpa only [ofEntry, hkey] using h
  | some connective =>
    left
    refine ⟨connective, ?_⟩
    cases value with
    | list operands => exact absurd rfl (hlist operands)
    | _ =>
      simp only [ofEntry, hkey, result_throw, Except.error.injEq] at h
      exact h.symm

/-- The entries of a document fail where one of them does. -/
theorem not_isOfShape_of_ofEntries {entries : List (String × Value)}
    (hentries : ∀ entry ∈ entries, ∀ key e,
      (ofEntry key entry.2).result = .error e → e.isOfShape = false)
    (h : (ofEntries entries).result = .error e) : e.isOfShape = false := by
  induction entries with
  | nil =>
    rw [ofEntries] at h
    contradiction
  | cons entry entries ih =>
    rw [List.forall_mem_cons] at hentries
    rw [ofEntries, result_bind_eq_error] at h
    rcases h with h | ⟨clause, -, h⟩
    · exact hentries.1 entry.1 e h
    rcases result_bind_eq_error.1 h with h | ⟨-, -, h⟩
    · contradiction
    rcases result_bind_eq_error.1 h with h | ⟨clauses, -, h⟩
    · exact ih hentries.2 h
    · contradiction

/-- Operands that are all documents fail where one of these does. -/
theorem not_isOfShape_of_ofOperands {connective : Connective}
    {documents : List (List (String × Value))}
    (hdocuments : ∀ entries ∈ documents, ∀ e,
      (ofEntries entries).result = .error e → e.isOfShape = false)
    (h : (ofOperands connective (documents.map .document)).result = .error e) :
    e.isOfShape = false := by
  induction documents with
  | nil =>
    rw [List.map_nil, ofOperands] at h
    contradiction
  | cons entries documents ih =>
    rw [List.forall_mem_cons] at hdocuments
    rw [List.map_cons, ofOperands, result_bind_eq_error] at h
    rcases h with h | ⟨condition, -, h⟩
    · exact hdocuments.1 e h
    rcases result_bind_eq_error.1 h with h | ⟨conditions, -, h⟩
    · exact ih hdocuments.2 h
    · contradiction

/-- A value of the right shape never fails at its shape. -/
theorem not_isOfShape_of_ofEntry {value : Value} {Key : String → Prop}
    (hvalue : ValueShape Key IsScalar value) :
    ∀ key e, (ofEntry key value).result = .error e → e.isOfShape = false := by
  induction hvalue with
  | @leaf value hleaf =>
    intro key e h
    have hlist : ∀ operands, value ≠ .list operands := by
      rintro operands rfl
      exact not_isScalar_list operands hleaf
    rcases result_ofEntry_eq_error hlist h with ⟨connective, rfl⟩ | h
    · rfl
    · exact not_isOfShape_of_ofPlain (.leaf hleaf : ValueShape Key IsScalar value) h
  | operators hkeys hoperands =>
    intro key e h
    rcases result_ofEntry_eq_error (by simp) h with ⟨connective, rfl⟩ | h
    · rfl
    · exact not_isOfShape_of_ofPlain (.operators hkeys hoperands) h
  | conditions hkeys hvalues ih =>
    intro key e h
    rw [ofEntry] at h
    split at h
    · rename_i connective _
      split at h
      · rw [result_throw] at h
        exact Except.error.inj h ▸ rfl
      · rcases result_bind_eq_error.1 h with h | ⟨conditions, -, h⟩
        · refine not_isOfShape_of_ofOperands ?_ h
          intro entries hentries e h
          exact not_isOfShape_of_ofEntries (ih entries hentries) h
        · contradiction
    · exact not_isOfShape_of_ofPlain (.conditions hkeys hvalues) h

end Clause

namespace FindCall

/-- Both documents of a call that was read were read as documents. -/
theorem exists_documents_of_parse {text : String} {call : FindCall} (h : parse text = .ok call) :
    ∃ query projection, readDocument query = .ok call.conditions ∧
      readDocument projection = .ok call.projection := by
  obtain ⟨parts, -, h⟩ := bind_eq_ok.1 h
  obtain ⟨conditions, hconditions, h⟩ := bind_eq_ok.1 h
  obtain ⟨projection, hprojection, h⟩ := bind_eq_ok.1 h
  obtain rfl := Except.ok.inj h
  exact ⟨parts.query, parts.projection, hconditions, hprojection⟩

/-- The statement of a call never fails at the shape of its conditions. -/
theorem not_isOfShape_of_toSql {call : FindCall} {Key : String → Prop} {e : SelectError}
    (hshape : DocumentShape Key IsScalar call.conditions.entries)
    (h : call.toSql.result = .error e) : e.isOfShape = false := by
  rcases result_bind_eq_error.1 h with h | ⟨select, -, h⟩
  · rcases result_bind_eq_error.1 h with h | ⟨condition, -, h⟩
    · refine Clause.not_isOfShape_of_ofEntries ?_ h
      exact fun entry hentry => Clause.not_isOfShape_of_ofEntry (hshape.values entry hentry)
    rcases result_bind_eq_error.1 h with h | ⟨columns, -, h⟩
    · rw [result_of] at h
      obtain ⟨entry, -, herror⟩ := exists_of_mapM_eq_error h
      dsimp only at herror
      split at herror
      · contradiction
      · contradiction
      · exact Except.error.inj herror ▸ rfl
    · contradiction
  · contradiction

/-- A call that was read is never refused for the shape of a value. -/
theorem not_isOfShape_of_parse {text : String} {call : FindCall} {e : SelectError}
    (hparse : parse text = .ok call) (h : call.toSql.result = .error e) : e.isOfShape = false := by
  obtain ⟨query, -, hquery, -⟩ := exists_documents_of_parse hparse
  exact not_isOfShape_of_toSql
    (documentShape_of_readDocument _ query _ (Nat.lt_succ_self _) hquery) h

end FindCall

/-- Documents that are read have distinct keys and finite numbers, and their values are scalars,
    operator maps and lists of documents. So the statement of a call that was read never fails
    at a list or document in place of a literal, nor at an operand that is no document. -/
theorem Document.parse_shape :
    (∀ (text : String) (d : Document), Document.parse text = .ok d →
      DocumentShape IsKey IsScalar d.entries) ∧
    (∀ (text : String) (call : FindCall), FindCall.parse text = .ok call →
      (∀ value, call.toSql.result ≠ .error (.unsupportedCondition (.notALiteral value))) ∧
      ∀ connective operand, call.toSql.result ≠
        .error (.unsupportedCondition (.operandNotDocument connective operand))) ∧
    ∀ text : String,
      (∀ value, (findToSql text).result ≠
        .error (.compile (.unsupportedCondition (.notALiteral value)))) ∧
      ∀ connective operand, (findToSql text).result ≠
        .error (.compile (.unsupportedCondition (.operandNotDocument connective operand))) := by
  have hfind {text : String} {e : SelectError} (hshape : e.isOfShape = true) :
      (findToSql text).result ≠ .error (.compile e) := by
    intro h
    obtain ⟨call, hparse, hsql⟩ := result_findToSql_eq_compile.1 h
    rw [FindCall.not_isOfShape_of_parse hparse hsql] at hshape
    contradiction
  refine ⟨fun text d => Document.shape_of_parse, ?_, ?_⟩
  · intro text call hparse
    constructor
    · intro value h
      have := FindCall.not_isOfShape_of_parse hparse h
      contradiction
    · intro connective operand h
      have := FindCall.not_isOfShape_of_parse hparse h
      contradiction
  · intro text
    exact ⟨fun value => hfind rfl, fun connective operand => hfind rfl⟩

/-- A document with a quoted key, operands of both kinds of number, and an empty operand. -/
def mixedDocument : Document := .ofEntries [("$or", .list [.document [("\"a b\"", .document
  [("$in", .list [.integer 1, .float ⟨false, 0x4004000000000000⟩])])], .document []])]

theorem Document.parse_shape_mixed :
    Document.parse "\x7b$or: [\x7b'a b': \x7b$in: [1, 2.5]\x7d\x7d, \x7b\x7d]\x7d" =
      .ok mixedDocument ∧
    DocumentShape IsKey IsScalar mixedDocument.entries ∧
    FindCall.parse "db.t.find(\x7b$or: [\x7b'a b': \x7b$in: [1, 2.5]\x7d\x7d, \x7b\x7d]\x7d)" =
      .ok ⟨"t", mixedDocument, .ofEntries []⟩ ∧
    ∀ value, (FindCall.toSql ⟨"t", mixedDocument, .ofEntries []⟩).result ≠
      .error (.unsupportedCondition (.notALiteral value)) := by
  have hdocument : Document.parse
      "\x7b$or: [\x7b'a b': \x7b$in: [1, 2.5]\x7d\x7d, \x7b\x7d]\x7d" = .ok mixedDocument := by
    decide +kernel
  have hcall : FindCall.parse
      "db.t.find(\x7b$or: [\x7b'a b': \x7b$in: [1, 2.5]\x7d\x7d, \x7b\x7d]\x7d)" =
      .ok ⟨"t", mixedDocument, .ofEntries []⟩ := by decide +kernel
  exact ⟨hdocument, Document.parse_shape.1 _ _ hdocument, hcall,
    (Document.parse_shape.2.1 _ _ hcall).1⟩

end FindSelect
