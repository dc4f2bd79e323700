import FindSelect.Proofs.Document.Stepwise
import FindSelect.Proofs.Find.Faults

namespace FindSelect

open Text

/-- The parts of a call that was read, with its documents as they are stored. -/
structure StoredCall where
  table : String
  conditions : Store
  projection : Store

def FindCall.stored (call : FindCall) : StoredCall :=
  ⟨call.table, call.conditions.store, call.projection.store⟩

namespace Stepwise

/-- Splits the text between the parentheses, with the query read one character at a time and what
    follows it cut off. -/
def queryAndProjection (arguments : List Char) :
    Except (Stop SyntaxError) (List Char × List Char) :=
  if '{' ∉ arguments then .ok ([], [])
  else if arguments.head? ≠ some '{' then
    .error (.fault (.invalidCall (.queryNotDocument (String.ofList arguments))))
  else do
    let (read, c) ← (Cursor.Stepwise.takeEnclosed '{' '}' (.start arguments)).mapError .breach
    match read with
    | .error _ => throw (.fault (.malformedArguments (String.ofList arguments)))
    | .ok query =>
      let rest ← (Cursor.Stepwise.slice c c.position c.input.length).mapError .breach
      if trim rest = [] then return (query, [])
      if (trim rest).head? = some ',' then return (query, trim (trim rest).tail)
      throw (.fault (.invalidCall (.textAfterQuery (String.ofList (trim rest)))))

def readParts (text : List Char) : Except (Stop SyntaxError) FindCall.Parts := do
  let call := FindCall.trimCall text
  let some (marker, rest) := splitAt? '.' call
    | throw (.fault (.invalidCall (.notACall (String.ofList call))))
  if marker ≠ "db".toList then
    throw (.fault (.invalidCall (.notOnDatabase (String.ofList marker))))
  let some (table, method) := splitAt? '.' rest
    | throw (.fault (.invalidCall (.noMethod (String.ofList call))))
  if trim table = [] then throw (.fault (.invalidCall (.noTable (String.ofList call))))
  let arguments ← (FindCall.argumentsOf (trim method)).mapError .fault
  let (query, projection) ← queryAndProjection arguments
  return ⟨trim table, query, projection⟩

def readCall (text : List Char) : Except (Stop SyntaxError) StoredCall := do
  let parts ← readParts text
  let conditions ← readDocument parts.query
  let projection ← readDocument parts.projection
  return ⟨String.ofList parts.table, conditions, projection⟩

theorem slice_rest {c : Cursor} (hc : c.position ≤ c.input.length) :
    Cursor.Stepwise.slice c c.position c.input.length = .ok c.rest := by
  rw [Cursor.Stepwise.slice, if_pos ⟨hc, Nat.le_refl _⟩, List.take_length]
  rfl

/-- The arguments of a call are split under checks as they are without them. -/
theorem guarded_queryAndProjection (arguments : List Char) :
    Guarded .overrun Eq (FindCall.queryAndProjection arguments)
      (queryAndProjection arguments) := by
  unfold FindCall.queryAndProjection queryAndProjection
  split
  · exact .ok rfl
  split
  · exact .error nofun
  rw [Cursor.Stepwise.takeEnclosed_eq braces.spec.1]
  rcases hread : (Cursor.start arguments).takeEnclosed '{' '}' with ⟨span | query, c⟩
  · exact .error nofun
  have hc := (Cursor.movesOver_takeEnclosed hread).inside (Nat.zero_le _)
  rw [mapError_ok, ok_bind]
  dsimp only
  rw [slice_rest hc, mapError_ok, ok_bind]
  generalize trim c.rest = rest
  split
  · exact .ok rfl
  · exact .ok rfl
  · rename_i hnil hcomma
    have hhead : rest.head? ≠ some ',' := by
      intro hhead
      obtain ⟨projection, rfl⟩ := List.head?_eq_some_iff.1 hhead
      exact hcomma projection rfl
    rw [if_neg hnil, if_neg hhead]
    exact .error nofun

theorem guarded_argumentsOf (method : List Char) :
    Guarded .overrun Eq (FindCall.argumentsOf method)
      ((FindCall.argumentsOf method).mapError .fault) := by
  rcases FindCall.argumentsOf_cases method with ⟨fault, h⟩ | ⟨arguments, -, h⟩
  · rw [h]
    exact .error nofun
  · rw [h]
    exact .ok rfl

/-- The parts of a call are the same under checks. -/
theorem guarded_readParts (text : List Char) :
    Guarded .overrun Eq (FindCall.Parts.read text) (readParts text) := by
  unfold FindCall.Parts.read readParts
  dsimp only
  cases splitAt? '.' (FindCall.trimCall text) with
  | none => exact .error nofun
  | some parts =>
    by_cases hmarker : parts.1 ≠ "db".toList
    · dsimp only
      rw [if_pos hmarker, if_pos hmarker]
      exact .error nofun
    dsimp only
    rw [if_neg hmarker, if_neg hmarker]
    cases splitAt? '.' parts.2 with
    | none => exact .error nofun
    | some call =>
      by_cases htable : trim call.1 = []
      · dsimp only
        rw [if_pos htable, if_pos htable]
        exact .error nofun
      dsimp only
      rw [if_neg htable, if_neg htable]
      apply (guarded_argumentsOf _).bind
      rintro arguments _ rfl
      apply (guarded_queryAndProjection arguments).bind
      rintro texts _ rfl
      exact .ok rfl

/-- A call is read under checks as it is without them, with its documents as they are stored. -/
theorem guarded_readCall (text : List Char) :
    Guarded .overrun (fun call stored => stored = call.stored) (FindCall.read text)
      (readCall text) := by
  apply (guarded_readParts text).bind
  rintro parts _ rfl
  apply (guarded_readDocument _ parts.query (Nat.lt_succ_self _)).bind
  rintro conditions _ rfl
  apply (guarded_readDocument _ parts.projection (Nat.lt_succ_self _)).bind
  rintro projection _ rfl
  exact .ok rfl

end Stepwise

/-- A checked reading ends as the plain one does, up to how its result is viewed, and the plain one
    never asks for a token past the end. -/
def ReadsWithin {α β : Type} (view : α → β) (plain : Except SyntaxError α)
    (checked : Except (Stop SyntaxError) β) : Prop :=
  checked = (plain.map view).mapError .fault ∧ plain ≠ .error .overrun

/-- No text leads a reader out of it: with every move of a cursor over one character, every cut,
    every count of brackets and every position of an entry checked, calls, documents, operator maps
    and both kinds of list read the same. So the translation of a call is a statement or an
    error. -/
theorem reads_within_text (text : String) :
    ReadsWithin FindCall.stored (FindCall.parse text) (Stepwise.readCall text.toList) ∧
      ReadsWithin Document.store (Document.parse text) (Stepwise.readDocument text.toList) ∧
      ReadsWithin Document.store (Document.parseOperators text)
        (Stepwise.readOperators text.toList) ∧
      ReadsWithin (List.map Document.store) (Document.parseList text)
        (Stepwise.readConditions text.toList) ∧
      ReadsWithin id (Value.parseList text) (Stepwise.readValues text.toList) ∧
      (findToSql text).result ≠ .error (.parse .overrun) := by
  have hcall := (Stepwise.guarded_readCall text.toList).eq_mapError
  have hdocument (element : List Char) :=
    Stepwise.guarded_readDocument (element.length + 1) element (Nat.lt_succ_self _)
  refine ⟨hcall, (hdocument text.toList).eq_mapError, ?_, ?_, ?_, ?_⟩
  · exact (Stepwise.guarded_readOperators text.toList).eq_mapError
  · exact (Stepwise.guarded_readConditions fun element _ => hdocument element).eq_mapError
  · exact ((Stepwise.guarded_readValues text.toList).mono fun _ _ h => h.symm).eq_mapError
  · rw [ne_eq, result_findToSql_eq_parse]
    exact hcall.2

end FindSelect
