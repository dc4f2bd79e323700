import FindSelect.Document.Basic
import FindSelect.Document.Cut
import FindSelect.Document.Scalar

namespace FindSelect

open Text

/-- The error for a mapping that does not end. -/
def Mapping.unclosed (kind : Mapping) (text : List Char) : SyntaxError :=
  match kind with
  | .document => .openDocument (String.ofList text)
  | .operators => .openOperators (String.ofList text)

/-- The error for a fault among the entries of a mapping. -/
def Mapping.ofFault (kind : Mapping) (text : List Char) : CutFault → SyntaxError
  | .unclosed _ | .noValue => kind.unclosed text
  | .emptyKey => .valueBeforeKey (String.ofList text)
  | .overrun => .overrun

/-- What is cut from inside the brackets of a text is shorter than the text. -/
theorem lt_length_of_unwrap? {opening closing : Char} {text inner : List Char}
    (h : unwrap? opening closing (trim text) = some inner) {n : Nat}
    (hn : n ≤ (Cursor.start inner).remaining) : n < text.length := by
  have hinner := length_unwrap? h
  have htrim := length_trim_le text
  simp only [Cursor.remaining, Cursor.start] at hn
  omega

/-- Reads a mapping in braces. Each value is handed to `readValue`, with a proof
    that it is shorter than the text. -/
def readMap (kind : Mapping) (text : List Char)
    (readValue : (piece : Piece) → piece.length < text.length → Except SyntaxError Value) :
    Except SyntaxError Document :=
  match h : unwrap? '{' '}' (trim text) with
  | none => .error (kind.unclosed (trim text))
  | some inner => do
    let entries ← (cutEntries kind (.start inner)).read (kind.ofFault (trim text))
      fun entry hmem => do
        let value ← readValue entry.2
          (lt_length_of_unwrap? h (length_le_of_mem_cutEntries kind _ entry hmem))
        return (entry.1, value)
    return Document.ofEntries entries

/-- The value of an item of a list of primitives. -/
def readItem : Piece → Except SyntaxError Value
  | .quoted contents => .ok (.string (String.ofList contents))
  | .bare token | .braced token | .bracketed token => readScalar token

/-- The error for a fault in a list of primitives. -/
def itemsFault (text : List Char) : CutFault → SyntaxError
  | .overrun => .overrun
  | _ => .openQuote (String.ofList text)

/-- Reads a list of primitives in brackets, the operand of `$in`. -/
def readValues (text : List Char) : Except SyntaxError (List Value) :=
  match unwrap? '[' ']' (trim text) with
  | none => .error (.unbalancedList (String.ofList (trim text)))
  | some inner => (cutItems (.start inner)).readAll (itemsFault (trim text)) readItem

/-- The value that a piece of an operator map describes: a primitive or a list of
    primitives. -/
def readOperatorValue : Piece → Except SyntaxError Value
  | .quoted contents => .ok (.string (String.ofList contents))
  | .bracketed span => (readValues span).map .list
  | .braced span => .error (.malformedScalar (String.ofList span))
  | .bare token => readScalar token

/-- Reads an operator map in braces. -/
def readOperators (text : List Char) : Except SyntaxError Document :=
  readMap .operators text fun piece _ => readOperatorValue piece

/-- The error for a fault in a list of documents. -/
def conditionsFault (text : List Char) : CutFault → SyntaxError
  | .unclosed .bracket => .unbalancedBraces (String.ofList text)
  | .overrun => .overrun
  | _ => .openQuote (String.ofList text)

/-- Reads a list of documents in brackets, the operand of `$and` and `$or`. Each
    document is handed to `readElement`, with a proof that it is shorter than the
    text. -/
def readConditionsWith (text : List Char)
    (readElement : (span : List Char) → span.length < text.length → Except SyntaxError Document) :
    Except SyntaxError (List Document) :=
  match h : unwrap? '[' ']' (trim text) with
  | none => .error (.unbalancedList (String.ofList (trim text)))
  | some inner =>
    (cutConditions (.start inner)).read (conditionsFault (trim text)) fun span hmem =>
      readElement span (lt_length_of_unwrap? h (length_le_of_mem_cutConditions _ span hmem))

/-- Reads a query or projection document in braces, whose values are primitives,
    operator maps and condition lists. A blank text is the empty document. -/
def readDocument (text : List Char) : Except SyntaxError Document :=
  if trim text = [] then .ok .empty
  else readMap .document text fun piece hpiece =>
    match piece, hpiece with
    | .quoted contents, _ => .ok (.string (String.ofList contents))
    | .braced span, _ => (readOperators span).map Document.toValue
    | .bracketed span, hspan =>
      (readConditionsWith span fun element helement =>
        have : element.length < text.length := Nat.lt_trans helement hspan
        readDocument element).map fun documents => .list (documents.map Document.toValue)
    | .bare token, _ => readScalar token
termination_by text.length

/-- Reads a condition list whose elements are query documents. -/
def readConditions (text : List Char) : Except SyntaxError (List Document) :=
  readConditionsWith text fun element _ => readDocument element

/-- The value that a piece of a document describes. -/
def readDocumentValue : Piece → Except SyntaxError Value
  | .quoted contents => .ok (.string (String.ofList contents))
  | .braced span => (readOperators span).map Document.toValue
  | .bracketed span =>
    (readConditions span).map fun documents => .list (documents.map Document.toValue)
  | .bare token => readScalar token

/-- Documents and condition lists are read through each other. -/
theorem readDocument_eq (text : List Char) :
    readDocument text =
      if trim text = [] then .ok .empty
      else readMap .document text fun piece _ => readDocumentValue piece := by
  rw [readDocument]
  congr 2
  funext piece _
  cases piece <;> rfl

/-- The document that a text describes. -/
def Document.parse (text : String) : Except SyntaxError Document := readDocument text.toList

/-- The operator map that a text describes. -/
def Document.parseOperators (text : String) : Except SyntaxError Document :=
  readOperators text.toList

/-- The documents of the condition list that a text describes. -/
def Document.parseList (text : String) : Except SyntaxError (List Document) :=
  readConditions text.toList

/-- The scalar that a text describes. -/
def Value.parse (text : String) : Except SyntaxError Value := readScalar text.toList

/-- The primitives of the value list that a text describes. -/
def Value.parseList (text : String) : Except SyntaxError (List Value) := readValues text.toList

end FindSelect
