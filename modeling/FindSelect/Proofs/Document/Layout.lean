import FindSelect.Document.Reader
import FindSelect.Proofs.Document.Scalar
import FindSelect.Proofs.Outcome
import FindSelect.Proofs.Text.Cursor

namespace FindSelect

open Text

namespace Value

mutual

/-- The value that a syntax tree stands for. In a tree names are bare and may be repeated;
    the entries of every document are inserted in order. -/
def build : Value → Value
  | .list items => .list (buildItems items)
  | .document entries => (Document.ofEntries (buildEntries entries)).toValue
  | value => value

def buildItems : List Value → List Value
  | [] => []
  | item :: items => build item :: buildItems items

def buildEntries : List (String × Value) → List (String × Value)
  | [] => []
  | (name, value) :: entries => (identifier name.toList, build value) :: buildEntries entries

end

end Value

/-- The texts of a name, and whether the name is bare. Only plain names can be. -/
inductive NameText : String → Bool → List Char → Prop where
  | bare {name : List Char} (hne : name ≠ []) (hplain : Plain name) :
      NameText (String.ofList name) true name
  | quoted {mark : Char} {name : List Char} (hmark : isQuoteMark mark = true) (hne : name ≠ [])
      (hname : mark ∉ name) : NameText (String.ofList name) false (mark :: name ++ [mark])

/-- The texts of a name together with what stands between it and its value. -/
inductive KeyText : Mapping → String → List Char → Prop where
  | document {name : String} {bare : Bool} {key colons : List Char} (hname : NameText name bare key)
      (hcolons : ∀ c ∈ colons, (isBlank c || c == ':') = true) (hbare : bare = true → colons ≠ []) :
      KeyText .document name (key ++ colons)
  | operators {name : String} {bare : Bool} {key before after : List Char}
      (hname : NameText name bare key) (hbefore : ∀ c ∈ before, isBlank c = true)
      (hafter : ∀ c ∈ after, isBlank c = true) :
      KeyText .operators name (key ++ before ++ ':' :: after)

/-- The texts of a primitive, and whether it is a bare token. -/
inductive PrimitiveText : Value → Bool → List Char → Prop where
  | bare {token : List Char} {value : Value} (hne : token ≠ [])
      (hblank : ∀ c ∈ token, isBlank c = false) (hread : readScalar token = .ok value) :
      PrimitiveText value true token
  | quoted {mark : Char} {contents : List Char} (hmark : isQuoteMark mark = true)
      (hcontents : mark ∉ contents) :
      PrimitiveText (.string (String.ofList contents)) false (mark :: contents ++ [mark])

section Sequences

variable {α : Type}

/-- The texts of items with gaps of separators after them. A bare item needs one unless it
    is the last. -/
inductive Spaced (Item : α → Bool → List Char → Prop) : List α → List Char → Prop where
  | nil : Spaced Item [] []
  | cons {bare : Bool} {item : α} {items : List α} {text gap rest : List Char}
      (hitem : Item item bare text) (hgap : ∀ c ∈ gap, isSeparator c = true)
      (hbare : bare = true → items ≠ [] → gap ≠ []) (hrest : Spaced Item items rest) :
      Spaced Item (item :: items) (text ++ gap ++ rest)

/-- The texts of an entry. -/
inductive EntryText (kind : Mapping) (Item : Value → Bool → List Char → Prop) :
    String × Value → Bool → List Char → Prop where
  | mk {name : String} {value : Value} {bare : Bool} {key text : List Char}
      (hkey : KeyText kind name key) (hvalue : Item value bare text) :
      EntryText kind Item (name, value) bare (key ++ text)

/-- The texts of a mapping in braces. -/
inductive MapText (kind : Mapping) (Item : Value → Bool → List Char → Prop) :
    Value → Bool → List Char → Prop where
  | mk {entries : List (String × Value)} {gap text : List Char}
      (hgap : ∀ c ∈ gap, isSeparator c = true)
      (hentries : Spaced (EntryText kind Item) entries text) :
      MapText kind Item (.document entries) false ('{' :: (gap ++ text) ++ ['}'])

/-- The texts of a list in brackets. -/
inductive ListText (Item : Value → Bool → List Char → Prop) : Value → Bool → List Char → Prop where
  | mk {items : List Value} {gap text : List Char} (hgap : ∀ c ∈ gap, isSeparator c = true)
      (hitems : Spaced Item items text) :
      ListText Item (.list items) false ('[' :: (gap ++ text) ++ [']'])

end Sequences

/-- The texts of an operand: a primitive or a list of primitives. -/
inductive OperandText : Value → Bool → List Char → Prop where
  | primitive {value : Value} {bare : Bool} {text : List Char} (h : PrimitiveText value bare text) :
      OperandText value bare text
  | list {value : Value} {bare : Bool} {text : List Char}
      (h : ListText PrimitiveText value bare text) : OperandText value bare text

/-- The texts of a value in a document: a primitive, an operator map, or a list of documents. -/
inductive ValueText : Value → Bool → List Char → Prop where
  | primitive {value : Value} {bare : Bool} {text : List Char} (h : PrimitiveText value bare text) :
      ValueText value bare text
  | operators {value : Value} {bare : Bool} {text : List Char}
      (h : MapText .operators OperandText value bare text) : ValueText value bare text
  | conditions {value : Value} {bare : Bool} {text : List Char}
      (h : ListText (MapText .document ValueText) value bare text) : ValueText value bare text

/-- The texts of a document, with white space around it. -/
def DocumentText (entries : List (String × Value)) (text : List Char) : Prop :=
  ∃ before inner after, (∀ c ∈ before, isBlank c = true) ∧ (∀ c ∈ after, isBlank c = true) ∧
    MapText .document ValueText (.document entries) false inner ∧ text = before ++ inner ++ after

end FindSelect
