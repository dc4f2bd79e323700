import FindSelect.Decimal.Layout

namespace FindSelect

/-- A value that a find call can hold. Integers and floating-point numbers are
    kept apart, so `1` and `1.0` differ. A nested document is the list of its
    entries in order. -/
inductive Value where
  | null
  | boolean (b : Bool)
  | integer (n : Int64)
  | float (x : Binary64)
  | string (s : String)
  | list (items : List Value)
  | document (entries : List (String × Value))
  deriving Repr, Inhabited

namespace Value

/-- Everything but lists and documents. -/
def isPrimitive : Value → Bool
  | .list _ | .document _ => false
  | _ => true

/-- The name of a value's type in messages. -/
def kind : Value → String
  | .null => "null"
  | .boolean _ => "boolean"
  | .integer _ => "integer"
  | .float _ => "float"
  | .string _ => "string"
  | .list _ => "list"
  | .document _ => "document"

mutual

/-- Equality of values, with numbers compared as numbers. Values of different
    types differ, and documents are equal when their entries are, in order. -/
def equal : Value → Value → Bool
  | .null, .null => true
  | .boolean a, .boolean b => a == b
  | .integer a, .integer b => a == b
  | .float a, .float b => a.equal b
  | .string a, .string b => a == b
  | .list a, .list b => equalItems a b
  | .document a, .document b => equalEntries a b
  | _, _ => false

def equalItems : List Value → List Value → Bool
  | [], [] => true
  | a :: as, b :: bs => equal a b && equalItems as bs
  | _, _ => false

def equalEntries : List (String × Value) → List (String × Value) → Bool
  | [], [] => true
  | (j, a) :: as, (k, b) :: bs => j == k && equal a b && equalEntries as bs
  | _, _ => false

end

mutual

/-- Whether two values are the same, which decides equality. Unlike `equal` it
    tells the two zeros apart and knows a not-a-number again. -/
def same : Value → Value → Bool
  | .null, .null => true
  | .boolean a, .boolean b => a == b
  | .integer a, .integer b => a == b
  | .float a, .float b => a == b
  | .string a, .string b => a == b
  | .list a, .list b => sameItems a b
  | .document a, .document b => sameEntries a b
  | _, _ => false

def sameItems : List Value → List Value → Bool
  | [], [] => true
  | a :: as, b :: bs => same a b && sameItems as bs
  | _, _ => false

def sameEntries : List (String × Value) → List (String × Value) → Bool
  | [], [] => true
  | (j, a) :: as, (k, b) :: bs => j == k && same a b && sameEntries as bs
  | _, _ => false

end

mutual

theorem same_iff_eq : (a b : Value) → (same a b = true ↔ a = b)
  | .null, b => by cases b <;> simp [same]
  | .boolean _, b => by cases b <;> simp [same]
  | .integer _, b => by cases b <;> simp [same]
  | .float _, b => by cases b <;> simp [same]
  | .string _, b => by cases b <;> simp [same]
  | .list items, b => by cases b <;> simp [same, sameItems_iff_eq items]
  | .document entries, b => by cases b <;> simp [same, sameEntries_iff_eq entries]

theorem sameItems_iff_eq : (a b : List Value) → (sameItems a b = true ↔ a = b)
  | [], b => by cases b <;> simp [sameItems]
  | item :: items, b => by
    cases b <;> simp [sameItems, same_iff_eq item, sameItems_iff_eq items]

theorem sameEntries_iff_eq : (a b : List (String × Value)) → (sameEntries a b = true ↔ a = b)
  | [], b => by cases b <;> simp [sameEntries]
  | (key, value) :: entries, b => by
    cases b with
    | nil => simp [sameEntries]
    | cons entry rest =>
      obtain ⟨key', value'⟩ := entry
      simp [sameEntries, same_iff_eq value, sameEntries_iff_eq entries]

end

instance : DecidableEq Value := fun a b => decidable_of_iff _ (same_iff_eq a b)

/-- Numbers are written out from `0.0001` up to sixteen digits before the point,
    and with an exponent beyond. -/
def numberLayout : Layout := ⟨-4, 16, [], .up⟩

mutual

/-- The text of a value. Strings stand in double quotes and keep every
    character as it is, and keys stand bare. -/
def display : Value → String
  | .null => "null"
  | .boolean true => "true"
  | .boolean false => "false"
  | .integer n => String.ofList (writeInt n.toInt)
  | .float x => String.ofList (x.write numberLayout)
  | .string s => "\"" ++ s ++ "\""
  | .list items => "[" ++ ", ".intercalate (displayItems items) ++ "]"
  | .document entries => "\x7b" ++ ", ".intercalate (displayEntries entries) ++ "\x7d"

def displayItems : List Value → List String
  | [] => []
  | item :: items => display item :: displayItems items

def displayEntries : List (String × Value) → List String
  | [] => []
  | (key, value) :: entries => (key ++ ": " ++ display value) :: displayEntries entries

end

theorem displayItems_eq_map (items : List Value) : displayItems items = items.map display := by
  induction items with
  | nil => simp [displayItems]
  | cons item items ih => simp [displayItems, ih]

theorem displayEntries_eq_map (entries : List (String × Value)) :
    displayEntries entries = entries.map fun (key, value) => key ++ ": " ++ display value := by
  induction entries with
  | nil => simp [displayEntries]
  | cons entry entries ih => simp [displayEntries, ih]

end Value
end FindSelect
