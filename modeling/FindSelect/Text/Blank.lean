namespace FindSelect.Text

/-- White space: the characters that carry the Unicode property White_Space.
    Zero-width spaces and byte order marks are ordinary characters. -/
def isBlank (c : Char) : Bool :=
  let n := c.toNat
  (0x9 ≤ n && n ≤ 0xd) || n == 0x20 || n == 0x85 || n == 0xa0 || n == 0x1680 ||
    (0x2000 ≤ n && n ≤ 0x200a) || n == 0x2028 || n == 0x2029 || n == 0x202f || n == 0x205f ||
    n == 0x3000

/-- What may stand between two entries or two items: white space and commas. -/
def isSeparator (c : Char) : Bool := isBlank c || c == ','

/-- Both quote characters open a quoted text, which runs to the next occurrence
    of the same character. -/
def isQuoteMark (c : Char) : Bool := c == '"' || c == '\''

def trimStart (text : List Char) : List Char := text.dropWhile isBlank

def trimEnd (text : List Char) : List Char := (text.reverse.dropWhile isBlank).reverse

/-- The text without the white space at its two ends. -/
def trim (text : List Char) : List Char := trimEnd (trimStart text)

/-- The text before a final `closing`, if it ends in one. -/
def dropLast? (closing : Char) (text : List Char) : Option (List Char) :=
  if text.getLast? = some closing then some text.dropLast else none

/-- The text between its first character and its last one, if these are the two
    delimiters. A single character is never both. -/
def unwrap? (opening closing : Char) : List Char → Option (List Char)
  | [] => none
  | c :: rest => if c = opening then dropLast? closing rest else none

/-- The text before the first `mark` and the text after it. -/
def splitAt? (mark : Char) (text : List Char) : Option (List Char × List Char) :=
  match text.dropWhile (· != mark) with
  | [] => none
  | _ :: rest => some (text.takeWhile (· != mark), rest)

/-- A text with every `mark` in it written twice. -/
def doubled (mark : Char) (text : List Char) : List Char :=
  text.flatMap fun c => if c = mark then [mark, mark] else [c]

/-- A text between two marks. The marks inside it are doubled, so that none of
    them ends it. -/
def quotedWith (mark : Char) (text : List Char) : List Char := mark :: doubled mark text ++ [mark]

@[simp] theorem length_trimStart_le (text : List Char) :
    (trimStart text).length ≤ text.length :=
  (List.dropWhile_sublist isBlank).length_le

@[simp] theorem length_trimEnd_le (text : List Char) : (trimEnd text).length ≤ text.length := by
  have h := (List.dropWhile_sublist isBlank (l := text.reverse)).length_le
  simpa [trimEnd] using h

@[simp] theorem length_trim_le (text : List Char) : (trim text).length ≤ text.length :=
  Nat.le_trans (length_trimEnd_le _) (length_trimStart_le _)

/-- Taking the two delimiters off costs two characters. -/
theorem length_unwrap? {opening closing : Char} {text inner : List Char}
    (h : unwrap? opening closing text = some inner) : inner.length + 2 = text.length := by
  cases text with
  | nil => simp [unwrap?] at h
  | cons c rest =>
    simp only [unwrap?, dropLast?] at h
    split at h <;> try contradiction
    split at h <;> try contradiction
    rename_i hlast
    obtain rfl := Option.some.inj h
    cases rest with
    | nil => simp at hlast
    | cons d rest => simp

end FindSelect.Text
