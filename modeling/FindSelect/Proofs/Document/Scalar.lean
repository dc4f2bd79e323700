import FindSelect.Document.Scalar
import FindSelect.Proofs.Text.Plain
import FindSelect.Proofs.Text.Span

namespace FindSelect

open Text

/-- The characters of bare tokens: those of plain names, and signs. -/
def isTokenChar (c : Char) : Bool := isPlain c || c == '+' || c == '-'

/-- No character of a token ends it, opens a quote or is a bracket. -/
theorem isTokenChar_spec {c : Char} (h : isTokenChar c = true) :
    isSeparator c = false ∧ isQuoteMark c = false ∧ isBracket c = false ∧ c ≠ ':' := by
  simp only [isTokenChar, Bool.or_eq_true, beq_iff_eq] at h
  rcases h with (h | rfl) | rfl
  · have hne {d : Char} (hd : isPlain d = false) : (c == d) = false :=
      beq_false_of_ne (ne_of_isPlain h hd)
    refine ⟨?_, ?_, ?_, ne_of_isPlain h (by decide +kernel)⟩
    · rw [isSeparator, isBlank_eq_false_of_isPlain h, hne (by decide +kernel)]
      rfl
    · rw [isQuoteMark, hne (by decide +kernel), hne (by decide +kernel)]
      rfl
    · rw [isBracket, hne (by decide +kernel), hne (by decide +kernel), hne (by decide +kernel),
        hne (by decide +kernel)]
      rfl
  · decide
  · decide

theorem isTokenChar_of_isPlain {c : Char} (h : isPlain c = true) : isTokenChar c = true := by
  simp [isTokenChar, h]

theorem isTokenChar_of_isDigit {c : Char} (h : c.isDigit = true) : isTokenChar c = true := by
  exact isTokenChar_of_isPlain (isPlain_of_isDigit h)

/-- Taking the sign off a numeral leaves all of its other characters. -/
theorem isTokenChar_or_mem_splitSign {text : List Char} {c : Char} (h : c ∈ text) :
    isTokenChar c = true ∨ c ∈ (splitSign text).2 := by
  unfold splitSign
  split
  · rcases List.mem_cons.1 h with rfl | h
    · exact .inl (by decide +kernel)
    · exact .inr h
  · rcases List.mem_cons.1 h with rfl | h
    · exact .inl (by decide +kernel)
    · exact .inr h
  · exact .inr h

/-- An integer is written in digits, after a sign. -/
theorem isTokenChar_of_readInt? {text : List Char} {n : Int} (h : readInt? text = some n) :
    ∀ c ∈ text, isTokenChar c = true := by
  intro c hc
  simp only [readInt?] at h
  split at h
  · rename_i hdigits
    rcases isTokenChar_or_mem_splitSign hc with hc | hc
    · exact hc
    · exact isTokenChar_of_isDigit (List.all_eq_true.1 hdigits.2 c hc)
  · contradiction

/-- An exponent is written as a letter before an integer. -/
theorem isTokenChar_of_readExponent? {text : List Char} {n : Int}
    (h : Decimal.readExponent? text = some n) : ∀ c ∈ text, isTokenChar c = true := by
  cases text with
  | nil => simp
  | cons letter rest =>
    simp only [Decimal.readExponent?] at h
    split at h
    · rename_i hletter
      intro c hc
      rcases List.mem_cons.1 hc with rfl | hc
      · rcases hletter with rfl | rfl <;> decide +kernel
      · exact isTokenChar_of_readInt? h c hc
    · contradiction

/-- Digits in front of a text are characters of tokens. -/
theorem isTokenChar_of_dropWhile {text : List Char}
    (h : ∀ c ∈ text.dropWhile Char.isDigit, isTokenChar c = true) :
    ∀ c ∈ text, isTokenChar c = true := by
  intro c hc
  rw [← List.takeWhile_append_dropWhile (p := Char.isDigit) (l := text)] at hc
  rcases List.mem_append.1 hc with hc | hc
  · exact isTokenChar_of_isDigit (List.mem_takeWhile_imp hc)
  · exact h c hc

/-- A decimal is written in digits, a point and an exponent. -/
theorem isTokenChar_of_readDecimal? {text : List Char} {x : Decimal}
    (h : Decimal.read? text = some x) : ∀ c ∈ text, isTokenChar c = true := by
  apply isTokenChar_of_dropWhile
  simp only [Decimal.read?] at h
  split at h
  · rename_i places hrest
    split at h
    · contradiction
    · obtain ⟨exponent, hexponent, -⟩ := Option.map_eq_some_iff.1 h
      intro c hc
      rw [hrest] at hc
      rcases List.mem_cons.1 hc with rfl | hc
      · decide +kernel
      · exact isTokenChar_of_dropWhile (isTokenChar_of_readExponent? hexponent) c hc
  · split at h
    · contradiction
    · obtain ⟨exponent, hexponent, -⟩ := Option.map_eq_some_iff.1 h
      exact isTokenChar_of_readExponent? hexponent

/-- The words for what is not finite hold letters too, but they are no scalars. -/
theorem isTokenChar_of_readBinary64? {text : List Char} {x : Binary64}
    (h : Binary64.read? text = some x) (hfinite : x.isFinite = true) :
    ∀ c ∈ text, isTokenChar c = true := by
  simp only [Binary64.read?] at h
  split at h
  · obtain rfl := Option.some.inj h
    contradiction
  split at h
  · obtain rfl := Option.some.inj h
    contradiction
  · obtain ⟨d, hd, -⟩ := Option.map_eq_some_iff.1 h
    intro c hc
    rcases isTokenChar_or_mem_splitSign hc with hc | hc
    · exact hc
    · exact isTokenChar_of_readDecimal? hd c hc

/-- A scalar is written in the characters of tokens. -/
theorem isTokenChar_of_readScalar {text : List Char} {value : Value}
    (h : readScalar text = .ok value) : ∀ c ∈ trim text, isTokenChar c = true := by
  have houtcome := scalarOutcome_readScalar text
  rw [h] at houtcome
  cases houtcome with
  | null htoken | true htoken | false htoken =>
    rw [htoken]
    exact List.all_eq_true.1 (by decide +kernel)
  | integer hinteger =>
    obtain ⟨m, hm, -⟩ := Option.bind_eq_some_iff.1 hinteger
    exact isTokenChar_of_readInt? hm
  | float _ hfloat hfinite => exact isTokenChar_of_readBinary64? hfloat hfinite

/-- A scalar is a primitive. -/
theorem isPrimitive_of_readScalar {text : List Char} {value : Value}
    (h : readScalar text = .ok value) : value.isPrimitive = true := by
  have houtcome := scalarOutcome_readScalar text
  rw [h] at houtcome
  cases houtcome <;> rfl

/-- The only error of a token is that it is malformed, and it carries the token. -/
theorem eq_malformed_of_readScalar {token : List Char} {e : SyntaxError}
    (h : readScalar token = .error e) : e = .malformedScalar (String.ofList (trim token)) := by
  have houtcome := scalarOutcome_readScalar token
  rw [h] at houtcome
  cases houtcome with
  | malformed => rfl

end FindSelect
