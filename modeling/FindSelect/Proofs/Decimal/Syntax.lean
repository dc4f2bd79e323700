import FindSelect.Decimal.Binary64
import FindSelect.Proofs.Text.Plain
import FindSelect.Proofs.Text.Span

namespace FindSelect

open Text

/-- The texts of a sign, and whether it is a minus. -/
inductive SignText : Bool → List Char → Prop where
  | none : SignText false []
  | plus : SignText false ['+']
  | minus : SignText true ['-']

/-- The texts of an integer: a sign or none, and any number of digits but zero. -/
inductive IntegerText : Int → List Char → Prop where
  | mk {negative : Bool} {sign digits : List Char} (hsign : SignText negative sign)
      (hne : digits ≠ []) (hdigits : ∀ c ∈ digits, c.isDigit = true) :
      IntegerText (if negative then -(Nat.ofDigitChars 10 digits 0 : Int)
        else Nat.ofDigitChars 10 digits 0) (sign ++ digits)

/-- The texts of the exponent that ends a numeral; none at all is the exponent zero. -/
inductive ExponentText : Int → List Char → Prop where
  | none : ExponentText 0 []
  | some {letter : Char} {power : Int} {text : List Char} (hletter : letter = 'e' ∨ letter = 'E')
      (hpower : IntegerText power text) : ExponentText power (letter :: text)

/-- The texts of a numeral up to its exponent, with the digits before and after the point. A point
    needs a digit on one side only, and none at all if there are digits. -/
inductive MantissaText : List Char → List Char → List Char → Prop where
  | whole {whole : List Char} (hne : whole ≠ []) (hwhole : ∀ c ∈ whole, c.isDigit = true) :
      MantissaText whole [] whole
  | point {whole fraction : List Char} (hne : whole ≠ [] ∨ fraction ≠ [])
      (hwhole : ∀ c ∈ whole, c.isDigit = true) (hfraction : ∀ c ∈ fraction, c.isDigit = true) :
      MantissaText whole fraction (whole ++ '.' :: fraction)

/-- The texts of a decimal without a sign. -/
inductive UnsignedText : Decimal → List Char → Prop where
  | mk {whole fraction mantissa exponent : List Char} {power : Int}
      (hmantissa : MantissaText whole fraction mantissa)
      (hexponent : ExponentText power exponent) :
      UnsignedText ⟨Nat.ofDigitChars 10 (whole ++ fraction) 0, power - fraction.length⟩
        (mantissa ++ exponent)

/-- The texts of a decimal with a sign or none, and whether that is a minus. -/
inductive DecimalText : Bool → Decimal → List Char → Prop where
  | mk {negative : Bool} {d : Decimal} {sign body : List Char} (hsign : SignText negative sign)
      (hbody : UnsignedText d body) : DecimalText negative d (sign ++ body)

section Signs

variable {negative : Bool} {sign : List Char}

/-- The sign that is split off is one of the texts of a sign. -/
theorem signText_splitSign (text : List Char) :
    ∃ sign, SignText (splitSign text).1 sign ∧ text = sign ++ (splitSign text).2 := by
  unfold splitSign
  split
  · exact ⟨['-'], .minus, rfl⟩
  · exact ⟨['+'], .plus, rfl⟩
  · exact ⟨[], .none, rfl⟩

/-- A sign is split from what follows it, unless that begins with another sign. -/
theorem SignText.splitSign (h : SignText negative sign) {first : Char} (hplus : first ≠ '+')
    (hminus : first ≠ '-') (rest : List Char) :
    splitSign (sign ++ first :: rest) = (negative, first :: rest) := by
  cases h with
  | plus => rfl
  | minus => rfl
  | none =>
    unfold FindSelect.splitSign
    split
    · rename_i heq
      exact absurd (List.cons.inj heq).1 hminus
    · rename_i heq
      exact absurd (List.cons.inj heq).1 hplus
    · rfl

theorem signText_minus (negative : Bool) : SignText negative (if negative then ['-'] else []) := by
  cases negative with
  | true => exact .minus
  | false => exact .none

end Signs

theorem ne_sign_of_isDigit {c : Char} (h : c.isDigit = true) : c ≠ '+' ∧ c ≠ '-' := by
  constructor
  · rintro rfl
    contradiction
  · rintro rfl
    contradiction

/-- An integer is read exactly from its texts. -/
theorem readInt?_eq_some_iff {text : List Char} {n : Int} :
    readInt? text = some n ↔ IntegerText n text := by
  constructor
  · intro h
    obtain ⟨sign, hsign, htext⟩ := signText_splitSign text
    simp only [readInt?] at h
    split at h
    · rename_i hdigits
      obtain rfl := Option.some.inj h
      have hinteger := IntegerText.mk hsign hdigits.1 (List.all_eq_true.1 hdigits.2)
      rw [← htext] at hinteger
      exact hinteger
    · contradiction
  · rintro ⟨hsign, hne, hdigits⟩
    obtain ⟨first, rest, rfl⟩ := List.exists_cons_of_ne_nil hne
    obtain ⟨hplus, hminus⟩ := ne_sign_of_isDigit (hdigits first List.mem_cons_self)
    rw [readInt?, hsign.splitSign hplus hminus]
    exact if_pos ⟨hne, List.all_eq_true.2 hdigits⟩

namespace Decimal

/-- An exponent is read from exactly its texts. -/
theorem readExponent?_eq_some_iff {text : List Char} {power : Int} :
    readExponent? text = some power ↔ ExponentText power text := by
  cases text with
  | nil =>
    constructor
    · intro h
      obtain rfl := Option.some.inj h
      exact .none
    · rintro ⟨⟩
      rfl
  | cons letter rest =>
    rw [readExponent?]
    constructor
    · intro h
      split at h
      · rename_i hletter
        exact .some hletter (readInt?_eq_some_iff.1 h)
      · contradiction
    · rintro (_ | ⟨hletter, hpower⟩)
      rw [if_pos hletter, readInt?_eq_some_iff]
      exact hpower

end Decimal

/-- An exponent begins with its letter, so it ends the digits before it. -/
theorem ExponentText.starts {power : Int} {text : List Char} (h : ExponentText power text) :
    StopsBefore Char.isDigit text ∧ StopsBefore (· == '.') text := by
  cases h with
  | none => exact ⟨stopsBefore_nil _, stopsBefore_nil _⟩
  | some hletter =>
    rcases hletter with rfl | rfl
    · exact ⟨stopsBefore_cons (by decide) _, stopsBefore_cons (by decide) _⟩
    · exact ⟨stopsBefore_cons (by decide) _, stopsBefore_cons (by decide) _⟩

namespace Decimal

variable {text whole fraction ending : List Char}

/-- A numeral with a point: the digits on both sides of it make one number. -/
theorem read?_point (hne : whole ≠ [] ∨ fraction ≠ []) (hwhole : ∀ c ∈ whole, c.isDigit = true)
    (hfraction : ∀ c ∈ fraction, c.isDigit = true) (hending : StopsBefore Char.isDigit ending) :
    read? (whole ++ '.' :: (fraction ++ ending)) = (readExponent? ending).map fun exponent =>
      ⟨Nat.ofDigitChars 10 (whole ++ fraction) 0, exponent - fraction.length⟩ := by
  have hstop : StopsBefore Char.isDigit ('.' :: (fraction ++ ending)) :=
    stopsBefore_cons (by decide) _
  have hdigit : ¬ (whole = [] ∧ fraction = []) := fun h => hne.elim (· h.1) (· h.2)
  unfold read?
  rw [takeWhile_append_of_stops hwhole hstop, dropWhile_append_of_stops hwhole hstop]
  simp [takeWhile_append_of_stops hfraction hending, dropWhile_append_of_stops hfraction hending,
    hdigit]

/-- A decimal without a point is read up to where its digits end. -/
theorem read?_whole (hne : whole ≠ []) (hwhole : ∀ c ∈ whole, c.isDigit = true)
    (hending : StopsBefore Char.isDigit ending) (hpoint : StopsBefore (· == '.') ending) :
    read? (whole ++ ending) = (readExponent? ending).map fun exponent =>
      ⟨Nat.ofDigitChars 10 (whole ++ []) 0, exponent - ([] : List Char).length⟩ := by
  unfold read?
  rw [takeWhile_append_of_stops hwhole hending, dropWhile_append_of_stops hwhole hending]
  dsimp only
  split
  · have hdot := hpoint '.' rfl
    contradiction
  · rw [if_neg fun h => hne h.1]

/-- An unsigned decimal is read exactly from its texts. -/
theorem read?_eq_some_iff {d : Decimal} : read? text = some d ↔ UnsignedText d text := by
  constructor
  · intro h
    have hparts := @List.takeWhile_append_dropWhile _ Char.isDigit text
    have hdigits (t : List Char) : ∀ c ∈ t.takeWhile Char.isDigit, c.isDigit = true :=
      fun c hc => List.mem_takeWhile_imp hc
    simp only [read?] at h
    split at h
    · rename_i places hrest
      split at h
      · contradiction
      · rename_i hne
        obtain ⟨power, hpower, rfl⟩ := Option.map_eq_some_iff.1 h
        have hplaces := @List.takeWhile_append_dropWhile _ Char.isDigit places
        have htext := UnsignedText.mk (.point (not_and_or.1 hne) (hdigits text) (hdigits places))
          (readExponent?_eq_some_iff.1 hpower)
        rw [List.append_assoc, List.cons_append, hplaces, ← hrest, hparts] at htext
        exact htext
    · split at h
      · contradiction
      · rename_i hne
        obtain ⟨power, hpower, rfl⟩ := Option.map_eq_some_iff.1 h
        have hwhole : text.takeWhile Char.isDigit ≠ [] := fun hnil => hne ⟨hnil, rfl⟩
        have htext := UnsignedText.mk (.whole hwhole (hdigits text))
          (readExponent?_eq_some_iff.1 hpower)
        rw [hparts] at htext
        exact htext
  · rintro ⟨hmantissa, hexponent⟩
    obtain ⟨hdigit, hpoint⟩ := hexponent.starts
    cases hmantissa with
    | whole hne hwhole =>
      rw [read?_whole hne hwhole hdigit hpoint, readExponent?_eq_some_iff.2 hexponent]
      rfl
    | point hne hwhole hfraction =>
      rw [List.append_assoc, List.cons_append, read?_point hne hwhole hfraction hdigit,
        readExponent?_eq_some_iff.2 hexponent]
      rfl

end Decimal

/-- A decimal begins with a digit or its point. -/
theorem UnsignedText.starts {d : Decimal} {text : List Char} (h : UnsignedText d text) :
    ∃ first rest, text = first :: rest ∧ (first.isDigit = true ∨ first = '.') := by
  obtain @⟨whole, _, _, _, _, hmantissa, -⟩ := h
  cases hmantissa with
  | whole hne hwhole =>
    obtain ⟨first, rest, rfl⟩ := List.exists_cons_of_ne_nil hne
    exact ⟨first, _, rfl, .inl (hwhole first List.mem_cons_self)⟩
  | point _ hwhole =>
    cases whole with
    | nil => exact ⟨'.', _, rfl, .inr rfl⟩
    | cons first rest => exact ⟨first, _, rfl, .inl (hwhole first List.mem_cons_self)⟩

namespace Binary64

theorem toLower_of_isDigit {c : Char} (h : c.isDigit = true) : c.toLower = c := by
  have hrange := toNat_of_isDigit h
  unfold Char.toLower
  rw [dif_neg]
  rintro ⟨hge, -⟩
  have hcode : 65 ≤ c.toNat := hge
  omega

/-- The words for infinity and for no number begin with a letter, and no numeral does. -/
theorem map_toLower_ne {d : Decimal} {body : List Char} (h : UnsignedText d body) (word : String)
    (hletter : (word.toList.head?.any fun c => c.isDigit || c == '.') = false) :
    body.map Char.toLower ≠ word.toList := by
  intro heq
  obtain ⟨first, rest, rfl, hfirst⟩ := h.starts
  have hlower : first.toLower = first := by
    rcases hfirst with hdigit | rfl
    · exact toLower_of_isDigit hdigit
    · decide
  rw [← heq, List.map_cons, hlower, List.head?_cons, Option.any_some] at hletter
  rcases hfirst with hdigit | rfl
  · rw [hdigit] at hletter
    contradiction
  · contradiction

/-- A decimal is read as the nearest number with its sign. -/
theorem read?_of_decimalText {negative : Bool} {d : Decimal} {text : List Char}
    (h : DecimalText negative d text) : read? text = some (ofDecimal negative d) := by
  obtain ⟨hsign, hbody⟩ := h
  have hread := Decimal.read?_eq_some_iff.2 hbody
  have hword := map_toLower_ne hbody
  obtain ⟨first, rest, rfl, hfirst⟩ := hbody.starts
  have hnosign : first ≠ '+' ∧ first ≠ '-' := by
    rcases hfirst with hdigit | rfl
    · exact ne_sign_of_isDigit hdigit
    · decide
  unfold read?
  rw [hsign.splitSign hnosign.1 hnosign.2]
  dsimp only
  rw [if_neg (not_or.2 ⟨hword "inf" rfl, hword "infinity" rfl⟩), if_neg (hword "nan" rfl), hread]
  rfl

/-- A number that is read and is finite was written as a decimal. -/
theorem decimalText_of_read? {text : List Char} {x : Binary64} (h : read? text = some x)
    (hx : x.isFinite = true) : ∃ negative d, DecimalText negative d text ∧
      x = ofDecimal negative d := by
  obtain ⟨sign, hsign, htext⟩ := signText_splitSign text
  simp only [read?] at h
  split at h
  · obtain rfl := Option.some.inj h
    contradiction
  split at h
  · obtain rfl := Option.some.inj h
    contradiction
  · obtain ⟨d, hread, rfl⟩ := Option.map_eq_some_iff.1 h
    have hdecimal := DecimalText.mk hsign (Decimal.read?_eq_some_iff.1 hread)
    rw [← htext] at hdecimal
    exact ⟨_, d, hdecimal, rfl⟩

end Binary64
end FindSelect
