import Mathlib.Data.List.TakeWhile
import FindSelect.Document.Value
import FindSelect.Proofs.Text.Plain

namespace FindSelect

open Text

/-- The shape of a number without its sign: a word for what is not finite, or a
    digit and plain characters, with a negative exponent or without. -/
inductive Unsigned : List Char → Prop where
  | nan : Unsigned "NaN".toList
  | infinite : Unsigned "inf".toList
  | plain {first : Char} {rest : List Char} (hfirst : first.isDigit = true) (hrest : Plain rest) :
      Unsigned (first :: rest)
  | scaled {first : Char} {mantissa digits : List Char} (hfirst : first.isDigit = true)
      (hmantissa : Plain mantissa) (hdigits : Plain digits) :
      Unsigned (first :: mantissa ++ 'e' :: '-' :: digits)

/-- A number as it is written: its sign and the rest. -/
def Numeral (text : List Char) : Prop :=
  ∃ sign body, text = sign ++ body ∧ (sign = [] ∨ sign = ['-']) ∧ Unsigned body

theorem Unsigned.ne_minus_cons {text : List Char} (h : Unsigned text) (digits : List Char) :
    text ≠ '-' :: digits := by
  rintro rfl
  cases h with
  | plain hfirst => exact absurd hfirst (by decide)
  | scaled hfirst => exact absurd hfirst (by decide)

theorem plain_append {a b : List Char} (ha : Plain a) (hb : Plain b) : Plain (a ++ b) := by
  intro c hc
  rcases List.mem_append.1 hc with hc | hc
  · exact ha c hc
  · exact hb c hc

theorem plain_cons {c : Char} {text : List Char} (hc : isPlain c = true) (h : Plain text) :
    Plain (c :: text) := by
  intro d hd
  rcases List.mem_cons.1 hd with rfl | hd
  · exact hc
  · exact h d hd

theorem plain_of_isDigit {text : List Char} (h : ∀ c ∈ text, c.isDigit = true) : Plain text :=
  fun c hc => isPlain_of_isDigit (h c hc)

theorem isDigit_toDigits {n : Nat} : ∀ c ∈ Nat.toDigits 10 n, c.isDigit = true :=
  fun _ hc => Nat.isDigit_of_mem_toDigits (by decide) (by decide) hc

/-- Digits are the shape of an integer. -/
theorem unsigned_digits {digits : List Char} (h : ∀ c ∈ digits, c.isDigit = true)
    (hne : digits ≠ []) : Unsigned digits := by
  cases digits with
  | nil => exact absurd rfl hne
  | cons first rest =>
    exact .plain (h first List.mem_cons_self)
      (plain_of_isDigit fun c hc => h c (List.mem_cons_of_mem first hc))

/-- An integer is written with its sign and digits. -/
theorem numeral_writeInt (n : Int) : Numeral (writeInt n) := by
  have hdigits : Unsigned (Nat.toDigits 10 n.natAbs) :=
    unsigned_digits isDigit_toDigits Nat.toDigits_ne_nil
  unfold writeInt
  split
  · exact ⟨['-'], _, rfl, .inr rfl, hdigits⟩
  · exact ⟨[], _, rfl, .inl rfl, hdigits⟩

namespace Binary64

theorem significandOf_ne_zero {magnitude : Nat} (h : magnitude ≠ 0) :
    significandOf magnitude ≠ 0 := by
  rw [significandOf, Nat.pow_eq]
  split <;> omega

/-- The shortest decimal of a number other than zero is not zero: it is read as
    that number, or it is the exact value. -/
theorem digits_shortest_ne_zero (tie : Tie) {x : Binary64} (hx : x.magnitude.toNat ≠ 0) :
    (x.shortest tie).digits ≠ 0 := by
  unfold shortest
  dsimp only
  generalize hfound : List.findSome? _ (List.range' 1 17) = found
  cases found with
  | some d =>
    obtain ⟨n, -, hcandidate⟩ := List.exists_of_findSome?_eq_some hfound
    have hreads : x.readsBack d = true := List.find?_some hcandidate
    have hmagnitude : magnitudeOf d = x.magnitude.toNat := by simpa [readsBack] using hreads
    intro hzero
    have hdzero : d.digits = 0 := hzero
    rw [magnitudeOf, if_pos hdzero] at hmagnitude
    exact hx hmagnitude.symm
  | none =>
    have hsignificand : x.significand ≠ 0 := significandOf_ne_zero hx
    simp only [Option.getD_none, expansion]
    split
    · exact Nat.mul_ne_zero hsignificand (Nat.ne_of_gt (Nat.pow_pos (by decide)))
    · exact Nat.mul_ne_zero hsignificand (Nat.ne_of_gt (Nat.pow_pos (by decide)))

end Binary64

namespace Layout

/-- The digits that are written are digits, and there is one if the number is
    not zero. -/
theorem digits_spec {n : Nat} (hn : n ≠ 0) :
    let digits := ((Nat.toDigits 10 n).reverse.dropWhile (· == '0')).reverse
    (∀ c ∈ digits, c.isDigit = true) ∧ digits ≠ [] := by
  refine ⟨?_, ?_⟩
  · intro c hc
    have hmem : c ∈ (Nat.toDigits 10 n).reverse :=
      (List.dropWhile_sublist _).subset (List.mem_reverse.1 hc)
    exact isDigit_toDigits c (List.mem_reverse.1 hmem)
  · intro hempty
    have hzeros : ∀ c ∈ Nat.toDigits 10 n, c = '0' := by
      intro c hc
      have hnil : (Nat.toDigits 10 n).reverse.dropWhile (· == '0') = [] :=
        List.reverse_eq_nil_iff.1 hempty
      have hall := List.dropWhile_eq_nil_iff.1 hnil c (List.mem_reverse.2 hc)
      simpa using hall
    have hreplicate := List.eq_replicate_of_mem hzeros
    have hvalue := Nat.ofDigitChars_ten_toDigits (n := n)
    rw [hreplicate, Nat.ofDigitChars_replicate_zero] at hvalue
    omega

/-- Digits with a point among them begin with a digit. -/
theorem unsigned_plain {digits : List Char} (hdigits : ∀ c ∈ digits, c.isDigit = true)
    (hne : digits ≠ []) (point : Int) : Unsigned (plain digits point) := by
  have hplain := plain_of_isDigit hdigits
  have hzeros (n : Nat) : Plain (List.replicate n '0') := by
    intro c hc
    rw [List.eq_of_mem_replicate hc]
    decide +kernel
  obtain ⟨first, rest, rfl⟩ := List.exists_cons_of_ne_nil hne
  have hfirst : first.isDigit = true := hdigits first List.mem_cons_self
  have hrest : Plain rest := fun c hc => hplain c (List.mem_cons_of_mem first hc)
  unfold plain
  split
  · have htail : Plain ('.' :: List.replicate (-point).toNat '0' ++ first :: rest) :=
      plain_append (plain_cons (by decide +kernel) (hzeros _)) hplain
    have hzero : Unsigned ('0' :: ('.' :: List.replicate (-point).toNat '0' ++ first :: rest)) :=
      .plain (by decide) htail
    simpa using hzero
  split
  · have htail : Plain
        (rest ++ List.replicate (point.toNat - (first :: rest).length) '0' ++ ['.', '0']) :=
      plain_append (plain_append hrest (hzeros _)) (by decide +kernel)
    simpa using Unsigned.plain hfirst htail
  · obtain ⟨n, hn⟩ : ∃ n, point.toNat = n + 1 := ⟨point.toNat - 1, by omega⟩
    have htail : Plain (rest.take n ++ '.' :: rest.drop n) := by
      refine plain_append ?_ (plain_cons (by decide +kernel) ?_)
      · exact fun c hc => hrest c (List.mem_of_mem_take hc)
      · exact fun c hc => hrest c (List.mem_of_mem_drop hc)
    simpa [hn] using Unsigned.plain hfirst htail

/-- Digits with an exponent begin with a digit. -/
theorem unsigned_scientific {layout : Layout} (hplus : layout.plus = []) {digits : List Char}
    (hdigits : ∀ c ∈ digits, c.isDigit = true) (hne : digits ≠ []) (power : Int) :
    Unsigned (layout.scientific digits power) := by
  obtain ⟨first, mantissa, hfirst, hmantissa, htext⟩ : ∃ first mantissa,
      first.isDigit = true ∧ Plain mantissa ∧
        layout.scientific digits power = first :: mantissa ++ 'e' :: writeInt power := by
    have hpower : (if 0 ≤ power then layout.plus else []) = [] := by simp [hplus]
    obtain ⟨first, rest, rfl⟩ := List.exists_cons_of_ne_nil hne
    have hfirst : first.isDigit = true := hdigits first List.mem_cons_self
    have hrest : Plain rest :=
      plain_of_isDigit fun c hc => hdigits c (List.mem_cons_of_mem first hc)
    cases rest with
    | nil => exact ⟨first, [], hfirst, hrest, by simp [scientific, hpower]⟩
    | cons second rest =>
      refine ⟨first, '.' :: second :: rest, hfirst, plain_cons (by decide +kernel) hrest, ?_⟩
      simp [scientific, hpower]
  have hexponent := plain_of_isDigit (isDigit_toDigits (n := power.natAbs))
  rw [htext]
  unfold writeInt
  split
  · exact .scaled hfirst hmantissa hexponent
  · exact .plain hfirst (plain_append hmantissa (plain_cons (by decide +kernel) hexponent))

/-- A decimal that is not zero is written as digits with a point or an exponent. -/
theorem unsigned_decimal {layout : Layout} (hplus : layout.plus = []) {d : Decimal}
    (hd : d.digits ≠ 0) : Unsigned (layout.decimal d) := by
  obtain ⟨hdigits, hne⟩ := digits_spec hd
  unfold decimal
  dsimp only
  split
  · exact unsigned_plain hdigits hne _
  · exact unsigned_scientific hplus hdigits hne _

end Layout

/-- Every number is written as an optional sign and a numeral, infinities and
    not-a-numbers as words. -/
theorem Binary64.numeral_write (x : Binary64) : Numeral (x.write Value.numberLayout) := by
  have hsign : (if x.negative then ['-'] else []) = [] ∨
      (if x.negative then ['-'] else []) = ['-'] := by
    cases x.negative <;> simp
  unfold Binary64.write
  dsimp only
  split
  · exact ⟨[], _, rfl, .inl rfl, .nan⟩
  split
  · exact ⟨_, _, rfl, hsign, .infinite⟩
  split
  · have hzero : Unsigned ['0', '.', '0'] := .plain (by decide) (by decide +kernel)
    exact ⟨_, _, rfl, hsign, hzero⟩
  · rename_i hx
    exact ⟨_, _, rfl, hsign, Layout.unsigned_decimal rfl (digits_shortest_ne_zero _ hx)⟩

end FindSelect
