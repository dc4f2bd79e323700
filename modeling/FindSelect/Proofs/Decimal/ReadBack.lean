import FindSelect.Proofs.Decimal.Rounding
import FindSelect.Proofs.Decimal.Syntax
import FindSelect.Proofs.Decimal.Written
import FindSelect.Proofs.Document.Scalar

namespace FindSelect

open Text

theorem writeInt_eq (n : Int) :
    writeInt n = (if decide (n < 0) then ['-'] else []) ++ Nat.toDigits 10 n.natAbs := by
  unfold writeInt
  split <;> simp [*]

/-- What is written for an integer is one of its texts. -/
theorem integerText_writeInt (n : Int) : IntegerText n (writeInt n) := by
  have htext := IntegerText.mk (signText_minus (decide (n < 0)))
    (Nat.toDigits_ne_nil (b := 10) (n := n.natAbs)) isDigit_toDigits
  have hvalue : (if decide (n < 0) then -(n.natAbs : Int) else n.natAbs) = n := by
    split <;> simp only [decide_eq_true_eq] at * <;> omega
  rw [← writeInt_eq, Nat.ofDigitChars_ten_toDigits, hvalue] at htext
  exact htext

theorem int64_range : Int64.minValue.toInt = -2 ^ 63 ∧ Int64.maxValue.toInt = 2 ^ 63 - 1 := by
  decide

/-- An integer of 64 bits is the exact value of its digits. -/
theorem readInt64?_eq_some_iff {token : List Char} {n : Int64} :
    readInt64? token = some n ↔ IntegerText n.toInt token := by
  constructor
  · intro h
    obtain ⟨m, hm, h⟩ := Option.bind_eq_some_iff.1 h
    split at h
    · rename_i hrange
      obtain rfl := Option.some.inj h
      rw [int64_range.1, int64_range.2] at hrange
      rw [Int64.toInt_ofInt_of_le hrange.1 (Int.lt_of_le_sub_one hrange.2)]
      exact readInt?_eq_some_iff.1 hm
    · contradiction
  · intro h
    rw [readInt64?, readInt?_eq_some_iff.2 h, Option.bind_some,
      if_pos ⟨n.minValue_le_toInt, n.toInt_le⟩, Int64.ofInt_toInt]

/-- A token is no integer if it has no value or one out of range. -/
theorem readInt64?_eq_none_iff {token : List Char} :
    readInt64? token = none ↔ ∀ n, IntegerText n token → n < -2 ^ 63 ∨ 2 ^ 63 - 1 < n := by
  constructor
  · intro h n hn
    rw [readInt64?, readInt?_eq_some_iff.2 hn, Option.bind_some] at h
    split at h
    · contradiction
    · rename_i hrange
      rw [int64_range.1, int64_range.2] at hrange
      omega
  · intro h
    cases hread : readInt64? token with
    | none => rfl
    | some n =>
      have hlow := n.le_toInt
      have hhigh := n.toInt_lt
      have hlarge := h n.toInt (readInt64?_eq_some_iff.1 hread)
      omega

theorem readInt64?_writeInt (n : Int64) : readInt64? (writeInt n.toInt) = some n :=
  readInt64?_eq_some_iff.2 (integerText_writeInt n.toInt)

/-- The texts of numbers that are told from integers by a point or an exponent, each with the
    value that it has. -/
inductive FractionText : List Char → ℚ → Prop where
  | point {whole fraction : List Char} (hne : whole ≠ [])
      (hwhole : ∀ c ∈ whole, c.isDigit = true) (hfraction : ∀ c ∈ fraction, c.isDigit = true) :
      FractionText (whole ++ '.' :: fraction)
        (Nat.ofDigitChars 10 (whole ++ fraction) 0 * 10 ^ (-fraction.length : ℤ))
  | exponent {whole : List Char} (hne : whole ≠ []) (hwhole : ∀ c ∈ whole, c.isDigit = true)
      (power : ℤ) :
      FractionText (whole ++ 'e' :: writeInt power) (Nat.ofDigitChars 10 whole 0 * 10 ^ power)
  | both {whole fraction : List Char} (hne : whole ≠ [])
      (hwhole : ∀ c ∈ whole, c.isDigit = true) (hfraction : ∀ c ∈ fraction, c.isDigit = true)
      (power : ℤ) :
      FractionText (whole ++ '.' :: (fraction ++ 'e' :: writeInt power))
        (Nat.ofDigitChars 10 (whole ++ fraction) 0 * 10 ^ (power - fraction.length : ℤ))

namespace FractionText

variable {text : List Char} {value : ℚ}

theorem exists_unsignedText (h : FractionText text value) :
    ∃ d, UnsignedText d text ∧ d.value = value := by
  cases h with
  | point hne hwhole hfraction =>
    have htext := UnsignedText.mk (.point (.inl hne) hwhole hfraction) .none
    rw [List.append_nil] at htext
    exact ⟨_, htext, by simp [Decimal.value]⟩
  | exponent hne hwhole power =>
    have htext := UnsignedText.mk (.whole hne hwhole)
      (.some (.inl rfl) (integerText_writeInt power))
    exact ⟨_, htext, by simp [Decimal.value]⟩
  | both hne hwhole hfraction power =>
    have htext := UnsignedText.mk (.point (.inl hne) hwhole hfraction)
      (.some (.inl rfl) (integerText_writeInt power))
    rw [List.append_assoc, List.cons_append] at htext
    exact ⟨_, htext, rfl⟩

theorem starts (h : FractionText text value) :
    ∃ first rest, text = first :: rest ∧ first.isDigit = true := by
  have hcons {whole rest : List Char} (hne : whole ≠ []) (hwhole : ∀ c ∈ whole, c.isDigit = true) :
      ∃ first more, whole ++ rest = first :: more ∧ first.isDigit = true := by
    obtain ⟨first, more, rfl⟩ := List.exists_cons_of_ne_nil hne
    exact ⟨first, more ++ rest, rfl, hwhole first List.mem_cons_self⟩
  cases h with
  | point hne hwhole => exact hcons hne hwhole
  | exponent hne hwhole => exact hcons hne hwhole
  | both hne hwhole => exact hcons hne hwhole

/-- The point or the exponent keeps the text from being an integer. -/
theorem all_isDigit_eq_false (h : FractionText text value) : text.all Char.isDigit = false := by
  cases h <;> simp

end FractionText

namespace Layout

/-- Final zeros are split from digits. -/
theorem exists_zeros (digits : List Char) :
    ∃ n, digits = (digits.reverse.dropWhile (· == '0')).reverse ++ List.replicate n '0' := by
  have hzeros : ∀ c ∈ digits.reverse.takeWhile (· == '0'), c = '0' := by
    intro c hc
    simpa using List.mem_takeWhile_imp hc
  have hsplit := List.takeWhile_append_dropWhile (p := (· == '0')) (l := digits.reverse)
  refine ⟨(digits.reverse.takeWhile (· == '0')).length, ?_⟩
  rw [← List.reverse_replicate, ← List.eq_replicate_of_mem hzeros, ← List.reverse_append, hsplit,
    List.reverse_reverse]

section Digits

variable {digits : List Char} (hdigits : ∀ c ∈ digits, c.isDigit = true) (hne : digits ≠ [])

include hdigits hne

/-- Digits with a point among them have the value of the digits, moved by the point. -/
theorem fractionText_plain (point : ℤ) :
    FractionText (plain digits point)
      (Nat.ofDigitChars 10 digits 0 * 10 ^ (point - digits.length)) := by
  have hzeros (n : Nat) : ∀ c ∈ List.replicate n '0', c.isDigit = true := by
    intro c hc
    rw [List.eq_of_mem_replicate hc]
    rfl
  -- The point stands before all digits, after all of them, or between two.
  unfold plain
  split
  · rename_i hpoint
    have hfraction : ∀ c ∈ List.replicate (-point).toNat '0' ++ digits, c.isDigit = true := by
      intro c hc
      exact (List.mem_append.1 hc).elim (hzeros _ c) (hdigits c)
    have htext := @FractionText.point ['0'] _ (by simp) (by simp) hfraction
    have hvalue : Nat.ofDigitChars 10 (['0'] ++ (List.replicate (-point).toNat '0' ++ digits)) 0 =
        Nat.ofDigitChars 10 digits 0 := by
      rw [Nat.ofDigitChars_append, Nat.ofDigitChars_append, Nat.ofDigitChars_replicate_zero]
      rfl
    have hpower : (-(List.replicate (-point).toNat '0' ++ digits).length : ℤ) =
        point - digits.length := by
      simp
      omega
    rw [hvalue, hpower] at htext
    simpa using htext
  split
  · rename_i hpoint hlong
    have hwhole : ∀ c ∈ digits ++ List.replicate (point.toNat - digits.length) '0',
        c.isDigit = true := by
      intro c hc
      exact (List.mem_append.1 hc).elim (hdigits c) (hzeros _ c)
    have htext := @FractionText.point _ ['0'] (by simp [hne]) hwhole (by simp)
    have hvalue : Nat.ofDigitChars 10
        (digits ++ List.replicate (point.toNat - digits.length) '0' ++ ['0']) 0 =
          10 * (10 ^ (point.toNat - digits.length) * Nat.ofDigitChars 10 digits 0) := by
      rw [Nat.ofDigitChars_append, Nat.ofDigitChars_append, Nat.ofDigitChars_replicate_zero]
      rfl
    have hpower : point - digits.length = (point.toNat - digits.length : ℕ) := by omega
    have hscale :
        ((10 * (10 ^ (point.toNat - digits.length) * Nat.ofDigitChars 10 digits 0) : ℕ) : ℚ) *
            10 ^ (-(['0'].length : ℤ)) =
          Nat.ofDigitChars 10 digits 0 * 10 ^ (point - digits.length : ℤ) := by
      rw [hpower, zpow_natCast]
      push_cast
      rw [List.length_singleton, Nat.cast_one, zpow_neg_one]
      ring
    rw [hvalue, hscale] at htext
    exact htext
  · rename_i hpoint hshort
    have htake : ∀ c ∈ digits.take point.toNat, c.isDigit = true :=
      fun c hc => hdigits c (List.mem_of_mem_take hc)
    have hdrop : ∀ c ∈ digits.drop point.toNat, c.isDigit = true :=
      fun c hc => hdigits c (List.mem_of_mem_drop hc)
    have htext := FractionText.point (by simp [hne]; omega) htake hdrop
    have hpower : (-(digits.drop point.toNat).length : ℤ) = point - digits.length := by
      rw [List.length_drop]
      omega
    rw [List.take_append_drop, hpower] at htext
    exact htext

/-- Digits with an exponent have the value of the digits, moved by the exponent. -/
theorem fractionText_scientific {layout : Layout} (hplus : layout.plus = []) (power : ℤ) :
    FractionText (layout.scientific digits power)
      (Nat.ofDigitChars 10 digits 0 * 10 ^ (power + 1 - digits.length)) := by
  have hnone : (if 0 ≤ power then layout.plus else []) = [] := by simp [hplus]
  obtain ⟨first, rest, rfl⟩ := List.exists_cons_of_ne_nil hne
  have hfirst : ∀ c ∈ [first], c.isDigit = true := by simpa using hdigits first List.mem_cons_self
  cases rest with
  | nil =>
    have htext := FractionText.exponent (by simp) hfirst power
    simpa [scientific, hnone] using htext
  | cons second rest =>
    have hrest : ∀ c ∈ second :: rest, c.isDigit = true :=
      fun c hc => hdigits c (List.mem_cons_of_mem first hc)
    have htext := FractionText.both (by simp) hfirst hrest power
    have hpower :
        power - (second :: rest).length = power + 1 - (first :: second :: rest).length := by
      simp
    rw [hpower] at htext
    simpa [scientific, hnone] using htext

end Digits

/-- A decimal that is written out has its value. -/
theorem fractionText_decimal {layout : Layout} (hplus : layout.plus = []) {d : Decimal}
    (hd : d.digits ≠ 0) : FractionText (layout.decimal d) d.value := by
  obtain ⟨hdigits, hne⟩ := digits_spec hd
  obtain ⟨n, hzeros⟩ := exists_zeros (Nat.toDigits 10 d.digits)
  unfold decimal
  dsimp only at hdigits hne ⊢
  generalize ((Nat.toDigits 10 d.digits).reverse.dropWhile (· == '0')).reverse = digits at *
  have hlength : (Nat.toDigits 10 d.digits).length = digits.length + n := by
    rw [hzeros, List.length_append, List.length_replicate]
  have hvalue : d.value =
      Nat.ofDigitChars 10 digits 0 * 10 ^ (digits.length + n + d.exponent - digits.length : ℤ) := by
    have hall : d.digits = 10 ^ n * Nat.ofDigitChars 10 digits 0 := by
      rw [← Nat.ofDigitChars_replicate_zero, ← Nat.ofDigitChars_append, ← hzeros,
        Nat.ofDigitChars_ten_toDigits]
    have hpower : (digits.length + n + d.exponent - digits.length : ℤ) = n + d.exponent := by omega
    rw [Decimal.value, hpower, zpow_add₀ (by norm_num), zpow_natCast]
    conv_lhs => rw [hall]
    push_cast
    ring
  rw [hlength, hvalue, Nat.cast_add]
  split
  · exact fractionText_plain hdigits hne _
  · have htext := fractionText_scientific hdigits hne hplus (digits.length + n + d.exponent - 1)
    rw [sub_add_cancel] at htext
    exact htext

end Layout

namespace Binary64

/-- A finite number is written as its sign and a numeral that is rounded to it. -/
theorem exists_write {layout : Layout} (hplus : layout.plus = []) {x : Binary64}
    (hx : x.isFinite = true) :
    ∃ body d, x.write layout = (if x.negative then ['-'] else []) ++ body ∧
      FractionText body d.value ∧ magnitudeOf d = x.magnitude.toNat := by
  have hfinite : x.magnitude.toNat < infinite := by simpa [isFinite] using hx
  have hnan : x.isNaN = false := by simp [isNaN]; omega
  unfold write
  rw [hnan, hx]
  by_cases hzero : x.magnitude.toNat = 0
  · have htext : FractionText ['0', '.', '0'] (⟨0, 0⟩ : Decimal).value := by
      have hpoint := @FractionText.point ['0'] ['0'] (by simp) (by simp) (by simp)
      have hdigits : Nat.ofDigitChars 10 (['0'] ++ ['0']) 0 = 0 := rfl
      rw [hdigits, Nat.cast_zero, zero_mul] at hpoint
      simpa [Decimal.value] using hpoint
    exact ⟨_, ⟨0, 0⟩, by simp [hzero], htext, by simp [magnitudeOf, hzero]⟩
  · refine ⟨layout.decimal (x.shortest layout.tie), x.shortest layout.tie, by simp [hzero], ?_,
      magnitudeOf_shortest _ hx⟩
    exact Layout.fractionText_decimal hplus (digits_shortest_ne_zero _ hzero)

/-- A finite number is read from its text. -/
theorem read?_write {layout : Layout} (hplus : layout.plus = []) {x : Binary64}
    (hx : x.isFinite = true) : read? (x.write layout) = some x := by
  obtain ⟨body, d, hwrite, hbody, hmagnitude⟩ := exists_write hplus hx
  obtain ⟨d', htext, hvalue⟩ := hbody.exists_unsignedText
  rw [hwrite, read?_of_decimalText (.mk (signText_minus x.negative) htext), ofDecimal,
    magnitudeOf_congr hvalue, hmagnitude, BitVec.ofNat_toNat, BitVec.setWidth_eq]

/-- The text of a finite number is no integer. -/
theorem readInt64?_write {layout : Layout} (hplus : layout.plus = []) {x : Binary64}
    (hx : x.isFinite = true) : readInt64? (x.write layout) = none := by
  obtain ⟨body, d, hwrite, hbody, -⟩ := exists_write hplus hx
  obtain ⟨first, rest, rfl, hfirst⟩ := hbody.starts
  obtain ⟨hplus, hminus⟩ := ne_sign_of_isDigit hfirst
  rw [hwrite, readInt64?, readInt?, (signText_minus x.negative).splitSign hplus hminus]
  simp only [hbody.all_isDigit_eq_false, Bool.false_eq_true, and_false, if_false, Option.bind_none]

end Binary64

theorem isTokenChar_of_numeral {text : List Char} (h : Numeral text) :
    ∀ c ∈ text, isTokenChar c = true := by
  obtain ⟨sign, body, rfl, hsign, hbody⟩ := h
  have hplain {text : List Char} (h : Plain text) : ∀ c ∈ text, isTokenChar c = true :=
    fun c hc => isTokenChar_of_isPlain (h c hc)
  rw [List.forall_mem_append]
  constructor
  · rcases hsign with rfl | rfl
    · simp
    · exact List.all_eq_true.1 (by decide +kernel)
  · cases hbody with
    | nan => exact hplain (by decide +kernel)
    | infinite => exact hplain (by decide +kernel)
    | plain hfirst hrest => exact hplain (plain_cons (isPlain_of_isDigit hfirst) hrest)
    | scaled hfirst hmantissa hdigits =>
      rw [List.forall_mem_append]
      refine ⟨hplain (plain_cons (isPlain_of_isDigit hfirst) hmantissa), ?_⟩
      rw [List.forall_mem_cons, List.forall_mem_cons]
      exact ⟨by decide +kernel, by decide +kernel, hplain hdigits⟩

theorem Numeral.isBlank_eq_false {text : List Char} (h : Numeral text) :
    ∀ c ∈ text, isBlank c = false := by
  intro c hc
  obtain ⟨hseparator, -⟩ := isTokenChar_spec (isTokenChar_of_numeral h c hc)
  rw [isSeparator, Bool.or_eq_false_iff] at hseparator
  exact hseparator.1

/-- The words of scalars are no numbers, so an integer is known by its text. -/
theorem readScalar_of_readInt64? {text : List Char} {n : Int64} (htrim : trim text = text)
    (h : readInt64? text = some n) : readScalar text = .ok (.integer n) := by
  have hword (word : String) (hnone : readInt64? word.toList = none) : text ≠ word.toList := by
    rintro rfl
    rw [h] at hnone
    contradiction
  unfold readScalar
  simp only [htrim, if_neg (hword "null" rfl), if_neg (hword "true" rfl),
    if_neg (hword "false" rfl), h]

theorem readScalar_of_read? {text : List Char} {x : Binary64} (htrim : trim text = text)
    (hint : readInt64? text = none) (h : Binary64.read? text = some x)
    (hx : x.isFinite = true) : readScalar text = .ok (.float x) := by
  have hword (word : String) (hnone : Binary64.read? word.toList = none) :
      text ≠ word.toList := by
    rintro rfl
    rw [h] at hnone
    contradiction
  unfold readScalar
  simp only [htrim, if_neg (hword "null" rfl), if_neg (hword "true" rfl),
    if_neg (hword "false" rfl), hint, h, hx, if_true]

/-- An integer is read back from its text. -/
theorem readScalar_writeInt (n : Int64) : readScalar (writeInt n.toInt) = .ok (.integer n) :=
  readScalar_of_readInt64? (trim_of_forall (numeral_writeInt n.toInt).isBlank_eq_false)
    (readInt64?_writeInt n)

/-- A finite number is read back from its text, and never as an integer. -/
theorem readScalar_write {x : Binary64} (hx : x.isFinite = true) :
    readScalar (x.write Value.numberLayout) = .ok (.float x) :=
  readScalar_of_read? (trim_of_forall x.numeral_write.isBlank_eq_false)
    (Binary64.readInt64?_write rfl hx) (Binary64.read?_write rfl hx) hx

end FindSelect
