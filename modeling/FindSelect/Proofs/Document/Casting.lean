import FindSelect.Proofs.Decimal.Nearest
import FindSelect.Proofs.Decimal.ReadBack
import FindSelect.Proofs.Document.Reader
import FindSelect.Sql.Literal

namespace FindSelect

open Text

/-- The tokens of scalars: three words, the integers of 64 bits, and the decimals that are no such
    integer and are nearest to a finite number, which keeps their sign. -/
inductive ScalarText : Value → List Char → Prop where
  | null : ScalarText .null "null".toList
  | true : ScalarText (.boolean true) "true".toList
  | false : ScalarText (.boolean false) "false".toList
  | integer {n : Int64} {token : List Char} (htoken : IntegerText n.toInt token) :
      ScalarText (.integer n) token
  | float {x : Binary64} {d : Decimal} {token : List Char} (htoken : DecimalText x.negative d token)
      (hlarge : ∀ n, IntegerText n token → n < -2 ^ 63 ∨ 2 ^ 63 - 1 < n)
      (hnearest : Binary64.IsNearest d.value x.magnitude.toNat) (hfinite : x.isFinite = true) :
      ScalarText (.float x) token

/-- The magnitude of a decimal fits into its 63 bits, since even the infinite one does. -/
theorem Binary64.toNat_magnitude_ofDecimal (negative : Bool) (d : Decimal) :
    (ofDecimal negative d).magnitude.toNat = magnitudeOf d := by
  have hinfinite : magnitudeOf d ≤ infinite := (magnitudeOf_eq_iff.1 rfl).le_infinite
  have hfits : infinite < 2 ^ 63 := by decide
  rw [ofDecimal, BitVec.toNat_ofNat, Nat.mod_eq_of_lt (hinfinite.trans_lt hfits)]

/-- A scalar is read exactly from its tokens, with white space around them. -/
theorem readScalar_eq_ok_iff {text : List Char} {value : Value} :
    readScalar text = .ok value ↔ ScalarText value (trim text) := by
  constructor
  · intro h
    have houtcome := scalarOutcome_readScalar text
    rw [h] at houtcome
    cases houtcome with
    | null htoken =>
      rw [htoken]
      exact .null
    | true htoken =>
      rw [htoken]
      exact .true
    | false htoken =>
      rw [htoken]
      exact .false
    | integer hinteger => exact .integer (readInt64?_eq_some_iff.1 hinteger)
    | float hinteger hread hfinite =>
      obtain ⟨negative, d, htoken, rfl⟩ := Binary64.decimalText_of_read? hread hfinite
      refine .float htoken (readInt64?_eq_none_iff.1 hinteger) ?_ hfinite
      rw [Binary64.toNat_magnitude_ofDecimal]
      exact Binary64.magnitudeOf_eq_iff.1 rfl
  · intro h
    have htrim := trim_trim text
    rw [← readScalar_trim]
    generalize trim text = token at h htrim ⊢
    cases h with
    | null => rfl
    | true => rfl
    | false => rfl
    | integer htoken => exact readScalar_of_readInt64? htrim (readInt64?_eq_some_iff.2 htoken)
    | @float x d _ htoken hlarge hnearest hfinite =>
      have hread : Binary64.read? token = some x := by
        rw [Binary64.read?_of_decimalText htoken, Binary64.ofDecimal,
          Binary64.magnitudeOf_eq_iff.2 hnearest, BitVec.ofNat_toNat, BitVec.setWidth_eq]
      exact readScalar_of_read? htrim (readInt64?_eq_none_iff.2 hlarge) hread hfinite

/-- A text is the scalar that its token is by the rules for tokens, and any other text is malformed,
    as the error says of the token. So the literal of an integer is that integer again. -/
theorem Value.parse_scalarText (text : String) :
    (∀ value, Value.parse text = .ok value ↔ ScalarText value (trim text.toList)) ∧
    (∀ e, Value.parse text = .error e ↔
      e = .malformedScalar (String.ofList (trim text.toList)) ∧
        ∀ value, ¬ ScalarText value (trim text.toList)) ∧
    ∀ n : Int64, Value.parse (Literal.integer n).render = .ok (.integer n) := by
  refine ⟨fun value => readScalar_eq_ok_iff, ?_, ?_⟩
  · intro e
    constructor
    · intro h
      refine ⟨eq_malformed_of_readScalar h, ?_⟩
      intro value hvalue
      have hok : Value.parse text = .ok value := readScalar_eq_ok_iff.2 hvalue
      rw [h] at hok
      contradiction
    · rintro ⟨rfl, hnone⟩
      cases hparse : Value.parse text with
      | ok value => exact absurd (readScalar_eq_ok_iff.1 hparse) (hnone value)
      | error e => rw [eq_malformed_of_readScalar hparse]
  · intro n
    rw [Value.parse, Literal.render, String.toList_ofList]
    exact readScalar_writeInt n

/-- The least integer of 64 bits has no counterpart without its sign. -/
example : Value.parse "-09223372036854775808" = .ok (.integer Int64.minValue) ∧
    Value.parse "9223372036854775808" = .ok (.float ⟨false, 0x43e0000000000000⟩) := by
  decide +kernel

end FindSelect
