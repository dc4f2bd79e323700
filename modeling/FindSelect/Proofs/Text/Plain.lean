import Mathlib.Tactic.Common
import FindSelect.Document.Piece

namespace FindSelect.Text

/-- The characters of plain names: letters, numbers and `_`, `$`, `.`. -/
def isPlain (c : Char) : Bool := isAlphanumeric c || c == '_' || c == '$' || c == '.'

/-- A text of letters, numbers and `_`, `$`, `.` only. -/
def Plain (text : List Char) : Prop := ∀ c ∈ text, isPlain c = true

instance (text : List Char) : Decidable (Plain text) :=
  decidable_of_iff (text.all isPlain = true) List.all_eq_true

/-- A plain name is written as it is. -/
theorem identifier_of_plain {name : List Char} (h : Plain name) :
    identifier name = String.ofList name :=
  if_pos (List.all_eq_true.2 h)

/-- Any other name is written between double quotes, with those in it doubled. -/
theorem identifier_of_not_plain {name : List Char} (h : ¬ Plain name) :
    identifier name = String.ofList (quotedWith '"' name) :=
  if_neg fun hall => h (List.all_eq_true.1 hall)

/-- The codes of the blanks. -/
private def blankCodes : List Nat :=
  [0x9, 0xa, 0xb, 0xc, 0xd, 0x20, 0x85, 0xa0, 0x1680, 0x2000, 0x2001, 0x2002, 0x2003, 0x2004,
   0x2005, 0x2006, 0x2007, 0x2008, 0x2009, 0x200a, 0x2028, 0x2029, 0x202f, 0x205f, 0x3000]

/-- The codes in the list are all that a blank can have. -/
private theorem mem_blankCodes {c : Char} (h : isBlank c = true) : c.toNat ∈ blankCodes := by
  simp only [isBlank, Bool.or_eq_true, Bool.and_eq_true, decide_eq_true_eq, beq_iff_eq] at h
  simp only [blankCodes, List.mem_cons, List.not_mem_nil, or_false]
  omega

/-- No range of letters and numbers holds a blank. -/
private theorem blankCodes_not_alphanumeric :
    ∀ n ∈ blankCodes,
      (alphanumericRanges.any fun (first, last) => first ≤ n && n ≤ last) = false := by
  decide +kernel

/-- There is no white space in plain names. -/
theorem isBlank_eq_false_of_isPlain {c : Char} (h : isPlain c = true) : isBlank c = false := by
  by_contra hblank
  have hblank : isBlank c = true := by simpa using hblank
  have hnot : isAlphanumeric c = false := blankCodes_not_alphanumeric _ (mem_blankCodes hblank)
  simp only [isPlain, hnot, Bool.false_or, Bool.or_eq_true, beq_iff_eq] at h
  rcases h with (rfl | rfl) | rfl <;> revert hblank <;> decide

theorem toNat_of_isDigit {c : Char} (h : c.isDigit = true) : 0x30 ≤ c.toNat ∧ c.toNat ≤ 0x39 := by
  simp only [Char.isDigit, Bool.and_eq_true, decide_eq_true_eq, ge_iff_le,
    UInt32.le_iff_toNat_le] at h
  exact h

/-- Numbers are written in plain characters. -/
theorem isPlain_of_isDigit {c : Char} (h : c.isDigit = true) : isPlain c = true := by
  have hrange := toNat_of_isDigit h
  have halpha : isAlphanumeric c = true := by
    rw [isAlphanumeric, List.any_eq_true]
    exact ⟨(0x30, 0x39), List.mem_cons_self, by simp [hrange]⟩
  simp [isPlain, halpha]

/-- A plain character is none of those that are not plain. -/
theorem ne_of_isPlain {c d : Char} (h : isPlain c = true) (hd : isPlain d = false) : c ≠ d := by
  rintro rfl
  rw [h] at hd
  contradiction

theorem ne_quote_cons_of_plain {name : List Char} (h : Plain name) (rest : List Char) :
    name ≠ '"' :: rest := by
  rintro rfl
  exact absurd (h '"' List.mem_cons_self) (by decide +kernel)

end FindSelect.Text
