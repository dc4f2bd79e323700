import FindSelect.Decimal.Numeral

namespace FindSelect

/-- A binary floating-point number of 64 bits. `magnitude` is the exponent field
    and the fraction field read as one number, so that the nonnegative numbers
    stand in their numeric order, infinity after all of them, and the
    not-a-numbers after infinity. -/
structure Binary64 where
  negative : Bool
  magnitude : BitVec 63
  deriving DecidableEq, Repr

namespace Binary64

/-- The magnitude of infinity. -/
def infinite : Nat := 2047 * Nat.pow 2 52

/-- The integer `m` of the number `m · 2 ^ q` with the given finite magnitude. -/
def significandOf (magnitude : Nat) : Nat :=
  if magnitude < Nat.pow 2 52 then magnitude else Nat.pow 2 52 + magnitude % Nat.pow 2 52

/-- The exponent `q` of the number `m · 2 ^ q` with the given finite magnitude.
    Numbers without a leading bit share the exponent of the least ones that have
    it. -/
def exponentOf (magnitude : Nat) : Int := (max (magnitude / Nat.pow 2 52) 1 : Nat) - 1075

def isFinite (x : Binary64) : Bool := x.magnitude.toNat < infinite

def isNaN (x : Binary64) : Bool := infinite < x.magnitude.toNat

/-- Equality of numbers: a not-a-number equals nothing, and the two zeros are
    equal. -/
def equal (x y : Binary64) : Bool :=
  !x.isNaN && x.magnitude == y.magnitude && (x.negative == y.negative || x.magnitude.toNat == 0)

def significand (x : Binary64) : Nat := significandOf x.magnitude.toNat

def exponent (x : Binary64) : Int := exponentOf x.magnitude.toNat

/-- Whether `num / den` is rounded to a finite magnitude or to one below it. The
    boundary lies halfway to the next magnitude, and belongs to the even one of
    the two. -/
def roundsWithin (num den magnitude : Nat) : Bool :=
  let m := 2 * significandOf magnitude + 1
  let q := exponentOf magnitude - 1
  let value := num * Nat.pow 2 (-q).toNat
  let boundary := m * Nat.pow 2 q.toNat * den
  if magnitude % 2 = 0 then value ≤ boundary else value < boundary

/-- The least number from `low` on that satisfies `p`, if there is one below
    `low + 2 ^ bits` and `p` holds from there on; found by bisection. -/
def leastFrom (p : Nat → Bool) : (bits low : Nat) → Nat
  | 0, low => if p low then low else low + 1
  | bits + 1, low =>
    let middle := low + Nat.pow 2 bits
    if p (middle - 1) then leastFrom p bits low else leastFrom p bits middle

/-- The magnitude nearest to `num / den`, infinity if that is beyond the largest
    finite one. -/
def nearest (num den : Nat) : Nat :=
  leastFrom (fun magnitude => infinite ≤ magnitude || roundsWithin num den magnitude) 63 0

/-- The magnitude nearest to a decimal number. A number of at least `10 ^ 309`
    is infinite, and one below `2 ^ (-1076)` is zero, whatever its digits are, so
    an extreme exponent costs nothing. -/
def magnitudeOf (d : Decimal) : Nat :=
  if d.digits = 0 then 0
  else if 309 ≤ d.exponent then infinite
  else if d.digits.log2 + 1077 ≤ 3 * -d.exponent then 0
  else nearest (d.digits * Nat.pow 10 d.exponent.toNat) (Nat.pow 10 (-d.exponent).toNat)

/-- The number nearest to a signed decimal number, with ties to even. -/
def ofDecimal (negative : Bool) (d : Decimal) : Binary64 := ⟨negative, .ofNat 63 (magnitudeOf d)⟩

/-- Reads a signed decimal numeral, or one of the words for infinity and
    not-a-number in any case. -/
def read? (text : List Char) : Option Binary64 :=
  let (negative, unsigned) := splitSign text
  let word := unsigned.map Char.toLower
  if word = "inf".toList ∨ word = "infinity".toList then some ⟨negative, .ofNat 63 infinite⟩
  else if word = "nan".toList then some ⟨negative, .ofNat 63 (infinite + Nat.pow 2 51)⟩
  else (Decimal.read? unsigned).map (ofDecimal negative)

end Binary64
end FindSelect
