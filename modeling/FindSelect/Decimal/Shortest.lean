import FindSelect.Decimal.Binary64

namespace FindSelect

/-- Which of two equally near decimals is taken. -/
inductive Tie where
  | up
  | toEven
  deriving DecidableEq, Repr

namespace Binary64

/-- The exact value of a finite number. A binary fraction ends in base ten, since
    `m / 2 ^ k = m · 5 ^ k / 10 ^ k`. -/
def expansion (x : Binary64) : Decimal :=
  if 0 ≤ x.exponent then ⟨x.significand * Nat.pow 2 x.exponent.toNat, 0⟩
  else ⟨x.significand * Nat.pow 5 (-x.exponent).toNat, x.exponent⟩

end Binary64

namespace Decimal

/-- The two neighbours of a number among the multiples of `10 ^ drop` of its last
    place, the nearer one first; the number itself if it is such a multiple. -/
def neighbours (tie : Tie) (d : Decimal) (drop : Nat) : List Decimal :=
  let unit := Nat.pow 10 drop
  let below : Decimal := ⟨d.digits / unit, d.exponent + drop⟩
  let above : Decimal := ⟨d.digits / unit + 1, d.exponent + drop⟩
  let remainder := d.digits % unit
  if remainder = 0 then [below]
  else if 2 * remainder < unit then [below, above]
  else if unit < 2 * remainder then [above, below]
  else match tie with
    | .up => [above, below]
    | .toEven => if below.digits % 2 = 0 then [below, above] else [above, below]

end Decimal

namespace Binary64

/-- A decimal that is read as `x`. -/
def readsBack (x : Binary64) (d : Decimal) : Bool := magnitudeOf d == x.magnitude.toNat

/-- The decimal with the fewest digits that is read as the finite number `x`, and
    of these the nearest. Where no decimal of up to seventeen digits is found, the
    exact value serves, so the result is always read as `x`. -/
def shortest (tie : Tie) (x : Binary64) : Decimal :=
  let exact := x.expansion
  let length := (Nat.toDigits 10 exact.digits).length
  let candidate (n : Nat) : Option Decimal :=
    (exact.neighbours tie (length - n)).find? x.readsBack
  ((List.range' 1 17).findSome? candidate).getD exact

end Binary64
end FindSelect
