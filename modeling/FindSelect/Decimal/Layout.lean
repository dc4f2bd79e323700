import FindSelect.Decimal.Shortest

namespace FindSelect

/-- How a number is written. In every layout a point has at least one digit on
    each side, and a single digit with an exponent has no point. -/
structure Layout where
  /-- The least power of ten that is still written without an exponent. -/
  leastPlain : Int
  /-- The least power of ten that is written with an exponent again. -/
  leastLarge : Int
  /-- What stands in front of a nonnegative exponent. -/
  plus : List Char
  /-- Which of two equally short and equally near decimals is written. -/
  tie : Tie

namespace Layout

/-- Writes digits with the point after the first `point` of them. -/
def plain (digits : List Char) (point : Int) : List Char :=
  if point ≤ 0 then "0.".toList ++ List.replicate (-point).toNat '0' ++ digits
  else if digits.length ≤ point then
    digits ++ List.replicate (point.toNat - digits.length) '0' ++ ".0".toList
  else digits.take point.toNat ++ '.' :: digits.drop point.toNat

/-- Writes digits with the point after the first one and a power of ten. -/
def scientific (layout : Layout) (digits : List Char) (power : Int) : List Char :=
  let mantissa := match digits with
    | first :: second :: rest => first :: '.' :: second :: rest
    | _ => digits
  mantissa ++ 'e' :: (if 0 ≤ power then layout.plus else []) ++ writeInt power

/-- Writes a nonzero decimal. Its final zeros only move the point, so they are
    dropped. -/
def decimal (layout : Layout) (d : Decimal) : List Char :=
  let all := Nat.toDigits 10 d.digits
  let digits := (all.reverse.dropWhile (· == '0')).reverse
  let point : Int := all.length + d.exponent
  if layout.leastPlain ≤ point - 1 ∧ point - 1 < layout.leastLarge then plain digits point
  else layout.scientific digits (point - 1)

end Layout

/-- The text of a number in a layout. -/
def Binary64.write (layout : Layout) (x : Binary64) : List Char :=
  let sign := if x.negative then ['-'] else []
  if x.isNaN then "NaN".toList
  else if !x.isFinite then sign ++ "inf".toList
  else if x.magnitude.toNat = 0 then sign ++ "0.0".toList
  else sign ++ layout.decimal (x.shortest layout.tie)

end FindSelect
