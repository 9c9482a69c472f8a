/-!
# Decimal numbers

A decimal is a coefficient and a power of ten. `Decimal.positional` writes it without an exponent and
`Decimal.scientific` with one digit before the point.
-/

namespace DocWeave

/-- The number `coefficient · 10 ^ exponent`. -/
structure Decimal where
  coefficient : Nat
  exponent : Int
deriving Repr, DecidableEq

namespace Decimal

/-- The digits of the coefficient. -/
def digits (d : Decimal) : List Char := Nat.toDigits 10 d.coefficient

/-- How many digits stand before the point; not positive when the number is below one tenth. -/
def pointPlace (d : Decimal) : Int := d.digits.length + d.exponent

/-- Moves zeros at the end of the coefficient into the exponent, at most `fuel` of them. -/
def strip : (fuel : Nat) → Decimal → Decimal
  | 0, d => d
  | n + 1, d =>
    if d.coefficient ≠ 0 ∧ d.coefficient % 10 = 0 then
      strip n ⟨d.coefficient / 10, d.exponent + 1⟩
    else d

/-- The same number with no zero at the end of its coefficient. -/
def normalize (d : Decimal) : Decimal := strip d.digits.length d

/-- Digits and a point, without an exponent. A whole number gets `.0` when `keepPoint` asks for it. -/
def positional (d : Decimal) (keepPoint : Bool) : List Char :=
  let ds := d.digits
  if 0 ≤ d.exponent then
    ds ++ List.replicate d.exponent.toNat '0' ++ (if keepPoint then ['.', '0'] else [])
  else if 0 < d.pointPlace then
    ds.take d.pointPlace.toNat ++ '.' :: ds.drop d.pointPlace.toNat
  else
    ['0', '.'] ++ List.replicate (-d.pointPlace).toNat '0' ++ ds

/-- One digit, the point and the other digits if there are any, and the exponent. `plus` is written
before an exponent that is not negative. -/
def scientific (d : Decimal) (plus : List Char) : List Char :=
  let front := match d.digits with
    | [] => []
    | [c] => [c]
    | c :: cs => c :: '.' :: cs
  let e := d.pointPlace - 1
  front ++ 'e' :: (if e < 0 then '-' :: Nat.toDigits 10 e.natAbs else plus ++ Nat.toDigits 10 e.natAbs)

end Decimal

end DocWeave
