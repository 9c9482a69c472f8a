import DocWeave.Decimal.Basic

/-!
# Reading decimal text

A number is an optional sign, digits with at most one point among or beside them (at least one digit
in all), and an optional exponent. Beside it the words for infinity and for "not a number" are read,
in any mix of cases.
-/

namespace DocWeave.Decimal

/-- The number that a list of ASCII digits spells. -/
def ofDigits (ds : List Char) : Nat :=
  ds.foldl (fun n c => 10 * n + (c.toNat - '0'.toNat)) 0

/-- The double nearest to `whole.fraction · 10 ^ exponent`. -/
def toFloat (whole fraction : List Char) (exponent : Int) : Float :=
  let e := exponent - Int.ofNat fraction.length
  let m := ofDigits (whole ++ fraction)
  if 0 ≤ e then Float.ofScientific m false e.toNat else Float.ofScientific m true (-e).toNat

/-- A sign and what follows it. -/
def takeSign : List Char → Bool × List Char
  | '-' :: s => (true, s)
  | '+' :: s => (false, s)
  | s => (false, s)

/-- An exponent mark, an optional sign and at least one digit, up to the end of the text. -/
def readExponent? : List Char → Option Int
  | [] => some 0
  | c :: s =>
    if c == 'e' || c == 'E' then
      let (negative, ds) := takeSign s
      if ds.isEmpty || !ds.all Char.isDigit then none
      else some (if negative then -Int.ofNat (ofDigits ds) else Int.ofNat (ofDigits ds))
    else none

/-- An exponent so large or small that nothing depends on its exact size is cut down. -/
def clampExponent (e : Int) : Int := max (-100000) (min 100000 e)

/-- Reads a number without its sign. -/
def readUnsigned? (s : List Char) : Option Float :=
  let word := s.map Char.toLower
  if word == "inf".toList || word == "infinity".toList then some (1.0 / 0.0)
  else if word == "nan".toList then some (0.0 / 0.0)
  else
    let whole := s.takeWhile Char.isDigit
    let rest := s.dropWhile Char.isDigit
    let (fraction, rest) := match rest with
      | '.' :: t => (t.takeWhile Char.isDigit, t.dropWhile Char.isDigit)
      | _ => ([], rest)
    if whole.isEmpty && fraction.isEmpty then none
    else (readExponent? rest).map fun e => toFloat whole fraction (clampExponent e)

/-- Reads a number. -/
def readFloat? (s : List Char) : Option Float :=
  let (negative, rest) := takeSign s
  (readUnsigned? rest).map fun x => if negative then -x else x

end DocWeave.Decimal
