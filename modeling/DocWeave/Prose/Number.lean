import DocWeave.Decimal.Reading
import DocWeave.Inflection

/-!
# Numbers in prose

A number of at least three characters, digits with underscores between them, is written with its digits
in groups of three. Digits that belong to a word or stand behind a point are left alone, and so is a
number that does not fit into 128 bits.
-/

namespace DocWeave.Prose

open DocWeave.Text

/-- The text up to the last digit. -/
def throughLastDigit (s : List Char) : List Char :=
  (s.reverse.dropWhile fun c => !c.isDigit).reverse

/-- A number: a digit, then digits and underscores, at least two characters of which the last is a
digit. -/
def takeNumber? (s : List Char) : Option (List Char) :=
  match s with
  | c :: t =>
    if c.isDigit then
      let body := throughLastDigit (t.takeWhile fun d => d.isDigit || d == '_')
      if 2 ≤ body.length then some (c :: body) else none
    else none
  | [] => none

/-- The largest integer of 128 bits. -/
def largestNumber : Nat := Nat.pow 2 127 - 1

/-- A number in groups of three, unless it is glued to what stands before it or too large. -/
def readableNumber : Recogniser (List Char) := fun prev s =>
  (takeNumber? s).map fun number =>
    let glued := prev.any fun c => isAlphanumeric c || c == '_' || c == '.'
    let n := Decimal.ofDigits (number.filter (· != '_'))
    (number.length,
      if glued || largestNumber < n then number else Inflection.delimited (Int.ofNat n))

/-- `1_000` becomes `1,000`. -/
def readableNumbers (s : List Char) : List Char := substitute readableNumber none s

/-- A number with commas for its underscores. -/
def commaNumber : Recogniser (List Char) := fun _ s =>
  (takeNumber? s).map fun number => (number.length, replaceChar '_' ',' number)

end DocWeave.Prose
