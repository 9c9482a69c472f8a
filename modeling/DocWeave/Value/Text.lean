import DocWeave.Decimal.Shortest
import DocWeave.Inflection
import DocWeave.Text.Quoted
import DocWeave.Value.Basic

/-!
# Values as text

`display` is what a template inserts, `inspect` shows a value as it would be written in source, and
`present` is the form for readers: integers grouped in threes and strings in quotes.
-/

namespace DocWeave

open DocWeave.Text

/-- A double in text: a whole number has exactly one digit behind the point, every other number the
fewest digits that read back; there is never an exponent. -/
def displayBinary : Binary → List Char
  | .nan => "NaN".toList
  | .infinite negative => (if negative then "-inf" else "inf").toList
  | .finite negative m q =>
    let body :=
      if Binary.isWhole m q then Nat.toDigits 10 (Binary.wholePart m q) ++ ['.', '0']
      else (Decimal.shortest .up m q).positional true
    if negative then '-' :: body else body

/-- A double as a template inserts it. -/
def displayFloat (x : Float) : String := String.ofList (displayBinary (.ofFloat x))

/-- A key that is written in front of a colon without quotes. -/
def isLabel (key : String) : Bool :=
  match key.toList with
  | [] => false
  | c :: cs => (c.isAlpha || c == '_') && cs.all fun c => c.isAlphanum || c == '_'

namespace Value

mutual

/-- The value as it would be written in source. -/
def inspect : Value → String
  | .nil => "nil"
  | .bool b => if b then "true" else "false"
  | .int i => toString i.toInt
  | .float x => displayFloat x
  | .str s => quote s
  | .sym s => ":" ++ s
  | .code s => s
  | .array items => "[" ++ ", ".intercalate (inspectItems items) ++ "]"
  | .hash entries => "\x7b" ++ ", ".intercalate (inspectEntries entries) ++ "\x7d"

/-- The items as they would be written in source. -/
def inspectItems : List Value → List String
  | [] => []
  | v :: vs => inspect v :: inspectItems vs

/-- The entries as they would be written in source. -/
def inspectEntries : List (String × Value) → List String
  | [] => []
  | (k, v) :: rest =>
    (if isLabel k then k ++ ": " ++ inspect v else quote k ++ " => " ++ inspect v)
      :: inspectEntries rest

end

/-- The value as a template inserts it. -/
def display : Value → String
  | .nil => ""
  | .str s | .sym s | .code s => s
  | v => inspect v

/-- The value for readers. -/
def present : Value → String
  | .int i => Inflection.delimit i.toInt
  | .str s => quote s
  | v => display v

end Value

end DocWeave
