import DocWeave.Decimal.Reading
import DocWeave.Text.Search
import DocWeave.Toml.Item
import DocWeave.Value.Method

/-!
# Scalars of TOML

Readers for strings, numbers, truth values, dates and times. A reader takes a value off the front of a
text and returns what follows it; it returns nothing when the text does not begin with such a value.
-/

namespace DocWeave.Toml

open DocWeave.Text

/-- Takes a value off the front of a text. -/
abbrev Reader (α : Type) := List Char → Option (α × List Char)

/-- A blank inside a line. -/
def isGap (c : Char) : Bool := c == ' ' || c == '\t'

/-- A character that may stand in a comment and, apart from quotes and escapes, in a string. -/
def isPlain (c : Char) : Bool := c == '\t' || (' ' ≤ c && c != '\x7f')

/-- The text without a line end in front. -/
def dropLineEnd : List Char → List Char
  | '\n' :: s => s
  | '\r' :: '\n' :: s => s
  | s => s

/-- A character in front of what a reader has taken. -/
def prepend (c : Option Char) (taken : Option (List Char × List Char)) :
    Option (List Char × List Char) :=
  match c, taken with
  | some c, some (text, rest) => some (c :: text, rest)
  | _, _ => none

/-! ## Strings -/

/-- The value of a hexadecimal digit. -/
def hexDigit? (c : Char) : Option Nat :=
  if c.isDigit then some (c.toNat - '0'.toNat)
  else if 'a' ≤ c && c ≤ 'f' then some (c.toNat - 'a'.toNat + 10)
  else if 'A' ≤ c && c ≤ 'F' then some (c.toNat - 'A'.toNat + 10)
  else none

/-- The character of a code point in hexadecimal digits. -/
def charOfHex? (digits : List Char) : Option Char := do
  let values ← digits.mapM hexDigit?
  let n := values.foldl (fun n d => 16 * n + d) 0
  if n.isValidChar then some (Char.ofNat n) else none

/-- The character that an escape letter stands for. -/
def escaped? (c : Char) : Option Char :=
  match c with
  | 'b' => some '\x08'
  | 't' => some '\t'
  | 'n' => some '\n'
  | 'f' => some '\x0c'
  | 'r' => some '\r'
  | '"' => some '"'
  | '\\' => some '\\'
  | _ => none

/-- The rest of a string in double quotes on one line. -/
def basicText : Reader (List Char)
  | [] => none
  | '"' :: s => some ([], s)
  | '\\' :: 'u' :: a :: b :: c :: d :: s => prepend (charOfHex? [a, b, c, d]) (basicText s)
  | '\\' :: 'U' :: a :: b :: c :: d :: e :: f :: g :: h :: s =>
    prepend (charOfHex? [a, b, c, d, e, f, g, h]) (basicText s)
  | '\\' :: c :: s => prepend (escaped? c) (basicText s)
  | c :: s => if isPlain c then prepend (some c) (basicText s) else none

/-- The rest of a string in single quotes on one line. -/
def literalText : Reader (List Char)
  | [] => none
  | '\'' :: s => some ([], s)
  | c :: s => if isPlain c then prepend (some c) (literalText s) else none

/-- What follows three closing quotes: up to two more belong to the string. -/
def closeTriple (quote : Char) : List Char → List Char × List Char
  | a :: b :: s =>
    if a = quote then if b = quote then ([a, b], s) else ([a], b :: s) else ([], a :: b :: s)
  | [a] => if a = quote then ([a], []) else ([], [a])
  | [] => ([], [])

/-- Only blanks stand before the next line end. -/
def endsLine (s : List Char) : Bool :=
  match s.dropWhile isGap with
  | '\n' :: _ => true
  | '\r' :: '\n' :: _ => true
  | _ => false

/-- The rest of a string in three double quotes. A backslash at the end of a line takes all blanks and
line ends behind it away; `skip` says that this is going on. -/
def multilineText (skip : Bool) : Reader (List Char)
  | [] => none
  | '"' :: '"' :: '"' :: s => some (closeTriple '"' s)
  | '\\' :: 'u' :: a :: b :: c :: d :: s =>
    prepend (charOfHex? [a, b, c, d]) (multilineText false s)
  | '\\' :: 'U' :: a :: b :: c :: d :: e :: f :: g :: h :: s =>
    prepend (charOfHex? [a, b, c, d, e, f, g, h]) (multilineText false s)
  | '\\' :: c :: s =>
    if endsLine (c :: s) then multilineText true s
    else prepend (escaped? c) (multilineText false s)
  | '\r' :: '\n' :: s =>
    if skip then multilineText true s else prepend (some '\n') (multilineText false s)
  | c :: s =>
    if skip && (isGap c || c == '\n') then multilineText true s
    else if isPlain c || c == '\n' then prepend (some c) (multilineText false s)
    else none

/-- The rest of a string in three single quotes. -/
def multilineLiteral : Reader (List Char)
  | [] => none
  | '\'' :: '\'' :: '\'' :: s => some (closeTriple '\'' s)
  | '\r' :: '\n' :: s => prepend (some '\n') (multilineLiteral s)
  | c :: s => if isPlain c || c == '\n' then prepend (some c) (multilineLiteral s) else none

/-- A string on one line. -/
def lineString : Reader String
  | '"' :: s => (basicText s).map fun (text, rest) => (String.ofList text, rest)
  | '\'' :: s => (literalText s).map fun (text, rest) => (String.ofList text, rest)
  | _ => none

/-- A string. -/
def string : Reader String
  | '"' :: '"' :: '"' :: s =>
    (multilineText false (dropLineEnd s)).map fun (text, rest) => (String.ofList text, rest)
  | '\'' :: '\'' :: '\'' :: s =>
    (multilineLiteral (dropLineEnd s)).map fun (text, rest) => (String.ofList text, rest)
  | s => lineString s

/-! ## Numbers -/

/-- Digits with single underscores between them; the underscores are dropped. -/
def takeDigits (isDigit : Char → Bool) : List Char → List Char × List Char
  | [] => ([], [])
  | '_' :: d :: s =>
    if isDigit d then let (ds, rest) := takeDigits isDigit s; (d :: ds, rest) else ([], '_' :: d :: s)
  | c :: s =>
    if isDigit c then let (ds, rest) := takeDigits isDigit s; (c :: ds, rest) else ([], c :: s)

/-- At least one digit, with single underscores between them. -/
def digits? (isDigit : Char → Bool) (s : List Char) : Option (List Char × List Char) :=
  if s.head?.any isDigit then some (takeDigits isDigit s) else none

/-- The sign in front of a number. -/
def takeSign : List Char → List Char × List Char
  | '+' :: s => (['+'], s)
  | '-' :: s => (['-'], s)
  | s => ([], s)

/-- The digits of a whole number: a zero alone, or digits that begin with another one. -/
def wholeDigits? : Reader (List Char)
  | '0' :: s => some (['0'], s)
  | s => digits? Char.isDigit s

/-- An exponent, if there is one. -/
def exponent? (s : List Char) : Option (List Char × List Char) :=
  match s with
  | c :: t =>
    if c == 'e' || c == 'E' then
      let (sign, u) := takeSign t
      (digits? Char.isDigit u).map fun (ds, rest) => ('e' :: sign ++ ds, rest)
    else some ([], s)
  | [] => some ([], [])

/-- The part behind the point, if there is one. -/
def fraction? : Reader (List Char)
  | '.' :: s => (digits? Char.isDigit s).map fun (ds, rest) => ('.' :: ds, rest)
  | s => some ([], s)

/-- A whole number that fits into 64 bits. -/
def integerItem? (n : Int) : Option Item := (Value.fit? n).map .integer

/-- A decimal number. One too large for a double is refused. -/
def decimal? (s : List Char) : Option (Item × List Char) := do
  let (sign, s) := takeSign s
  let (whole, s) ← wholeDigits? s
  let (fraction, s) ← fraction? s
  let (exponent, s) ← exponent? s
  if fraction.isEmpty && exponent.isEmpty then
    let n := Int.ofNat (Decimal.ofDigits whole)
    return (← integerItem? (if sign == ['-'] then -n else n), s)
  else
    let x ← Decimal.readFloat? (sign ++ whole ++ fraction ++ exponent)
    if x.isInf && 0 < x then none else return (.float x, s)

/-- A whole number in another base. -/
def based? (base : Nat) (s : List Char) : Option (Item × List Char) := do
  let isDigit (c : Char) : Bool := (hexDigit? c).any (· < base)
  let (ds, rest) ← digits? isDigit s
  let n := (ds.filterMap hexDigit?).foldl (fun n d => base * n + d) 0
  return (← integerItem? n, rest)

/-- One of the words for infinity and "not a number", with an optional sign. -/
def special? (s : List Char) : Option (Item × List Char) :=
  let (sign, s) := takeSign s
  let signed (x : Float) : Item := .float (if sign == ['-'] then -x else x)
  match s with
  | 'i' :: 'n' :: 'f' :: rest => some (signed (1.0 / 0.0), rest)
  | 'n' :: 'a' :: 'n' :: rest => some (signed (0.0 / 0.0), rest)
  | _ => none

/-! ## Dates and times -/

/-- As many decimal digits as asked for, whose number lies between two bounds. -/
def digitsBetween? (count low high : Nat) (s : List Char) : Option (List Char × List Char) :=
  let ds := s.take count
  let n := Decimal.ofDigits ds
  if ds.length = count && ds.all Char.isDigit && low ≤ n && n ≤ high then some (ds, s.drop count)
  else none

/-- A given character. -/
def mark? (c : Char) : Reader Unit
  | d :: s => if c = d then some ((), s) else none
  | [] => none

/-- How many days a month has. -/
def daysIn (year month : Nat) : Nat :=
  if month = 2 then
    if year % 4 = 0 && (year % 100 != 0 || year % 400 = 0) then 29 else 28
  else if month = 4 || month = 6 || month = 9 || month = 11 then 30
  else 31

/-- A date. -/
def date? (s : List Char) : Option (List Char × List Char) := do
  let (year, s) ← digitsBetween? 4 0 9999 s
  let (_, s) ← mark? '-' s
  let (month, s) ← digitsBetween? 2 1 12 s
  let (_, s) ← mark? '-' s
  let last := daysIn (Decimal.ofDigits year) (Decimal.ofDigits month)
  let (day, s) ← digitsBetween? 2 1 last s
  return (year ++ '-' :: month ++ '-' :: day, s)

/-- The fraction of a second: nine digits count, zeros at the end are dropped. -/
def secondFraction? : Reader (List Char)
  | '.' :: s =>
    let ds := s.takeWhile Char.isDigit
    if ds.isEmpty then none
    else
      let kept := ((ds.take 9).reverse.dropWhile (· == '0')).reverse
      some (if kept.isEmpty then [] else '.' :: kept, s.dropWhile Char.isDigit)
  | s => some ([], s)

/-- A time of day. -/
def time? (s : List Char) : Option (List Char × List Char) := do
  let (hour, s) ← digitsBetween? 2 0 23 s
  let (_, s) ← mark? ':' s
  let (minute, s) ← digitsBetween? 2 0 59 s
  let (_, s) ← mark? ':' s
  let (second, s) ← digitsBetween? 2 0 60 s
  let (fraction, s) ← secondFraction? s
  return (hour ++ ':' :: minute ++ ':' :: second ++ fraction, s)

/-- The distance to universal time, if it is given. No distance has a plus sign. -/
def offset? (s : List Char) : Option (List Char × List Char) :=
  match s with
  | c :: t =>
    if c == 'Z' || c == 'z' then some (['Z'], t)
    else if c == '+' || c == '-' then do
      let (hour, t) ← digitsBetween? 2 0 23 t
      let (_, t) ← mark? ':' t
      let (minute, t) ← digitsBetween? 2 0 59 t
      let sign := if (hour ++ minute).all (· == '0') then '+' else c
      return (sign :: hour ++ ':' :: minute, t)
    else some ([], s)
  | [] => some ([], [])

/-- The time behind a date, if there is one. -/
def timeOfDate? (s : List Char) : Option (List Char × List Char) :=
  match s with
  | c :: t =>
    if c == 'T' || c == 't' || c == ' ' then
      match time? t with
      | none => some ([], s)
      | some (time, rest) => (offset? rest).map fun (offset, rest) => ('T' :: time ++ offset, rest)
    else some ([], s)
  | [] => some ([], [])

/-- A date, a time or both. -/
def moment? (s : List Char) : Option (Item × List Char) :=
  match date? s with
  | some (date, rest) =>
    (timeOfDate? rest).map fun (time, rest) => (.moment (String.ofList (date ++ time)), rest)
  | none => (time? s).map fun (time, rest) => (.moment (String.ofList time), rest)

/-! ## Any scalar -/

/-- A value that is neither an array nor a table. -/
def scalar (s : List Char) : Option (Item × List Char) :=
  match s with
  | '"' :: _ | '\'' :: _ => (string s).map fun (text, rest) => (.string text, rest)
  | 't' :: 'r' :: 'u' :: 'e' :: rest => some (.boolean true, rest)
  | 'f' :: 'a' :: 'l' :: 's' :: 'e' :: rest => some (.boolean false, rest)
  | '0' :: 'x' :: t => based? 16 t
  | '0' :: 'o' :: t => based? 8 t
  | '0' :: 'b' :: t => based? 2 t
  | _ => moment? s <|> special? s <|> decimal? s

end DocWeave.Toml
