import DocWeave.Decimal.Shortest
import DocWeave.Value.Basic

/-!
# Values as JSON

Compact JSON text. Strings, symbols and source text are JSON strings. A number that is not finite
becomes `null`; a finite one is written positionally from `1e-5` up to, but not including, `1e16`, and
with a signed exponent outside that range.
-/

namespace DocWeave

/-- A hexadecimal escape of four digits. -/
def jsonEscape (c : Char) : List Char :=
  let ds := Nat.toDigits 16 c.toNat
  ['\\', 'u'] ++ List.replicate (4 - ds.length) '0' ++ ds

/-- One character inside a JSON string. -/
def jsonChar (c : Char) : List Char :=
  if c = '"' then ['\\', '"']
  else if c = '\\' then ['\\', '\\']
  else if c = '\n' then ['\\', 'n']
  else if c = '\r' then ['\\', 'r']
  else if c = '\t' then ['\\', 't']
  else if c = '\x08' then ['\\', 'b']
  else if c = '\x0c' then ['\\', 'f']
  else if c.toNat < 32 then jsonEscape c
  else [c]

/-- A JSON string. -/
def jsonString (s : String) : String :=
  String.ofList ('"' :: (s.toList.flatMap jsonChar ++ ['"']))

/-- A double as a JSON number, or `null`. -/
def jsonBinary : Binary → List Char
  | .nan | .infinite _ => "null".toList
  | .finite negative m q =>
    let body :=
      if m = 0 then "0.0".toList
      else
        let d := Decimal.shortest .even m q
        if -5 < d.pointPlace && d.pointPlace ≤ 16 then d.positional true
        else d.scientific ['+']
    if negative then '-' :: body else body

namespace Value

mutual

/-- The value as JSON. -/
def toJson : Value → String
  | .nil => "null"
  | .bool b => if b then "true" else "false"
  | .int i => toString i.toInt
  | .float x => String.ofList (jsonBinary (.ofFloat x))
  | .str s | .sym s | .code s => jsonString s
  | .array items => "[" ++ ",".intercalate (jsonItems items) ++ "]"
  | .hash entries => "\x7b" ++ ",".intercalate (jsonEntries entries) ++ "\x7d"

/-- The items as JSON. -/
def jsonItems : List Value → List String
  | [] => []
  | v :: vs => toJson v :: jsonItems vs

/-- The entries as JSON. -/
def jsonEntries : List (String × Value) → List String
  | [] => []
  | (k, v) :: rest => (jsonString k ++ ":" ++ toJson v) :: jsonEntries rest

end

end Value

end DocWeave
