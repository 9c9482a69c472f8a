import DocWeave.Text.Unprintable

/-!
# Quoted text

A quotation stands between double quotes. The quote itself, the backslash, tab, line feed, carriage
return and NUL have an escape of two characters; a character that does not show is written by its
code point in hexadecimal between braces; every other character stands for itself.
-/

namespace DocWeave.Text

/-- The hexadecimal digits of a code point. -/
def hexDigits (n : Nat) : List Char := Nat.toDigits 16 n

/-- One character inside a quotation. -/
def quoteChar (c : Char) : List Char :=
  if c = '"' then ['\\', '"']
  else if c = '\\' then ['\\', '\\']
  else if c = '\n' then ['\\', 'n']
  else if c = '\t' then ['\\', 't']
  else if c = '\r' then ['\\', 'r']
  else if c = '\x00' then ['\\', '0']
  else if isUnprintable c then ['\\', 'u', '\x7b'] ++ hexDigits c.toNat ++ ['\x7d']
  else [c]

/-- The text between double quotes. -/
def quoted (s : List Char) : List Char :=
  '"' :: (s.flatMap quoteChar ++ ['"'])

/-- The string between double quotes. -/
def quote (s : String) : String := String.ofList (quoted s.toList)

end DocWeave.Text
