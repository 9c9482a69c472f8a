import DocWeave.Text.CharRanges

/-!
# White space

`isBlank` is the white space that trimming removes: the six ASCII characters (tab, line feed,
vertical tab, form feed, carriage return, space) and the separators beyond ASCII.
-/

namespace DocWeave.Text

/-- White space of every script. -/
def blanks : CharRanges :=
  [(0x9, 0xD), (0x20, 0x20), (0x85, 0x85), (0xA0, 0xA0), (0x1680, 0x1680), (0x2000, 0x200A),
    (0x2028, 0x2029), (0x202F, 0x202F), (0x205F, 0x205F), (0x3000, 0x3000)]

/-- A white-space character. -/
def isBlank (c : Char) : Bool := blanks.holds c

/-! ## Trimming -/

/-- Drops the blanks in front. -/
def trimStart (s : List Char) : List Char := s.dropWhile isBlank

/-- Drops the blanks at the end. -/
def trimEnd (s : List Char) : List Char := (s.reverse.dropWhile isBlank).reverse

/-- Drops the blanks at both ends. -/
def trim (s : List Char) : List Char := trimEnd (trimStart s)

/-- No character but blanks. -/
def isBlankText (s : List Char) : Bool := s.all isBlank

end DocWeave.Text
