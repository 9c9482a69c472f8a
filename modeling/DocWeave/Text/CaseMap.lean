import DocWeave.Text.CaseTable

/-!
# Letter case

Lower- and upper-casing of whole texts. A capital sigma at the end of a word becomes the final form
of the small letter; every other character is mapped by itself.
-/

namespace DocWeave.Text

/-- The code point that the first fitting run sends `n` to. -/
def applyRuns (runs : List CaseRun) (n : Nat) : Option Nat :=
  runs.findSome? (·.image? n)

/-- The small form of one character. -/
def lowerChar (c : Char) : List Char :=
  if c.toNat < 128 then [c.toLower]
  else if c.toNat = 0x130 then ['i', Char.ofNat 0x307]
  else [((applyRuns smallRuns c.toNat).map Char.ofNat).getD c]

/-- The capital form of one character. -/
def upperChar (c : Char) : List Char :=
  if c.toNat < 128 then [c.toUpper]
  else match longCapitals.lookup c.toNat with
    | some cs => cs.map Char.ofNat
    | none => [((applyRuns capitalRuns c.toNat).map Char.ofNat).getD c]

/-- The character has a case. -/
def isCased (c : Char) : Bool :=
  if c.toNat < 128 then c.isAlpha else cased.holds c

/-- The first character that is not stepped over has a case. -/
def meetsCased (s : List Char) : Bool :=
  match s.dropWhile caseIgnorable.holds with
  | [] => false
  | c :: _ => isCased c

/-- Lower-cases the text; `before` holds the characters already passed, the last one first. -/
def lowerFrom : (before : List Char) → List Char → List Char
  | _, [] => []
  | before, c :: s =>
    let small :=
      if c.toNat = 0x3A3 then
        [Char.ofNat (if meetsCased before && !meetsCased s then 0x3C2 else 0x3C3)]
      else lowerChar c
    small ++ lowerFrom (c :: before) s

/-- The text in small letters. -/
def lower (s : List Char) : List Char := lowerFrom [] s

/-- The text in capitals. -/
def upper (s : List Char) : List Char := s.flatMap upperChar

/-- The first character in capitals, the rest as it stands. -/
def upperFirst : List Char → List Char
  | [] => []
  | c :: s => upperChar c ++ s

end DocWeave.Text
