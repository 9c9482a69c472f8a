import DocWeave.Text.Blank
import DocWeave.Text.Letter
import DocWeave.Text.Match
import DocWeave.Text.Search

/-!
# Statements as prose

These passes go line by line; a line ends at a line feed and nowhere else. A statement with a condition
behind it and a choice between two values become statements of several lines; the words of such
statements become list items; the word `end` and comment marks are taken away.
-/

namespace DocWeave.Prose

open DocWeave.Text

/-- Applies a pass to every line. -/
def onLines (f : List Char → List Char) (s : List Char) : List Char :=
  ['\n'].intercalate ((splitOn ['\n'] s).map f)

/-! ## Early returns -/

/-- A return with a condition and no value. -/
def bareReturn : Recogniser (List Char) := fun _ s =>
  (after? "return ".toList s).bind fun rest =>
    ["unless", "if"].findSome? fun word =>
      (after? word.toList rest).map fun _ =>
        (7 + word.length, "return nothing ".toList ++ word.toList)

/-- `return if x` becomes `return nothing if x`. -/
def prettyEarlyReturn (s : List Char) : List Char := substitute bareReturn none s

/-- The last place where a condition is put behind a statement: the statement, the word and the
condition. Neither part is empty. -/
def trailingCondition? : List Char → Option (List Char × List Char × List Char)
  | [] => none
  | c :: s =>
    match trailingCondition? s with
    | some (head, word, tail) => some (c :: head, word, tail)
    | none =>
      let behind (word : String) : Option (List Char × List Char × List Char) :=
        match after? (" " ++ word ++ " ").toList s with
        | some (d :: t) => some ([c], word.toList, d :: t)
        | _ => none
      behind "if" <|> behind "unless"

/-- A line with a condition behind its statement becomes three lines. -/
def unfoldCondition (line : List Char) : List Char :=
  match trailingCondition? line with
  | some (head, word, tail) =>
    if isBlankText head || endsWith "else".toList (trimEnd head) then line
    else word ++ ' ' :: tail ++ '\n' :: trimStart head ++ "\nend".toList
  | none => line

/-- `a if b` becomes `if b`, `a` and `end`. -/
def convertEarlyReturn (s : List Char) : List Char := onLines unfoldCondition s

/-! ## Choices -/

/-- The last place where a choice between two values stands: the condition and the two values. -/
def choice? : List Char → Option (List Char × List Char × List Char)
  | [] => none
  | c :: s =>
    match choice? s with
    | some (test, yes, no) => some (c :: test, yes, no)
    | none =>
      (after? " ? ".toList (c :: s)).bind fun rest =>
        (splitLast? " : ".toList rest).map fun (yes, no) => ([], yes, no)

/-- A line with a choice becomes five lines. -/
def unfoldChoice (line : List Char) : List Char :=
  match choice? line with
  | some (test, yes, no) =>
    "if ".toList ++ test ++ '\n' :: yes ++ "\nelse\n".toList ++ no ++ "\nend".toList
  | none => line

/-- `a ? b : c` becomes `if a`, `b`, `else`, `c` and `end`. -/
def ternaryToIfElse (s : List Char) : List Char := onLines unfoldChoice s

/-! ## List items -/

/-- A blank or a tab. -/
def isGap (c : Char) : Bool := c == ' ' || c == '\t'

/-- What follows a word at the beginning of a line, which the next character must not continue. -/
def afterKeyword? (word : String) (line : List Char) : Option (List Char) :=
  match after? word.toList (line.dropWhile isGap) with
  | some (c :: s) => if isWordChar c then none else some (c :: s)
  | some [] => some []
  | none => none

/-- A line with only this word on it. -/
def isLone (word : String) (line : List Char) : Bool :=
  match after? word.toList (line.dropWhile isGap) with
  | some rest => rest.all isGap
  | none => false

/-- A line that begins with the word becomes a list item, with a closing text behind it. -/
def bullet (words : List String) (item closing : String) (line : List Char) : List Char :=
  match words.findSome? (afterKeyword? · line) with
  | some rest => item.toList ++ rest ++ closing.toList
  | none => line

/-- A lone `else` becomes a list item. -/
def elseBullet (line : List Char) : List Char :=
  if isLone "else" line then "* __Else__".toList else line

/-- Conditions become list items. -/
def ifToBullets (s : List Char) : List Char :=
  let s := onLines (bullet ["else if", "elsif"] "* __Else If__" "\n__Then__") s
  let s := onLines (bullet ["if"] "* __If__" "\n__Then__") s
  let s := onLines (bullet ["unless"] "* __Unless__" "\n__Then__") s
  onLines elseBullet s

/-- Cases become list items. -/
def caseToBullets (s : List Char) : List Char :=
  let s := onLines (bullet ["case"] "* __Given__" "") s
  let s := onLines (bullet ["when"] "* __When__" "\n__Then__") s
  onLines elseBullet s

/-! ## Ends and comments -/

/-- Drops the lines with a lone `end`; the last line of a text only becomes empty. -/
def dropEnds : List (List Char) → List (List Char)
  | [] => []
  | [line] => [if isLone "end" line then [] else line]
  | line :: rest => if isLone "end" line then dropEnds rest else line :: dropEnds rest

/-- Removes the lines with a lone `end`. -/
def removeEnds (s : List Char) : List Char := ['\n'].intercalate (dropEnds (splitOn ['\n'] s))

/-- A comment line in italics. -/
def italicComment (line : List Char) : List Char :=
  match line.dropWhile isGap with
  | '#' :: note => "</br>*(".toList ++ note ++ ")*</br>".toList
  | _ => line

/-- Comments become prose in italics. -/
def commentsToProse (s : List Char) : List Char := onLines italicComment s

end DocWeave.Prose
