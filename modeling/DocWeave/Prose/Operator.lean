import DocWeave.Text.Letter
import DocWeave.Text.Match
import DocWeave.Text.Search

/-!
# Operators in words

Operators are replaced by words, one operator after the other through the whole text, and a question
to a receiver gets an "is" in front of it.
-/

namespace DocWeave.Prose

open DocWeave.Text

/-- Replaces each text by its words, in order. -/
def replaceEach (table : List (String × String)) (s : List Char) : List Char :=
  table.foldl (fun s (op, words) => replace op.toList words.toList s) s

/-- A question to a receiver: a character of a word, a point, and a word with a question mark. -/
def predicateCall : Recogniser (List Char) := fun _ s =>
  match s with
  | c :: '.' :: t =>
    let name := t.takeWhile isWordChar
    match t.dropWhile isWordChar with
    | '?' :: _ =>
      if isWordChar c && !name.isEmpty then
        some (name.length + 3, c :: " is ".toList ++ name ++ ['?'])
      else none
    | _ => none
  | _ => none

/-- The operators that are put into words. -/
def operatorWords : List (String × String) :=
  [("nil?", "missing?"), ("&&", "and"), ("||", "or"), (">=", "is greater than or equal to"),
    ("<=", "is less than or equal to"), (" < ", " is less than "), (" > ", " is greater than "),
    (" == ", " Equal to "), (" != ", " not equal to ")]

/-- Puts operators into words. -/
def operatorsToWords (s : List Char) : List Char :=
  substitute predicateCall none (replaceEach operatorWords s)

end DocWeave.Prose
