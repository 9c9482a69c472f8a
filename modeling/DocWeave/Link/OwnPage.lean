import DocWeave.Text.Letter
import DocWeave.Text.Match
import DocWeave.Text.Search

/-!
# Links of a page to itself

A link whose target is the own page's address and a fragment is shortened to the fragment. Only links
with a plain title are looked at: words, digits, blanks, dashes and the marks `?` and `!`.
-/

namespace DocWeave.Link

open DocWeave.Text

/-- A character of a plain title. -/
def isTitleChar (c : Char) : Bool :=
  isWordChar c || c == '?' || c == '-' || c == '!' || c == ' '

/-- The title and the target of a link that begins here, on one line. -/
def plainLink? (s : List Char) : Option (List Char × List Char) :=
  match s with
  | '[' :: t =>
    match t.dropWhile isTitleChar with
    | ']' :: '(' :: u =>
      match u.dropWhile fun c => c != ')' && c != '\n' with
      | ')' :: _ => some (t.takeWhile isTitleChar, u.takeWhile fun c => c != ')' && c != '\n')
      | _ => none
    | _ => none
  | _ => none

/-- A link, shortened if it leads to the own page. -/
def ownPageLink (pageUrl : List Char) : Recogniser (List Char) := fun _ s =>
  (plainLink? s).map fun (title, target) =>
    let n := title.length + target.length + 4
    match splitFirst? ['#'] target with
    | some (path, fragment) =>
      if path = pageUrl then (n, '[' :: title ++ "](#".toList ++ fragment ++ [')']) else (n, s.take n)
    | none => (n, s.take n)

/-- Shortens every link to the own page. -/
def collapse (pageUrl text : String) : String :=
  String.ofList (substitute (ownPageLink pageUrl.toList) none text.toList)

end DocWeave.Link
