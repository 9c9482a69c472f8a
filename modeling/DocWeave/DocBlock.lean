import DocWeave.Error
import DocWeave.Text.Search

/-!
# Doc blocks

Of a comment only the part between a start token and an end token is documentation. The start token
ends its line. Without an end token the rest of the comment is taken and marked as incomplete; without
a start token there is no documentation.
-/

namespace DocWeave

open DocWeave.Text

/-- The tokens around a doc block. -/
structure BlockTokens where
  start : String := "=mark_doc"
  stop : String := "=mark_end"
deriving DecidableEq, Repr, Inhabited

/-- Tokens must not be empty. -/
def BlockTokens.make (start stop : String) : Except Error BlockTokens :=
  if start.isEmpty || stop.isEmpty then .error (.of (.config .emptyToken))
  else .ok { start, stop }

/-- The text of a doc block and the line on which it begins. -/
structure DocBlock where
  text : String
  line : Nat
deriving DecidableEq, Repr, Inhabited

namespace DocBlock

/-- What is put behind a block that has no end token. -/
def noEndMarker : String := "[//]: # (This method has no mark_end)"

/-- There is no documentation. -/
def isEmpty (b : DocBlock) : Bool := b.text.isEmpty

/-- The block in a comment that begins on `firstLine`: it starts behind the first start token that
ends its line, and stops before the last end token behind that. -/
def extract (tokens : BlockTokens) (comment : String) (firstLine : Nat) : DocBlock :=
  let opening := tokens.start.toList ++ ['\n']
  match splitFirst? opening comment.toList with
  | none => ⟨"", firstLine⟩
  | some (front, body) =>
    let line := firstLine + countChar '\n' (front ++ opening)
    match splitLast? tokens.stop.toList body with
    | some (text, _) => ⟨String.ofList text, line⟩
    | none => ⟨String.ofList body ++ noEndMarker, line⟩

end DocBlock

/-! ## Comment marks -/

/-- A line without its comment mark and one blank or tab behind it. -/
def uncommentLine : List Char → List Char
  | '#' :: ' ' :: s => s
  | '#' :: '\t' :: s => s
  | '#' :: s => s
  | s => s

/-- A comment without the marks at the beginnings of its lines. -/
def uncomment (s : List Char) : List Char :=
  ['\n'].intercalate ((splitOn ['\n'] s).map uncommentLine)

end DocWeave
