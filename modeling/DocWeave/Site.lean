import DocWeave.DocBlock
import DocWeave.Outline.Extent
import DocWeave.Text.Lines

/-!
# Sites

A site is the place of a definition in a source file, with the comment directly above it and its text.
-/

namespace DocWeave

open DocWeave.Text

/-- A definition in a file. -/
structure Site where
  /-- The file below the root. -/
  file : String
  /-- The first line of the definition, counted from one. -/
  line : Nat
  /-- The comment above it without its marks, each line with its end. -/
  comment : String
  /-- The first line of the comment; without a comment that of the definition. -/
  commentLine : Nat
  /-- The text of the definition. -/
  body : String
deriving DecidableEq, Repr, Inhabited

/-- How far a definition reaches. -/
inductive Shape where
  /-- Up to the `end` that closes its block. -/
  | block
  /-- Up to the end of a statement. -/
  | statement
deriving DecidableEq, Repr

/-- The index of the last line of a definition that begins on line `start`, both counted from zero. -/
def Shape.lastLine (shape : Shape) (lines : List (List Char)) (start : Nat) : Nat :=
  match shape with
  | .block => Outline.blockEnd lines start
  | .statement => Outline.statementEnd lines start

namespace Site

/-- The comment says something. -/
def hasComment (s : Site) : Bool := !isBlankText s.comment.toList

/-- The line is a comment. -/
def isCommentLine (line : List Char) : Bool := (trimStart line).head? == some '#'

/-- The comment lines at the end of some lines. -/
def commentAbove (above : List (List Char)) : List (List Char) :=
  (above.reverse.takeWhile isCommentLine).reverse

/-- A comment line without its mark and with a line end. -/
def commentText (line : List Char) : List Char := uncomment (trimStart line) ++ ['\n']

/-- The definition on a line of a file, counted from one, if the file has that line. -/
def ofLines? (file : String) (lines : List (List Char)) (line : Nat) (shape : Shape) : Option Site :=
  match line with
  | 0 => none
  | start + 1 =>
    if start < lines.length then
      let comment := commentAbove (lines.take start)
      let body := (lines.drop start).take (shape.lastLine lines start - start + 1)
      some {
        file, line
        comment := String.ofList (comment.flatMap commentText)
        commentLine := start - comment.length + 1
        body := String.ofList (joinLines body) }
    else none

/-- The doc block in the comment. -/
def docBlock (s : Site) (tokens : BlockTokens) : DocBlock :=
  DocBlock.extract tokens s.comment s.commentLine

end Site

end DocWeave
