import DocWeave.Outline.Line

/-!
# Extents of blocks and statements

A block that begins on a line closes at the next `end` with the same indentation, or with the file. A
statement goes on as long as brackets are open; brackets inside quotes do not count. Both extents are
measured in lines behind the first one.
-/

namespace DocWeave.Outline

open DocWeave.Text

/-! ## Blocks -/

/-- How many lines of `rest` belong to a block that is indented by `indent`: up to its `end`, or all. -/
def blockLength (indent : Nat) : (rest : List (List Char)) → Nat
  | [] => 0
  | l :: ls => if indentation l = indent && isEnd (trim l) then 1 else 1 + blockLength indent ls

theorem blockLength_le (indent : Nat) (rest : List (List Char)) :
    blockLength indent rest ≤ rest.length := by
  induction rest with
  | nil => simp [blockLength]
  | cons l ls ih => simp only [blockLength, List.length_cons]; split <;> omega

/-- How many lines behind a first line belong to the block that it opens. -/
def blockExtent (first : List Char) (rest : List (List Char)) : Nat :=
  if isOneLiner (trim first) then 0 else blockLength (indentation first) rest

/-- The index of the line that closes the block opened on line `start`, both counted from zero. -/
def blockEnd (lines : List (List Char)) (start : Nat) : Nat :=
  match lines.drop start with
  | [] => start
  | first :: rest => start + blockExtent first rest

/-! ## Statements -/

/-- The brackets that are open behind a text, and the quote that is, if any. -/
structure Nesting where
  depth : Int := 0
  quote : Option Char := none
deriving DecidableEq, Repr

/-- The nesting behind one more character. -/
def Nesting.step (n : Nesting) (c : Char) : Nesting :=
  match n.quote with
  | some q => if c = q then { n with quote := none } else n
  | none =>
    if c = '"' ∨ c = '\'' then { n with quote := some c }
    else if c = '(' ∨ c = '[' ∨ c = '\x7b' then { n with depth := n.depth + 1 }
    else if c = ')' ∨ c = ']' ∨ c = '\x7d' then { n with depth := n.depth - 1 }
    else n

/-- The bracket depth behind a text. -/
def bracketDepth (s : List Char) : Int := (s.foldl Nesting.step {}).depth

/-- The text of a statement that begins with `text`, and how many of the following lines it takes. -/
def gather (text : List Char) : (rest : List (List Char)) → List Char × Nat
  | [] => (text, 0)
  | l :: ls =>
    if 0 < bracketDepth text then
      let (full, n) := gather (text ++ '\n' :: trim l) ls
      (full, n + 1)
    else (text, 0)

/-- The index of the last line of the statement that begins on line `start`. -/
def statementEnd (lines : List (List Char)) (start : Nat) : Nat :=
  match lines.drop start with
  | [] => start
  | first :: rest => start + (gather (trim first) rest).2

end DocWeave.Outline
