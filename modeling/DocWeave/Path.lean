import DocWeave.Text.Search

/-!
# Paths

Paths are texts with `/` between their parts. Nothing here looks at files: `join`, `parent` and
`stripRoot?` work on the text alone. Empty parts and parts `.` mean nothing, except that a leading `.`
counts as a component of its own.
-/

namespace DocWeave.Path

open DocWeave.Text

/-- The path starts at the top of the file system. -/
def isAbsolute (path : String) : Bool := path.toList.head? == some '/'

/-- The texts between the slashes. -/
def parts (path : String) : List String := (splitOn ['/'] path.toList).map String.ofList

/-- A path made of parts. -/
def ofParts (parts : List String) : String := "/".intercalate parts

/-- The path `right` seen from `left`; an absolute path stays as it is. -/
def join (left right : String) : String :=
  if isAbsolute right then right
  else if left.isEmpty || left.toList.getLast? == some '/' then left ++ right
  else left ++ "/" ++ right

/-- The part moves to another folder. -/
def isStep (part : String) : Bool := part != "" && part != "."

/-- The components: the first part, and of the others those that are steps. The first component of an
absolute path is empty. -/
def components (path : String) : List String :=
  if path.isEmpty then []
  else
    match parts path with
    | [] => []
    | first :: rest => first :: rest.filter isStep

/-- The parts without those at the end that are no steps; the first part stays. -/
def trimParts (parts : List String) : List String :=
  match parts with
  | [] => []
  | first :: rest => first :: (rest.reverse.dropWhile (!isStep ·)).reverse

/-- The folder that holds what the path names; of a bare name that is the empty path. -/
def parent (path : String) : String :=
  match trimParts (parts path) with
  | [] => ""
  | [_] => if isAbsolute path then "/" else ""
  | front => if front.dropLast == [""] then "/" else ofParts (trimParts front.dropLast)

/-- The parts behind the first `n` steps and behind what follows those without being a step. -/
def dropSteps : (n : Nat) → List String → List String
  | 0, parts => parts.dropWhile (!isStep ·)
  | _, [] => []
  | n + 1, part :: rest => if isStep part then dropSteps n rest else dropSteps (n + 1) rest

/-- The path as seen from `root`, if `root` is a whole-component beginning of it. -/
def stripRoot? (root path : String) : Option String :=
  let front := components root
  if !front.isPrefixOf (components path) then none
  else
    match front, parts path with
    | _ :: steps, _ :: rest => some (ofParts (dropSteps steps.length rest))
    | _, _ => some path

end DocWeave.Path
