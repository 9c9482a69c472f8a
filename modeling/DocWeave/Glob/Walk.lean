import DocWeave.FileTree
import DocWeave.Glob.Pattern

/-!
# Files that match a pattern

A pattern is taken component by component. A component without wildcards is looked up, any other one is
compared with the names in the folder reached so far, and `**` passes through all folders below it. The
paths found do not begin with `./`.
-/

namespace DocWeave.Glob

open DocWeave.Text

/-- A path that a pattern has led to; the working folder adds nothing to the names in it. -/
def step (path name : String) : String :=
  if Path.components path == ["."] then name else Path.join path name

/-- The folders `.` and `..` are met only by a pattern that begins with a dot. -/
def dotFolders (pattern : List Piece) : List String :=
  if pattern.head? == some (.char '.') then
    [".", ".."].filter fun name => isMatch pattern name.toList
  else []

/-- The pattern stands for any number of folders. -/
def isRecursive (pattern : List Piece) : Bool := pattern == [.anyFolders]

/-- The names of the files and folders at any depth below the folder at a path, each with the path that
leads to it. -/
def contents (t : FileTree) (path : String) : List (String × String) :=
  match t.place path with
  | .error _ => []
  | .ok here =>
    if t.isFolder here then
      (t.inside here).filterMap fun rest =>
        rest.getLast?.map fun name => (name, rest.foldl step path)
    else []

/-- The names directly in the folder at a path, each with the path that leads to it. -/
def children (t : FileTree) (path : String) : List (String × String) :=
  match t.place path with
  | .error _ => []
  | .ok here =>
    if t.isFolder here then
      (t.inside here).filterMap fun rest =>
        match rest with
        | [name] => some (name, step path name)
        | _ => none
    else []

/-- The paths to which the components of a pattern lead from a path. Behind `**` a component meets the
names at every depth. -/
def walk (t : FileTree) : (deep : Bool) → (patterns : List (List Piece)) → (path : String) → List String
  | deep, [], path => if deep then [] else [path]
  | deep, pattern :: rest, path =>
    if isRecursive pattern then walk t true rest path
    else
      match deep, literal? pattern with
      | false, some name =>
        let next := step path (String.ofList name)
        if name == ['.'] || name == ['.', '.'] then
          if t.hasFolder path then walk t false rest (step path (String.ofList name)) else []
        else if t.hasFile next || t.hasFolder next then walk t false rest next
        else []
      | _, _ =>
        let met := if deep then contents t path else children t path
        let named := met.filterMap fun (name, path) =>
          if isMatch pattern name.toList then some path else none
        let dots := if deep then [] else (dotFolders pattern).map (Path.join path)
        (named ++ dots).flatMap (walk t false rest)

/-- The components of a pattern; a slash at the end adds none. -/
def componentsOf (pattern : List Char) : List (List Char) :=
  let parts := splitOn ['/'] pattern
  if parts.getLast? == some [] then parts.dropLast else parts

/-- The paths of the files that match a pattern. -/
def files (t : FileTree) (pattern : String) : Except PatternFault (List String) := do
  let _ ← pieces pattern.toList
  let patterns ← (componentsOf pattern.toList).mapM pieces
  if Path.isAbsolute pattern || pattern.isEmpty || pattern.toList.getLast? == some '/' then return []
  return (walk t false patterns ".").filter t.hasFile

end DocWeave.Glob
