import DocWeave.Error
import DocWeave.OrderedMap
import DocWeave.Path

/-!
# Files as a value

The files below the working folder, by the names that lead to them. A path is followed step by step as
an operating system does: every part but the last must lead to a folder, `..` leads back, and what lies
above the working folder or at an absolute path is not there.
-/

namespace DocWeave

/-- Files with their contents, and the folders. The top folder is always there. -/
structure FileTree where
  files : OrderedMap (List String) String := []
  folders : List (List String) := []
deriving Inhabited

namespace FileTree

/-- There is a folder at this place. -/
def isFolder (t : FileTree) (place : List String) : Bool :=
  place.isEmpty || t.folders.contains place

/-- There is a file at this place. -/
def isFile (t : FileTree) (place : List String) : Bool := t.files.hasKey place

/-- Follows the parts of a path. The place it leads to may be missing; the folders on the way may not. -/
def follow (t : FileTree) (here : List String) : (parts : List String) → Except FileFault (List String)
  | [] => .ok here
  | part :: rest =>
    if t.isFolder here then
      if part == "" || part == "." then t.follow here rest
      else if part == ".." then
        if here.isEmpty then .error .missing else t.follow here.dropLast rest
      else t.follow (here ++ [part]) rest
    else if t.isFile here then .error .notDirectory
    else .error .missing

/-- The place a path leads to. -/
def place (t : FileTree) (path : String) : Except FileFault (List String) :=
  if path.isEmpty || Path.isAbsolute path then .error .missing else t.follow [] (Path.parts path)

/-- The contents of the file at a path. -/
def read (t : FileTree) (path : String) : Except FileFault String := do
  let place ← t.place path
  match t.files.get? place with
  | some text => .ok text
  | none => .error (if t.isFolder place then .isDirectory else .missing)

/-- A path leads to a file. -/
def hasFile (t : FileTree) (path : String) : Bool :=
  match t.place path with
  | .ok place => t.isFile place
  | .error _ => false

/-- A path leads to a folder. -/
def hasFolder (t : FileTree) (path : String) : Bool :=
  match t.place path with
  | .ok place => t.isFolder place
  | .error _ => false

/-- Follows the parts of a path and makes the folders that are missing. -/
def makeFolders (t : FileTree) (here : List String) :
    (parts : List String) → Except FileFault (FileTree × List String)
  | [] => .ok (t, here)
  | part :: rest =>
    if part == "" || part == "." then t.makeFolders here rest
    else if part == ".." then
      if here.isEmpty then .error .missing else t.makeFolders here.dropLast rest
    else
      let next := here ++ [part]
      if t.isFile next then .error (if rest.isEmpty then .exists else .notDirectory)
      else if t.isFolder next then t.makeFolders next rest
      else makeFolders { t with folders := t.folders ++ [next] } next rest

/-- Sets the contents of the file at a path, with the folders it needs. -/
def write (t : FileTree) (path text : String) : Except FileFault FileTree :=
  let front := (Path.parts path).dropLast
  let name := (Path.parts path).getLast?.getD ""
  if Path.isAbsolute path then .error .missing
  else do
    let (t, folder) ← t.makeFolders [] front
    if name == "" || name == "." || name == ".." || t.isFolder (folder ++ [name]) then
      .error .isDirectory
    else .ok { t with files := t.files.insert (folder ++ [name]) text }

/-- Takes away the file at a path; its folder stays. -/
def remove (t : FileTree) (path : String) : FileTree :=
  match t.place path with
  | .ok place => { t with files := t.files.filter (·.1 != place) }
  | .error _ => t

/-- What leads from one place to another that lies below it. -/
def below? (here place : List String) : Option (List String) :=
  if here.isPrefixOf place && here.length < place.length then some (place.drop here.length) else none

/-- The files and folders below a folder, as seen from it. -/
def inside (t : FileTree) (here : List String) : List (List String) :=
  (t.files.keys ++ t.folders).filterMap (below? here)

/-- The files below the folder at a path with their contents, in the order of their paths, which begin
with `dir` as it is given. -/
def listing (t : FileTree) (dir : String) : List (String × String) :=
  match t.place dir with
  | .error _ => []
  | .ok here =>
    (t.files.filterMap fun (place, text) =>
      (below? here place).map fun rest => (Path.join dir (Path.ofParts rest), text))
      |>.mergeSort fun a b => a.1 ≤ b.1

/-- The tree of the given files; a path that cannot be written is left out. -/
def ofFiles (files : List (String × String)) : FileTree :=
  files.foldl (fun t (path, text) => (t.write path text).toOption.getD t) {}

end FileTree

end DocWeave
