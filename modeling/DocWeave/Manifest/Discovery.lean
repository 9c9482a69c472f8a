import DocWeave.Glob.Walk
import DocWeave.Manifest.Basic
import DocWeave.Outline.Scan

/-!
# The subjects of a manifest

Subjects are found in the source files, which are taken in the order of their paths, and what the
manifest declares is laid over them. A subject that several files open keeps the first file and gains
the members of the others; lines are recorded for its own file only.
-/

namespace DocWeave.Manifest

open DocWeave.Text

/-- Subjects by name, in the order in which they turned up. -/
abbrev Collection := OrderedMap String Subject

/-! ## Discovered subjects -/

/-- A member as seen from a subject whose own file is another one or not. -/
def memberFrom (sameFile : Bool) (m : Member) : Member :=
  if sameFile then m else { m with line := none }

/-- Adds the members that are not there yet. -/
def addMembers (sameFile : Bool) (s : Subject) (members : List Member) : Subject :=
  members.foldl (fun s m =>
    if (s.member? m.name m.kind).isSome then s
    else { s with members := s.members ++ [memberFrom sameFile m] }) s

/-- Adds the constants that are not there yet. -/
def addConstants (constants : OrderedMap String Constant) (new : List Constant) :
    OrderedMap String Constant :=
  new.foldl (fun cs c => if cs.hasKey c.name then cs else cs.insert c.name c) constants

/-- Adds the names that are not there yet. -/
def addNames (names new : List String) : List String :=
  new.foldl (fun names n => if names.contains n then names else names ++ [n]) names

/-- The subject as its first declaration makes it. -/
def subjectOf (file : String) (d : Outline.Declaration) : Subject :=
  { name := d.name, kind := d.kind, file := some file, line := some d.line }

/-- A subject with what a declaration in a file adds. -/
def absorb (file : String) (s : Subject) (d : Outline.Declaration) : Subject :=
  let sameFile := s.file == some file
  let s := { s with parent := s.parent <|> d.parent, includes := addNames s.includes d.includes }
  let s := addMembers sameFile s d.members
  { s with constants := addConstants s.constants d.constants }

/-- The subjects with one more declaration. -/
def mergeDeclaration (file : String) (subjects : Collection) (d : Outline.Declaration) : Collection :=
  let s := (subjects.get? d.name).getD (subjectOf file d)
  subjects.insert d.name (absorb file s d)

/-! ## Declared subjects -/

/-- A subject with one more declared member. -/
def declareMember (s : Subject) (m : DeclaredMember) : Subject :=
  match m.kind with
  | .constant =>
    let line := m.line <|> (s.constants.get? m.name).bind (·.line)
    let constant : Constant := { name := m.name, value := m.returns.getD .nil, line }
    { s with constants := s.constants.insert m.name constant }
  | kind => s.upsert { name := m.name, kind, line := m.line, returns := m.returns }

/-- A subject with one more declared constant. -/
def declareConstant (s : Subject) (entry : String × Value) : Subject :=
  let line := (s.constants.get? entry.1).bind (·.line)
  let constant : Constant := { name := entry.1, value := entry.2, line }
  { s with constants := s.constants.insert entry.1 constant }

/-- The bindings with others laid over them. -/
def overlay (bindings others : Bindings) : Bindings :=
  others.foldl (fun bs (k, v) => bs.insert k v) bindings

/-- The subject in a declared file; in another file than before its line is unknown. -/
def moveTo (s : Subject) (file : Option String) : Subject :=
  match file with
  | none => s
  | some f => if s.file == some f then s else { s with file := some f, line := none }

/-- A subject with what the manifest declares laid over it. -/
def declare (s : Subject) (d : DeclaredSubject) : Subject :=
  let s := moveTo s d.file
  let s :=
    { s with
      kind := d.kind.getD s.kind
      parent := d.parent <|> s.parent
      includes := d.includes.getD s.includes }
  let s := d.members.foldl declareMember s
  let s := d.constants.foldl declareConstant s
  { s with
    bootstrap := overlay s.bootstrap d.bootstrap
    stubs := overlay s.stubs d.stubs }

/-! ## All subjects -/

/-- The declarations in a source file. -/
def outlineOf (files : FileTree) (root file : String) : Except Error (List Outline.Declaration) :=
  let path := Path.join root file
  match files.read path with
  | .ok text => .ok (Outline.ofSource text)
  | .error fault => .error (.of (.read path fault))

/-- A path with slashes only. -/
def withSlashes (path : String) : String := String.ofList (replaceChar '\\' '/' path.toList)

/-- The files that a pattern finds, as seen from the root. -/
def filesOf (files : FileTree) (root pattern : String) : Except Error (List String) :=
  match Glob.files files (Path.join root pattern) with
  | .ok paths => .ok (paths.map fun path => withSlashes ((Path.stripRoot? root path).getD path))
  | .error fault => .error (.of (.config (.badPattern pattern fault.message)))

/-- Equal neighbours reduced to one. -/
def dropRepeats : List String → List String
  | a :: b :: rest => if a == b then dropRepeats (b :: rest) else a :: dropRepeats (b :: rest)
  | short => short

/-- The source files, in the order of their paths, each once. -/
def sources (m : Manifest) (files : FileTree) : Except Error (List String) := do
  let found ← m.patterns.mapM (filesOf files m.project.root)
  return dropRepeats (found.flatten.mergeSort fun a b => a ≤ b)

/-- The subjects with those of one more source file. -/
def discoverFile (files : FileTree) (root : String) (subjects : Collection) (file : String) :
    Except Error Collection := do
  return (← outlineOf files root file).foldl (mergeDeclaration file) subjects

/-- The subjects with a declared one looked up in its own file, unless it is known already. -/
def searchDeclared (files : FileTree) (root : String) (subjects : Collection) (d : DeclaredSubject) :
    Except Error Collection :=
  match d.file with
  | some file =>
    if subjects.hasKey d.name || !d.discover then .ok subjects
    else do
      match (← outlineOf files root file).find? (·.name == d.name) with
      | some found => return mergeDeclaration file subjects found
      | none => return subjects
  | none => .ok subjects

/-- The subjects with one more declared subject. -/
def declareSubject (files : FileTree) (root : String) (subjects : Collection) (d : DeclaredSubject) :
    Except Error Collection := do
  let subjects ← searchDeclared files root subjects d
  let s := (subjects.get? d.name).getD { name := d.name }
  return subjects.insert d.name (declare s d)

/-- The subjects of a manifest: those of the source files, then the declared ones that are new. -/
def collect (m : Manifest) (files : FileTree) : Except Error (List Subject) := do
  let root := m.project.root
  let found ← (← m.sources files).foldlM (discoverFile files root) []
  return (← m.subjects.foldlM (declareSubject files root) found).values

end DocWeave.Manifest
