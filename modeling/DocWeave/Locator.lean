import DocWeave.Registry
import DocWeave.Session
import DocWeave.Site

/-!
# Locating definitions

A member is looked for along the lineage of its subject: at the line recorded for it, or else where the
outline of the subject's file declares it. If no comment stands there, a declarative line that names the
member may supply one.
-/

namespace DocWeave

open DocWeave.Text

/-- Why a definition was not found. -/
inductive LocateFault where
  | unreadable (path : String) (fault : FileFault)
  | noLine (file : String) (line : Nat)
  | noFile (subject : String)
  | undeclared (subject file : String)
  | undefined (name subject : String)
deriving DecidableEq, Repr

/-- The wording of the reason. -/
def LocateFault.message : LocateFault → String
  | .unreadable path fault => s!"cannot read {path}: {fault.message}"
  | .noLine file line => s!"{file} has no line {line}"
  | .noFile subject => s!"{subject} has no source file"
  | .undeclared subject file => s!"{subject} is not declared in {file}"
  | .undefined name subject => s!"no definition of `{name}` found for {subject}"

/-- A step of a search. -/
abbrev LocateM := SessionT LocateFault

namespace Locator

/-- The lines of a source file. -/
def linesOf (root file : String) : LocateM (List (List Char)) := do
  let session ← get
  match session.cache.lines.get? file with
  | some lines => return lines
  | none =>
    let path := Path.join root file
    match session.files.read path with
    | .error fault => throw (.unreadable path fault)
    | .ok text =>
      let found := lines text.toList
      modify fun s => { s with cache := { s.cache with lines := s.cache.lines.insert file found } }
      return found

/-- The outline of a source file. -/
def outlineOf (root file : String) : LocateM (List Outline.Declaration) := do
  match (← get).cache.outlines.get? file with
  | some outline => return outline
  | none =>
    let found ← linesOf root file
    let outline := Outline.ofSource (String.ofList (joinLines found))
    modify fun s =>
      { s with cache := { s.cache with outlines := s.cache.outlines.insert file outline } }
    return outline

/-- The definition on a line of a source file. -/
def siteAt (root file : String) (line : Nat) (shape : Shape) : LocateM Site := do
  match Site.ofLines? file (← linesOf root file) line shape with
  | some site => return site
  | none => throw (.noLine file line)

/-- The line that is recorded for a member or constant. -/
def recordedLine? (s : Subject) (name : String) (kind : MemberKind) : Option Nat :=
  match kind with
  | .constant => (s.constants.get? name).bind (·.line)
  | kind => (s.member? name kind).bind (·.line)

/-- The line on which a declaration has a member or constant. -/
def declaredLine? (d : Outline.Declaration) (name : String) (kind : MemberKind) : Option Nat :=
  match kind with
  | .constant => (d.constants.find? (·.name == name)).bind (·.line)
  | kind => (d.members.find? (·.isCalled name kind)).bind (·.line)

/-- The first declaration of a subject. -/
def declarationOf? (outline : List Outline.Declaration) (subject : String) :
    Option Outline.Declaration :=
  outline.find? (·.name == subject)

/-- The line on which a subject's file defines a member: the recorded one, or else that of the outline.
A file that cannot be read defines nothing. -/
def definitionLine (root : String) (s : Subject) (file name : String) (kind : MemberKind) :
    LocateM (Option Nat) := do
  match recordedLine? s name kind with
  | some line => return some line
  | none =>
    match ← (outlineOf root file).attempt with
    | some outline => return (declarationOf? outline s.name).bind fun d => declaredLine? d name kind
    | none => return none

/-- The first line of a file, counted from one, that declares a member by name. -/
def declarativeLine (root file name : String) : LocateM (Option Nat) := do
  match ← (linesOf root file).attempt with
  | none => return none
  | some lines =>
    return (lines.findIdx? fun l => (Outline.declarativeNames l).contains name).map (· + 1)

/-- The shape of what a reference names. -/
def shapeOf (kind : MemberKind) : Shape :=
  match kind with
  | .constant => .statement
  | _ => .block

/-- The first definition of a member along some subjects. -/
def findDefinition (root name : String) (kind : MemberKind) : List Subject → LocateM (Option Site)
  | [] => return none
  | s :: rest => do
    match s.file with
    | none => findDefinition root name kind rest
    | some file =>
      match ← definitionLine root s file name kind with
      | some line => return some (← siteAt root file line (shapeOf kind))
      | none => findDefinition root name kind rest

/-- The first declarative line with a comment that names a member along some subjects. -/
def findDeclarative (root name : String) : List Subject → LocateM (Option Site)
  | [] => return none
  | s :: rest => do
    match s.file with
    | none => findDeclarative root name rest
    | some file =>
      match ← declarativeLine root file name with
      | none => findDeclarative root name rest
      | some line =>
        let site ← siteAt root file line .statement
        if site.hasComment then return some site else findDeclarative root name rest

/-- The place that a reference gives itself, at a line of its own file or of its subject's. -/
def placedSite (root : String) (r : Reference) (context : Subject) (line : Nat) : LocateM Site :=
  match r.file <|> context.file with
  | some file => siteAt root file line (shapeOf r.kind)
  | none => throw (.noFile context.name)

/-- The definition of the member that a reference names, whose owner is `context`. -/
def locate (root : String) (registry : Registry) (r : Reference) (context : Subject) :
    LocateM Site := do
  match r.line with
  | some line => placedSite root r context line
  | none =>
    let lineage := registry.lineage context.name
    let definition ← findDefinition root r.name r.kind lineage
    match definition.filter Site.hasComment with
    | some site => return site
    | none =>
      let declarative ← if r.kind = .onInstance then findDeclarative root r.name lineage else pure none
      match declarative <|> definition with
      | some site => return site
      | none => throw (.undefined r.name context.name)

/-- The declaration of a subject. -/
def locateSubject (root : String) (s : Subject) : LocateM Site := do
  match s.file with
  | none => throw (.noFile s.name)
  | some file =>
    match s.line with
    | some line => siteAt root file line .block
    | none =>
      match declarationOf? (← outlineOf root file) s.name with
      | some d => siteAt root file d.line .block
      | none => throw (.undeclared s.name file)

end Locator

/-- A search as a step of a run; `reference` is named when it fails. -/
def LocateM.orMissing {α : Type} (reference : String) (search : LocateM α) : RunM α :=
  ExceptT.adapt (fun fault => .of (.sourceNotFound reference fault.message)) search

end DocWeave
