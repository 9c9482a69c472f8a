import DocWeave.Reference
import DocWeave.Value.Basic

/-!
# Subjects

A subject is a class or module with its members and constants. A member is identified by its name and
kind; `Subject.upsert` adds a member or completes the one that is already there.
-/

namespace DocWeave

open DocWeave.Text

/-- The two kinds of subjects. -/
inductive SubjectKind where
  | classDecl
  | moduleDecl
deriving DecidableEq, Repr, Inhabited

/-- The word that declares a subject of the kind. -/
def SubjectKind.keyword : SubjectKind → String
  | .classDecl => "class"
  | .moduleDecl => "module"

/-- A documented member. -/
structure Member where
  name : String
  kind : MemberKind
  /-- The line of its definition, counted from one. -/
  line : Option Nat := none
  /-- A declared result, taken instead of evaluating the body. -/
  returns : Option Value := none
deriving Inhabited

/-- A constant with its value. -/
structure Constant where
  name : String
  value : Value
  line : Option Nat := none
deriving Inhabited

/-- A class or module that is documented. -/
structure Subject where
  /-- The full name, with `::` between its parts. -/
  name : String
  kind : SubjectKind := .classDecl
  /-- The defining file below the root of the project. -/
  file : Option String := none
  line : Option Nat := none
  parent : Option String := none
  includes : List String := []
  /-- The members in the order of their declaration. -/
  members : List Member := []
  constants : OrderedMap String Constant := []
  /-- Bindings of an instance whose members are evaluated. -/
  bootstrap : Bindings := []
  /-- Bindings that stand for what a member's body calls. -/
  stubs : Bindings := []
deriving Inhabited

/-- The member has this name and kind. -/
def Member.isCalled (m : Member) (name : String) (kind : MemberKind) : Bool :=
  m.name == name && m.kind == kind

/-- The parts of a name before and behind its last `::`, if it has one. -/
def splitNamespace? (name : String) : Option (String × String) :=
  (splitLast? "::".toList name.toList).map fun (front, leaf) =>
    (String.ofList front, String.ofList leaf)

/-- The parts of a name before and behind its last `::`; the first is empty for a top-level name. -/
def splitNamespace (name : String) : String × String := (splitNamespace? name).getD ("", name)

/-- A member with what a later declaration of it adds. -/
def Member.complete (old new : Member) : Member :=
  { old with line := new.line <|> old.line, returns := new.returns <|> old.returns }

/-- Adds a member at the end, or completes the one of the same name and kind where it stands. -/
def upsertMember (m : Member) : List Member → List Member
  | [] => [m]
  | old :: rest =>
    if old.isCalled m.name m.kind then old.complete m :: rest else old :: upsertMember m rest

namespace Subject

/-- The member of a name and kind. -/
def member? (s : Subject) (name : String) (kind : MemberKind) : Option Member :=
  s.members.find? (·.isCalled name kind)

/-- Adds a member or completes it. -/
def upsert (s : Subject) (m : Member) : Subject := { s with members := upsertMember m s.members }

/-- The last part of the name. -/
def leafName (s : Subject) : String := (splitNamespace s.name).2

end Subject

end DocWeave
