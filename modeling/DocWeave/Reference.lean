import DocWeave.Error
import DocWeave.Text.Blank
import DocWeave.Text.Search

/-!
# References to members

A reference names a member of a subject: `Owner#name` a member of its instances, `Owner.name` a member
of the subject itself, `Owner::NAME` a constant. The owner may be left out; then the member belongs to
the subject in whose documentation the reference is written.
-/

namespace DocWeave

open DocWeave.Text

/-- What a member belongs to. -/
inductive MemberKind where
  /-- The instances of the subject. -/
  | onInstance
  /-- The subject itself. -/
  | onClass
  /-- A constant of the subject. -/
  | constant
deriving DecidableEq, Repr, Inhabited

namespace MemberKind

/-- The mark between owner and name; a constant has none of its own. -/
def symbol : MemberKind → String
  | .onInstance => "#"
  | .onClass => "."
  | .constant => ""

/-- What stands between owner and name. -/
def separator : MemberKind → String
  | .constant => "::"
  | kind => kind.symbol

/-- The name of the kind. -/
def label : MemberKind → String
  | .onInstance => "instance"
  | .onClass => "class"
  | .constant => "constant"

end MemberKind

/-- Where a member comes from, seen from the subject that is documented. -/
inductive Visibility where
  /-- Named explicitly. -/
  | named
  /-- Declared on the subject. -/
  | native
  /-- Inherited. -/
  | inherited
deriving DecidableEq, Repr, Inhabited

/-- A reference to a member. -/
structure Reference where
  kind : MemberKind
  /-- The text of the reference. -/
  raw : String
  /-- The subject in whose documentation it is written. -/
  origin : String
  visibility : Visibility := .named
  file : Option String := none
  line : Option Nat := none
deriving Inhabited

/-- How a reference is to be read. -/
structure ReferenceOptions where
  /-- A text without `#` and `.` is a constant. -/
  allowConstant : Bool := false
  visibility : Visibility := .named
  file : Option String := none
  line : Option Nat := none

namespace Reference

/-- A character of an owner or a name. -/
def isPathChar (c : Char) : Bool :=
  c == ':' || c.isAlphanum || c == '_' || c == '!' || c == '?'

/-- The kind of a text: it contains the kind's mark and apart from it only characters of names. -/
def kindOf? (raw : List Char) (allowConstant : Bool) : Option MemberKind :=
  if raw.contains '#' && raw.all (fun c => isPathChar c || c == '#') then some .onInstance
  else if raw.contains '.' && raw.all (fun c => isPathChar c || c == '.') then some .onClass
  else if allowConstant && !raw.isEmpty then some .constant
  else none

/-- The name: what stands behind the last separator. -/
def name (r : Reference) : String :=
  String.ofList (afterLast r.kind.separator.toList r.raw.toList)

/-- The owner as written, if there is one. -/
def owner? (r : Reference) : Option String :=
  match splitLast? r.kind.separator.toList r.raw.toList with
  | some (front, _) => if front.isEmpty then none else some (String.ofList front)
  | none => none

/-- Reads a reference that is written in the documentation of `origin`. -/
def parse (text origin : String) (options : ReferenceOptions := {}) : Except Error Reference :=
  let raw := trim text.toList
  let refusal : Error := .of (.malformedReference (String.ofList raw))
  match kindOf? raw options.allowConstant with
  | none => .error refusal
  | some kind =>
    let r : Reference :=
      { kind, raw := String.ofList raw, origin, visibility := options.visibility,
        file := options.file, line := options.line }
    if r.name.isEmpty then .error refusal else .ok r

/-- The reference to a member of a subject. -/
def member (subject name : String) (kind : MemberKind) (visibility : Visibility) : Reference :=
  { kind, raw := subject ++ kind.separator ++ name, origin := subject, visibility }

/-- The reference tied to a place in a file. -/
def placed (r : Reference) (file : Option String) (line : Option Nat) : Reference :=
  { r with file, line }

/-- Two references are the same when kind and text agree. -/
def same (a b : Reference) : Bool := a.kind == b.kind && a.raw == b.raw

end Reference

end DocWeave
