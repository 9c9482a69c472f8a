import DocWeave.Outline.Extent
import DocWeave.Outline.Literal
import DocWeave.Text.Lines

/-!
# The outline of a source file

A line-oriented scan that finds the classes and modules of a file with their members, constants and
mixins. Blocks are matched by indentation; bodies of methods are skipped as a whole. `Scan` is the
state between two lines: the declarations found so far, in order, and the blocks that are open, the
innermost first.
-/

namespace DocWeave.Outline

open DocWeave.Text

/-- A class or module found in a file. -/
structure Declaration where
  name : String
  kind : SubjectKind
  parent : Option String
  includes : List String := []
  /-- The line of its head, counted from one. -/
  line : Nat
  /-- The line of its `end`. -/
  endLine : Nat
  members : List Member := []
  constants : List Constant := []
deriving Inhabited

/-- An open block: that of a declaration, or one that defines members of the subject itself. -/
inductive Frame where
  | declaration (index : Nat) (indent : Nat)
  | singleton (indent : Nat)
deriving DecidableEq, Repr

/-- The indentation of an open block. -/
def Frame.indent : Frame → Nat
  | .declaration _ n => n
  | .singleton n => n

/-- The declaration that a block belongs to, if it is one of a declaration. -/
def Frame.index? : Frame → Option Nat
  | .declaration i _ => some i
  | .singleton _ => none

/-- A block that defines members of the subject itself. -/
def Frame.isSingleton : Frame → Bool
  | .singleton _ => true
  | .declaration _ _ => false

/-- The state of a scan. -/
structure Scan where
  found : List Declaration := []
  stack : List Frame := []

namespace Scan

/-- Changes one of the declarations. -/
def update (s : Scan) (i : Nat) (f : Declaration → Declaration) : Scan :=
  { s with found := s.found.modify i f }

/-- The innermost declaration that is open. -/
def current? (s : Scan) : Option Nat := s.stack.findSome? Frame.index?

/-- The innermost open block defines members of the subject itself. -/
def inSingleton (s : Scan) : Bool := s.stack.head?.any Frame.isSingleton

/-- Opens a block, unless its line closes it again. -/
def enter (s : Scan) (line : List Char) (frame : Frame) : Scan :=
  if closesItself line then s else { s with stack := frame :: s.stack }

/-- The word `end`: closes the innermost block if that has the same indentation. -/
def close (s : Scan) (indent lineNo : Nat) : Scan :=
  match s.stack with
  | frame :: rest =>
    if frame.indent = indent then
      let s := { s with stack := rest }
      match frame.index? with
      | some i => s.update i fun d => { d with endLine := lineNo }
      | none => s
    else s
  | [] => s

/-- The full name of a subject that is declared inside another one. -/
def qualify (s : Scan) (declared : String) : String :=
  match after? "::".toList declared.toList, s.current? with
  | some absolute, _ => String.ofList absolute
  | none, some i =>
    match s.found[i]? with
    | some outer => outer.name ++ "::" ++ declared
    | none => declared
  | none, none => declared

/-- The head of a class or module. -/
def declare (s : Scan) (head : SubjectHead) (line : List Char) (indent lineNo : Nat) : Scan :=
  let d : Declaration :=
    { name := s.qualify head.name, kind := head.kind, parent := head.parent, line := lineNo,
      endLine := lineNo }
  { s with found := s.found ++ [d] }.enter line (.declaration s.found.length indent)

/-- The head of a method: a member of this name and kind moves to the line, or is added. A method that
assigns is no member. -/
def define (s : Scan) (owner : Nat) (head : MethodHead) (lineNo : Nat) : Scan :=
  let kind := if head.onSelf || s.inSingleton then MemberKind.onClass else .onInstance
  if head.name.toList.getLast? = some '=' then s
  else s.update owner fun d =>
    { d with members := upsertMember { name := head.name, kind, line := some lineNo } d.members }

/-- Adds a declared member, unless a member of that name is there. -/
def addDeclared (lineNo : Nat) (members : List Member) (name : String) : List Member :=
  if members.any (·.name == name) then members
  else members ++ [{ name, kind := .onInstance, line := some lineNo }]

end Scan

/-- Goes through the lines that follow line `lineNo`. -/
def scanLines (s : Scan) (lineNo : Nat) (lines : List (List Char)) : Scan :=
  match lines with
  | [] => s
  | raw :: rest =>
    let lineNo := lineNo + 1
    let indent := indentation raw
    let line := trim raw
    if line.isEmpty || line.head? == some '#' then scanLines s lineNo rest
    else if isEnd line then scanLines (s.close indent lineNo) lineNo rest
    else if isSingletonHead line then
      scanLines (s.enter line (.singleton indent)) lineNo rest
    else match subjectHead? line with
      | some head => scanLines (s.declare head line indent lineNo) lineNo rest
      | none =>
        match s.current? with
        | none => scanLines s lineNo rest
        | some owner =>
          match methodHead? line with
          | some head =>
            let skipped := blockExtent raw rest
            scanLines (s.define owner head lineNo) (lineNo + skipped) (rest.drop skipped)
          | none =>
            match constantHead? line with
            | some (name, text) =>
              let (full, skipped) := gather (trim text) rest
              let constant : Constant :=
                { name := String.ofList name, value := literalValue (String.ofList full),
                  line := some lineNo }
              let s := s.update owner fun d => { d with constants := d.constants ++ [constant] }
              scanLines s (lineNo + skipped) (rest.drop skipped)
            | none =>
              match includedNames? line with
              | some names =>
                let s := s.update owner fun d => { d with includes := d.includes ++ names }
                scanLines s lineNo rest
              | none =>
                match declaration? line with
                | some (word, args) =>
                  let names := declaredNames word args
                  let s := s.update owner fun d =>
                    { d with members := names.foldl (Scan.addDeclared lineNo) d.members }
                  scanLines s lineNo rest
                | none => scanLines s lineNo rest
termination_by lines.length
decreasing_by
  all_goals simp only [List.length_cons, List.length_drop]; omega

/-- The declarations in the given lines, in order of appearance. -/
def ofLines (lines : List (List Char)) : List Declaration := (scanLines {} 0 lines).found

/-- The declarations of a source text, in order of appearance. -/
def ofSource (source : String) : List Declaration := ofLines (lines source.toList)

end DocWeave.Outline
