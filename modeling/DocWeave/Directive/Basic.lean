import DocWeave.Workspace

/-!
# Directives

A directive is a named operation that a template may call. It sees the subject whose documentation is
made and the member that is documented, if any. Directives are found in a catalogue by name; one that is
added later takes the place of an earlier one of the same name.
-/

namespace DocWeave

open DocWeave.Text

/-- What a directive sees. -/
structure Context where
  workspace : Workspace
  subject : Subject
  /-- The member that is being documented. -/
  current : Option Reference := none
  /-- The expanded doc block of another member. -/
  blockOf : Reference → RunM String

/-- A named operation of templates. -/
abbrev Directive := Context → Args → RunM Value

/-- Directives by name. -/
abbrev Catalogue := OrderedMap String Directive

namespace Context

/-- A reference that is written in the subject's documentation. -/
def reference (ctx : Context) (text : String) : RunM Reference :=
  RunM.ofExcept (Reference.parse text ctx.subject.name)

/-- The member that is being documented; `callee` is named when there is none. -/
def currentMember (ctx : Context) (callee : String) : RunM Reference :=
  match ctx.current with
  | some r => pure r
  | none => throw (.ofEval (.noCurrentMember callee))

/-- The reference in the first argument; without arguments the member that is being documented. -/
def referenceIn (ctx : Context) (args : Args) (callee : String) : RunM Reference := do
  if args.positional.isEmpty then ctx.currentMember callee
  else ctx.reference (← RunM.ofEval (args.text 0 callee))

/-- The lines between the first and the last line of a definition, without indentation. -/
def innerText (body : List Char) : List Char :=
  joinLines (((lines body).drop 1).dropLast.map trimStart)

/-- The source of a member without its first and last line. -/
def sourceOf (ctx : Context) (r : Reference) : RunM String := do
  let site ← ctx.workspace.locate r
  return String.ofList (innerText site.body.toList)

/-- The name is a member of the subject's instances. -/
def isMember (ctx : Context) (name : String) : Bool :=
  ctx.workspace.registry.hasInstanceMember ctx.subject.name name

/-- The value of the constant that a path means in the subject. -/
def constant? (ctx : Context) (path : String) : Option Value :=
  (ctx.workspace.registry.constantAt? ctx.subject.name path).map (·.value)

end Context

end DocWeave
