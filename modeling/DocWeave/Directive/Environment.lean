import DocWeave.Directive.Basic
import DocWeave.Template.Render

/-!
# What names mean in templates

A name is a directive, or else a member of the subject itself. A constant is one that the subject sees,
or else another subject. A doc block may include those of other members; how deep is bounded.
-/

namespace DocWeave

/-- Doc blocks include each other at most so deep. -/
def includeLimit : Nat := 16

namespace Context

/-- Calls a name. -/
def call (catalogue : Catalogue) (ctx : Context) (name : String) (args : Option Args) : RunM Value :=
  match catalogue.get? name with
  | some directive => directive ctx (args.getD {})
  | none =>
    if (ctx.workspace.registry.findMember? ctx.subject.name name .onClass).isSome then
      ctx.workspace.evaluate (Reference.member ctx.subject.name name .onClass .named)
    else throw (.ofEval (.undefinedName name ctx.subject.name))

/-- Looks up a constant. -/
def constant (ctx : Context) (path : String) : RunM Value :=
  match ctx.constant? path with
  | some v => pure v
  | none =>
    match ctx.workspace.registry.resolve? path ctx.subject.name with
    | some s => pure (.str s.name)
    | none => throw (.ofEval (.uninitializedConstant path))

/-- Calls a method of a subject; its name is known without evaluating anything. -/
def callOnConstant (ctx : Context) (path method : String) (args : Args) : RunM Value :=
  match ctx.workspace.registry.resolve? path ctx.subject.name with
  | none => throw (.ofEval (.uninitializedConstant path))
  | some s =>
    if (method == "name" || method == "to_s") && args.isEmpty then pure (.str s.name)
    else ctx.workspace.evaluate (Reference.member s.name method .onClass .named)

/-- What names mean in the templates of a subject. -/
def env (catalogue : Catalogue) (ctx : Context) : Env RunM where
  call := ctx.call catalogue
  constant := ctx.constant
  callOnConstant := ctx.callOnConstant
  settle outcome := RunM.ofEval outcome

end Context

/-- The origin of the doc block of a member. -/
def blockOrigin (site : Site) (block : DocBlock) (r : Reference) : Template.Origin :=
  { file := site.file, line := block.line, member := r.name, reference := r.raw }

namespace Workspace

/-- The doc block of a member, expanded with its own subject and itself as the current member. It may
include others `levels` deep. -/
def blockOf (w : Workspace) (catalogue : Catalogue) : (levels : Nat) → Reference → RunM String
  | 0, r => throw (.ofEval (.nestedTooDeep includeLimit r.raw))
  | levels + 1, r => do
    let owner ← w.ownerOf r
    let site ← w.locate r
    let block := site.docBlock w.tokens
    if block.isEmpty then return ""
    let ctx : Context :=
      { workspace := w, subject := owner, current := some (r.placed (some site.file) (some site.line)),
        blockOf := w.blockOf catalogue levels }
    Template.render (blockOrigin site block r) (ctx.env catalogue) block.text

/-- The context of a subject's documentation. -/
def context (w : Workspace) (catalogue : Catalogue) (s : Subject) (current : Option Reference) :
    Context :=
  { workspace := w, subject := s, current, blockOf := w.blockOf catalogue includeLimit }

end Workspace

end DocWeave
