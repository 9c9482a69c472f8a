import DocWeave.Error
import DocWeave.Expr.Eval
import DocWeave.Expr.Parser
import DocWeave.Template.Segment

/-!
# Expanding templates

The tags of a template are evaluated one after the other; variables that a statement tag sets are known
in the tags behind it. A failure is marked with the line of the source on which its tag stands.
-/

namespace DocWeave.Template

open DocWeave.Text

/-- Where a template comes from. -/
structure Origin where
  file : String
  /-- The line of the file on which the template begins. -/
  line : Nat
  /-- The member or subject that it documents. -/
  member : String
  /-- What the placeholder stands for. -/
  reference : String
deriving DecidableEq, Repr, Inhabited

/-- The name that stands for the reference of the documented member. -/
def placeholder : String := "__method__"

/-- The place of a tag: `offset` line ends stand before it in the template. -/
def Origin.frame (o : Origin) (offset : Nat) : String :=
  s!"{o.file}:{o.line + offset}:in `{o.member}'"

/-- A template with the placeholder filled in. -/
def fillPlaceholder (template reference : String) : String :=
  String.ofList (replace placeholder.toList (("'" ++ reference ++ "'").toList) template.toList)

variable {m : Type → Type} [Monad m]

/-- A step whose failures are marked with a place. -/
def framed {α : Type} (frame : String) (step : ExceptT Error m α) : ExceptT Error m α :=
  ExceptT.adapt (Error.withFrame frame) step

/-- The value of an output tag. -/
def output (env : Env (ExceptT Error m)) (locals : Bindings) (code : String) :
    ExceptT Error m Value :=
  match Expr.parse code with
  | .error fault => throw (.ofEval (.malformed fault))
  | .ok e => e.eval env locals

/-- The local variables behind a statement tag. -/
def execute (env : Env (ExceptT Error m)) (locals : Bindings) (code : String) :
    ExceptT Error m Bindings :=
  match Program.parse code with
  | .error fault => throw (.ofEval (.malformed fault))
  | .ok program => ExceptT.mk do
    let (outcome, locals) ← (Program.run env .nil program).run.run locals
    return outcome.map fun _ => locals

/-- The text of the segments. -/
def expand (origin : Origin) (env : Env (ExceptT Error m)) (locals : Bindings) :
    List Segment → ExceptT Error m String
  | [] => return ""
  | .text s :: rest => do return s ++ (← expand origin env locals rest)
  | .output code line :: rest => do
    let v ← framed (origin.frame line) (output env locals code)
    return v.display ++ (← expand origin env locals rest)
  | .exec code line :: rest => do
    let locals ← framed (origin.frame line) (execute env locals code)
    expand origin env locals rest

/-- The text of a template. -/
def render (origin : Origin) (env : Env (ExceptT Error m)) (template : String) :
    ExceptT Error m String :=
  match scan (fillPlaceholder template origin.reference) with
  | .error e => throw ((Error.ofEval e).withFrame (origin.frame 0))
  | .ok segments => expand origin env [] segments

end DocWeave.Template
