import DocWeave.Expr.Eval
import DocWeave.Expr.Parser
import DocWeave.Locator

/-!
# Evaluating members

The value of a member is the result declared for it, or else what its body evaluates to. The names in a
body are bound by the subject's stubs and, for a member of instances, by its bootstrap. When a body
meets a name that is not bound, it is given up, the member of that name is evaluated, its value is bound
to the name, and the body is begun anew. Depth and number of such restarts are bounded.
-/

namespace DocWeave

open DocWeave.Text

/-- What keeps a member from being evaluated. -/
inductive Obstacle where
  | nestedTooDeep (limit : Nat)
  | tooManyNames (limit : Nat)
  | unknownName (name subject : String)
  | notLocated (fault : LocateFault)
  | malformed (fault : Expr.SyntaxError)
  | argumentsGiven (name : String)
  | unknownConstant (path : String)
  | needsHost (path method : String)

/-- The wording of an obstacle. -/
def Obstacle.message : Obstacle → String
  | .nestedTooDeep limit => s!"nesting deeper than {limit} evaluations"
  | .tooManyNames limit => s!"gave up after stubbing {limit} collaborators"
  | .unknownName name subject => s!"`{name}` is neither bound nor a member of {subject}"
  | .notLocated fault => fault.message
  | .malformed fault => fault.message
  | .argumentsGiven name => s!"cannot call `{name}` with arguments"
  | .unknownConstant path => s!"uninitialized constant {path}"
  | .needsHost path method => s!"cannot call `{path}.{method}` outside the host runtime"

/-- Why the evaluation of a body stops short. -/
inductive Halt where
  /-- A name is not bound. -/
  | unbound (name : String)
  | blocked (obstacle : Obstacle)
  | failed (e : EvalError)

namespace Sandbox

/-- At most so many names are bound on demand for one member. -/
def nameLimit : Nat := 32

/-- Members are evaluated for each other at most so deep. -/
def depthLimit : Nat := 8

/-! ## Bodies -/

/-- The body of a definition on one line: between the first semicolon and `; end`, or behind `=`. -/
def lineBody (line : List Char) : List Char :=
  let closed := do
    let s ← before? ['e', 'n', 'd'] line
    let s ← before? [';'] (trimEnd s)
    splitFirst? [';'] s
  match closed with
  | some (_, body) => trim body
  | none => trim ((Outline.equationText? line).getD [])

/-- The statements of a definition: what stands between its first and its last line. -/
def executableBody (source : List Char) : List Char :=
  match (lines source).map trim with
  | [] => []
  | [line] => lineBody line
  | _ :: inner => joinLines inner.dropLast

/-- What names mean in a body. -/
def bodyEnv (registry : Registry) (s : Subject) (bindings : Bindings) : Env (ExceptT Halt Id) where
  call name args :=
    match bindings.get? name with
    | some v => pure v
    | none =>
      if (args.getD {}).isEmpty then throw (.unbound name)
      else throw (.blocked (.argumentsGiven name))
  constant path :=
    match registry.constantAt? s.name path with
    | some c => pure c.value
    | none => throw (.blocked (.unknownConstant path))
  callOnConstant path method _ := throw (.blocked (.needsHost path method))
  settle outcome := ExceptT.mk (outcome.mapError Halt.failed)

/-- The value of a body. -/
def runBody (registry : Registry) (s : Subject) (bindings : Bindings) (body : String) :
    Except Halt Value :=
  match Program.parse body with
  | .error fault => .error (.blocked (.malformed fault))
  | .ok program => ((Program.run (bodyEnv registry s bindings) .nil program).run []).1

/-- The result declared for the member that a reference names. -/
def declaredResult? (registry : Registry) (s : Subject) (r : Reference) : Option Value :=
  (registry.findMember? s.name r.name r.kind).bind fun (_, m) => m.returns

/-- Evaluates a member once, with fixed bindings. -/
def invoke (root : String) (registry : Registry) (s : Subject) (r : Reference) (bindings : Bindings) :
    SessionT Halt Value :=
  match declaredResult? registry s r with
  | some v => pure v
  | none => do
    let site ← ExceptT.adapt (fun fault => .blocked (.notLocated fault))
      (Locator.locate root registry r s)
    let body := String.ofList (executableBody site.body.toList)
    ExceptT.mk (pure (runBody registry s bindings body))

/-! ## Names bound on demand -/

/-- An obstacle as a failure of a run. -/
def refusal (r : Reference) (obstacle : Obstacle) : Error := .of (.invoke r.raw obstacle.message)

/-- The member that a name stands for in a body: one of the instances, or else one of the subject. -/
def collaborator? (registry : Registry) (s : Subject) (name : String) : Option Reference :=
  ([MemberKind.onInstance, .onClass].find? fun kind =>
    (registry.findMember? s.name name kind).isSome).map fun kind =>
      Reference.member s.name name kind .named

/-- Evaluates a member with some bindings and, for each name that is not bound, binds the value of the
member of that name and begins anew; at most `left` names are bound so. -/
def restart (root : String) (registry : Registry) (s : Subject) (r : Reference)
    (collaborate : Reference → RunM Value) (left : Nat) (bindings : Bindings) : RunM Value := do
  match ← (invoke root registry s r bindings).run with
  | .ok v => return v
  | .error (.failed e) => throw (.ofEval e)
  | .error (.blocked obstacle) => throw (refusal r obstacle)
  | .error (.unbound name) =>
    match left with
    | 0 => throw (refusal r (.tooManyNames nameLimit))
    | left + 1 =>
      match collaborator? registry s name with
      | none => throw (refusal r (.unknownName name s.name))
      | some other =>
        let v ← collaborate other
        restart root registry s r collaborate left (bindings.insert name v)

/-- The bindings with which the evaluation of a member begins. -/
def startBindings (s : Subject) (kind : MemberKind) : Bindings :=
  if kind = .onInstance then s.bootstrap.foldl (fun bs (k, v) => bs.insert k v) s.stubs else s.stubs

/-- Evaluates a member and the members it needs, at most `levels` deep. -/
def evaluateWithin (root : String) (registry : Registry) (s : Subject) :
    (levels : Nat) → Reference → RunM Value
  | 0, r => throw (refusal r (.nestedTooDeep depthLimit))
  | levels + 1, r =>
    restart root registry s r (evaluateWithin root registry s levels) nameLimit
      (startBindings s r.kind)

/-- The value of the member of a subject that a reference names. -/
def evaluate (root : String) (registry : Registry) (s : Subject) (r : Reference) : RunM Value :=
  evaluateWithin root registry s (depthLimit + 1) r

end Sandbox

end DocWeave
