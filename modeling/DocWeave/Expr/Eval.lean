import DocWeave.Expr.Basic
import DocWeave.Value.Method

/-!
# Evaluating expressions and programs

What names and constants mean is the environment's affair: `Env` says how a name, a constant and a
method of a constant are looked up, and how a failure of the evaluation itself is reported. The
evaluator owns the operators and the local variables. An expression never changes a local variable;
only an assignment does.
-/

namespace DocWeave

/-- The arguments of a call, evaluated. -/
structure Args where
  positional : List Value := []
  keywords : Bindings := []
deriving Inhabited

namespace Args

/-- No argument at all. -/
def isEmpty (a : Args) : Bool := a.positional.isEmpty && a.keywords.isEmpty

/-- The text of a positional argument, if it is there and has one. -/
def text? (a : Args) (i : Nat) : Option String := a.positional[i]?.bind Value.text?

/-- The text of a positional argument that must be there; `callee` is named in the refusal. -/
def text (a : Args) (i : Nat) (callee : String) : Except EvalError String :=
  match a.positional[i]? with
  | some v =>
    match v.text? with
    | some s => .ok s
    | none => .error (.argumentNotText callee (i + 1) v.typeName)
  | none => .error (.tooFewArguments callee a.positional.length (i + 1))

/-- The options: the keywords, or else a hash in the last place. -/
def options (a : Args) : Bindings :=
  if a.keywords.isEmpty then
    match a.positional.getLast? with
    | some (.hash entries) => entries
    | _ => []
  else a.keywords

/-- One option. -/
def option? (a : Args) (name : String) : Option Value := OrderedMap.get? a.options name

/-- An option that counts as true or false. -/
def flag (a : Args) (name : String) (default : Bool) : Bool :=
  ((a.option? name).map Value.truthy).getD default

end Args

/-- What names mean, in a monad of the environment's choice. -/
structure Env (m : Type → Type) where
  /-- A name, without arguments or with a list of them. -/
  call : String → Option Args → m Value
  /-- A constant by its path. -/
  constant : String → m Value
  /-- A method of what a constant names. -/
  callOnConstant : String → String → Args → m Value
  /-- The outcome of an operation of the evaluator itself. -/
  settle : Except EvalError Value → m Value

namespace Expr

/-- An operation on two evaluated operands. -/
def applyBinary (op : BinaryOp) (a b : Value) : Except EvalError Value :=
  match op with
  | .add => a.add b
  | .sub => a.sub b
  | .mul => a.mul b
  | .eq => .ok (.bool (a.equal b))
  | .ne => .ok (.bool (!a.equal b))
  | .lt => (a.compare b).map fun o => .bool (o == .lt)
  | .gt => (a.compare b).map fun o => .bool (o == .gt)
  | .le => (a.compare b).map fun o => .bool (o != .gt)
  | .ge => (a.compare b).map fun o => .bool (o != .lt)
  | .and | .or => .ok b

/-- The left operand settles `&&` when it counts as false and `||` when it counts as true. -/
def shortCircuits (op : BinaryOp) (a : Value) : Bool :=
  match op with
  | .and => !a.truthy
  | .or => a.truthy
  | _ => false

/-- The key of a hash entry: the text of a string or symbol, and of other values what a template
would insert. -/
def hashKey (v : Value) : String := v.text?.getD v.display

/-- The items that a spread argument stands for. -/
def spread : Value → List Value
  | .array items => items
  | .nil => []
  | v => [v]

variable {m : Type → Type} [Monad m]

mutual

/-- The value of an expression. -/
def eval (env : Env m) (locals : Bindings) : Expr → m Value
  | .lit v => pure v
  | .array items => do return .array (← evalItems env locals items)
  | .hash entries => do return .hash (← evalEntries env locals [] entries)
  | .var name =>
    match OrderedMap.get? locals name with
    | some v => pure v
    | none => env.call name none
  | .call name args => do env.call name (some (← evalArgs env locals {} args))
  | .const path => env.constant path
  | .constCall path method args => do
    env.callOnConstant path method (← evalArgs env locals {} args)
  | .send receiver method args => do
    let v ← eval env locals receiver
    let args ← evalArgs env locals {} args
    env.settle (v.send method args.positional)
  | .index receiver place => do
    let v ← eval env locals receiver
    let i ← eval env locals place
    env.settle (v.index i)
  | .neg operand => do env.settle (← eval env locals operand).neg
  | .not operand => do return .bool !(← eval env locals operand).truthy
  | .binary op lhs rhs => do
    let a ← eval env locals lhs
    if shortCircuits op a then return a
    let b ← eval env locals rhs
    env.settle (applyBinary op a b)

/-- The values of the items of an array. -/
def evalItems (env : Env m) (locals : Bindings) : List Expr → m (List Value)
  | [] => pure []
  | e :: es => do
    let v ← eval env locals e
    return v :: (← evalItems env locals es)

/-- The entries of a hash, put into `done` one after the other. -/
def evalEntries (env : Env m) (locals : Bindings) (done : Bindings) :
    List (Expr × Expr) → m Bindings
  | [] => pure done
  | (key, e) :: rest => do
    let k ← eval env locals key
    let v ← eval env locals e
    evalEntries env locals (done.insert (hashKey k) v) rest

/-- The arguments of a call, put into `done` one after the other. -/
def evalArgs (env : Env m) (locals : Bindings) (done : Args) : List Arg → m Args
  | [] => pure done
  | .positional e :: rest => do
    let v ← eval env locals e
    evalArgs env locals { done with positional := done.positional ++ [v] } rest
  | .splat e :: rest => do
    let v ← eval env locals e
    evalArgs env locals { done with positional := done.positional ++ spread v } rest
  | .keyword key e :: rest => do
    let v ← eval env locals e
    evalArgs env locals { done with keywords := done.keywords.insert key v } rest

end

end Expr

namespace Program

variable {ε : Type} {m : Type → Type} [Monad m]

/-- Evaluates an expression where the local variables are the state. -/
def evalLocal (env : Env (ExceptT ε m)) (e : Expr) : ExceptT ε (StateT Bindings m) Value :=
  ExceptT.mk fun locals => do
    let outcome ← (Expr.eval env locals e).run
    return (outcome, locals)

/-- Sets a local variable. -/
def setLocal (name : String) (v : Value) : ExceptT ε (StateT Bindings m) Unit :=
  ExceptT.mk fun locals => pure (.ok (), locals.insert name v)

/-- Runs the statements one after the other. The value is that of the last statement, or `value` if
there is none. The state outlives a failure: what was assigned before it stays assigned. -/
def run (env : Env (ExceptT ε m)) (value : Value) : Program → ExceptT ε (StateT Bindings m) Value
  | [] => pure value
  | .assign name e :: rest => do
    let v ← evalLocal env e
    setLocal name v
    run env v rest
  | .expr e :: rest => do
    let v ← evalLocal env e
    run env v rest

end Program

end DocWeave
