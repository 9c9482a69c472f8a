import DocWeave.Expr.Eval

/-!
# Evaluation in related environments

The evaluator uses its monad only through `pure` and `bind` and meets the outside only through its
environment. So whatever relation between the computations of two monads is kept by `pure` and `bind`
and holds between two environments holds between evaluations in them, of expressions
(`related_eval`) and of programs, whatever is made of their end (`related_finish`). Facts about
evaluation that do not depend on what the operators do are instances of these two.
-/

namespace DocWeave

variable {m n : Type → Type} [Monad m] [Monad n]

/-- A relation between the computations of two monads that is kept by `pure` and `bind`. -/
structure IsRelation (R : ∀ {α : Type}, m α → n α → Prop) : Prop where
  pure : ∀ {α : Type} (a : α), R (pure a) (pure a)
  bind : ∀ {α β : Type} {x : m α} {y : n α} {f : α → m β} {g : α → n β},
    R x y → (∀ a, R (f a) (g a)) → R (x >>= f) (y >>= g)

/-- Two environments answer every question with related computations. -/
structure Env.Related (R : ∀ {α : Type}, m α → n α → Prop) (env : Env m) (env' : Env n) : Prop where
  call : ∀ name args, R (env.call name args) (env'.call name args)
  constant : ∀ path, R (env.constant path) (env'.constant path)
  callOnConstant : ∀ path method args,
    R (env.callOnConstant path method args) (env'.callOnConstant path method args)
  settle : ∀ outcome, R (env.settle outcome) (env'.settle outcome)

namespace Expr

variable {R : ∀ {α : Type}, m α → n α → Prop} {env : Env m} {env' : Env n}

mutual

/-- An expression has related values in related environments. -/
theorem related_eval (hR : IsRelation @R) (henv : Env.Related @R env env') (locals : Bindings) :
    ∀ e : Expr, R (eval env locals e) (eval env' locals e)
  | .lit v => by
    rw [eval, eval]
    exact hR.pure v
  | .array items => by
    rw [eval, eval]
    exact hR.bind (related_evalItems hR henv locals items) fun _ => hR.pure _
  | .hash entries => by
    rw [eval, eval]
    exact hR.bind (related_evalEntries hR henv locals [] entries) fun _ => hR.pure _
  | .var name => by
    rw [eval, eval]
    split
    · exact hR.pure _
    · exact henv.call name none
  | .call name args => by
    rw [eval, eval]
    exact hR.bind (related_evalArgs hR henv locals {} args) fun _ => henv.call name _
  | .const path => by
    rw [eval, eval]
    exact henv.constant path
  | .constCall path method args => by
    rw [eval, eval]
    exact hR.bind (related_evalArgs hR henv locals {} args) fun _ => henv.callOnConstant path method _
  | .send receiver method args => by
    rw [eval, eval]
    refine hR.bind (related_eval hR henv locals receiver) fun v => ?_
    exact hR.bind (related_evalArgs hR henv locals {} args) fun _ => henv.settle _
  | .index receiver place => by
    rw [eval, eval]
    refine hR.bind (related_eval hR henv locals receiver) fun v => ?_
    exact hR.bind (related_eval hR henv locals place) fun _ => henv.settle _
  | .neg operand => by
    rw [eval, eval]
    exact hR.bind (related_eval hR henv locals operand) fun _ => henv.settle _
  | .not operand => by
    rw [eval, eval]
    exact hR.bind (related_eval hR henv locals operand) fun _ => hR.pure _
  | .binary op lhs rhs => by
    rw [eval, eval]
    refine hR.bind (related_eval hR henv locals lhs) fun a => ?_
    split
    · exact hR.pure _
    · exact hR.bind (related_eval hR henv locals rhs) fun _ => henv.settle _

theorem related_evalItems (hR : IsRelation @R) (henv : Env.Related @R env env')
    (locals : Bindings) : ∀ items : List Expr,
      R (evalItems env locals items) (evalItems env' locals items)
  | [] => by
    rw [evalItems, evalItems]
    exact hR.pure _
  | first :: rest => by
    rw [evalItems, evalItems]
    refine hR.bind (related_eval hR henv locals first) fun _ => ?_
    exact hR.bind (related_evalItems hR henv locals rest) fun _ => hR.pure _

theorem related_evalEntries (hR : IsRelation @R) (henv : Env.Related @R env env')
    (locals done : Bindings) : ∀ entries : List (Expr × Expr),
      R (evalEntries env locals done entries) (evalEntries env' locals done entries)
  | [] => by
    rw [evalEntries, evalEntries]
    exact hR.pure _
  | (key, value) :: rest => by
    rw [evalEntries, evalEntries]
    refine hR.bind (related_eval hR henv locals key) fun _ => ?_
    refine hR.bind (related_eval hR henv locals value) fun _ => ?_
    exact related_evalEntries hR henv locals _ rest

theorem related_evalArgs (hR : IsRelation @R) (henv : Env.Related @R env env')
    (locals : Bindings) (done : Args) : ∀ args : List Arg,
      R (evalArgs env locals done args) (evalArgs env' locals done args)
  | [] => by
    rw [evalArgs, evalArgs]
    exact hR.pure _
  | .positional e :: rest => by
    rw [evalArgs, evalArgs]
    exact hR.bind (related_eval hR henv locals e) fun _ => related_evalArgs hR henv locals _ rest
  | .splat e :: rest => by
    rw [evalArgs, evalArgs]
    exact hR.bind (related_eval hR henv locals e) fun _ => related_evalArgs hR henv locals _ rest
  | .keyword key e :: rest => by
    rw [evalArgs, evalArgs]
    exact hR.bind (related_eval hR henv locals e) fun _ => related_evalArgs hR henv locals _ rest

end

end Expr

namespace Program

variable {ε ε' α : Type}

/-- The value of a program that begins with some local variables. -/
def valueOf (env : Env (ExceptT ε m)) (locals : Bindings) (value : Value) (program : Program) :
    ExceptT ε m Value :=
  ExceptT.mk do return (← (run env value program).run.run locals).1

/-- What is made of the value and the local variables with which a program ends. -/
def finish (env : Env (ExceptT ε m)) (result : Value → Bindings → α) (locals : Bindings)
    (value : Value) (program : Program) : ExceptT ε m α :=
  ExceptT.mk do
    let (outcome, locals) ← (run env value program).run.run locals
    return outcome.map fun v => result v locals

theorem run_evalLocal (env : Env (ExceptT ε m)) (locals : Bindings) (e : Expr) :
    (evalLocal env e).run.run locals =
      (Expr.eval env locals e).run >>= fun outcome => pure (outcome, locals) := rfl

theorem run_setLocal (name : String) (v : Value) (locals : Bindings) :
    (setLocal name v : ExceptT ε (StateT Bindings m) Unit).run.run locals =
      pure (.ok (), locals.insert name v) := rfl

theorem valueOf_eq_finish (env : Env (ExceptT ε m)) (locals : Bindings) (value : Value)
    (program : Program) : valueOf env locals value program =
      finish env (fun v _ => v) locals value program := by
  apply ExceptT.ext
  simp only [valueOf, finish, ExceptT.run_mk]
  refine bind_congr fun o => ?_
  cases o.1 <;> rfl

section

variable [LawfulMonad m]

theorem finish_nil (env : Env (ExceptT ε m)) (result : Value → Bindings → α) (locals : Bindings)
    (value : Value) : finish env result locals value [] = pure (result value locals) := by
  apply ExceptT.ext
  simp only [finish, run, ExceptT.run_pure, StateT.run_pure, pure_bind, ExceptT.run_mk]
  rfl

theorem finish_assign (env : Env (ExceptT ε m)) (result : Value → Bindings → α) (locals : Bindings)
    (value : Value) (name : String) (e : Expr) (rest : Program) :
    finish env result locals value (.assign name e :: rest) =
      Expr.eval env locals e >>= fun v => finish env result (locals.insert name v) v rest := by
  apply ExceptT.ext
  simp only [finish, run, ExceptT.run_mk, ExceptT.run_bind, StateT.run_bind, run_evalLocal,
    bind_assoc, pure_bind]
  refine bind_congr fun outcome => ?_
  cases outcome with
  | error _ =>
    simp only [StateT.run_pure, pure_bind]
    rfl
  | ok v => simp only [StateT.run_bind, run_setLocal, pure_bind]

theorem finish_expr (env : Env (ExceptT ε m)) (result : Value → Bindings → α) (locals : Bindings)
    (value : Value) (e : Expr) (rest : Program) :
    finish env result locals value (.expr e :: rest) =
      Expr.eval env locals e >>= fun v => finish env result locals v rest := by
  apply ExceptT.ext
  simp only [finish, run, ExceptT.run_mk, ExceptT.run_bind, StateT.run_bind, run_evalLocal,
    bind_assoc, pure_bind]
  refine bind_congr fun outcome => ?_
  cases outcome with
  | error _ =>
    simp only [StateT.run_pure, pure_bind]
    rfl
  | ok v => rfl

theorem valueOf_expr (env : Env (ExceptT ε m)) (locals : Bindings) (value : Value) (e : Expr)
    (rest : Program) :
    valueOf env locals value (.expr e :: rest) =
      Expr.eval env locals e >>= fun v => valueOf env locals v rest := by
  simp only [valueOf_eq_finish, finish_expr]

end

variable [LawfulMonad m] [LawfulMonad n] {R : ∀ {α : Type}, ExceptT ε m α → ExceptT ε' n α → Prop}
  {env : Env (ExceptT ε m)} {env' : Env (ExceptT ε' n)}

/-- A program ends alike in related environments. -/
theorem related_finish (hR : IsRelation @R) (henv : Env.Related @R env env')
    (result : Value → Bindings → α) (program : Program) (locals : Bindings) (value : Value) :
    R (finish env result locals value program) (finish env' result locals value program) := by
  induction program generalizing locals value with
  | nil =>
    rw [finish_nil, finish_nil]
    exact hR.pure _
  | cons stmt rest ih =>
    cases stmt with
    | assign name e =>
      rw [finish_assign, finish_assign]
      exact hR.bind (Expr.related_eval hR henv locals e) fun v => ih _ v
    | expr e =>
      rw [finish_expr, finish_expr]
      exact hR.bind (Expr.related_eval hR henv locals e) fun v => ih locals v

/-- A program has related values in related environments. -/
theorem related_valueOf (hR : IsRelation @R) (henv : Env.Related @R env env') (program : Program)
    (locals : Bindings) (value : Value) :
    R (valueOf env locals value program) (valueOf env' locals value program) := by
  rw [valueOf_eq_finish, valueOf_eq_finish]
  exact related_finish hR henv _ program locals value

end Program

end DocWeave
