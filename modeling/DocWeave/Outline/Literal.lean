import DocWeave.Expr.Eval
import DocWeave.Expr.Parser
import DocWeave.Text.Blank
import DocWeave.Text.Search

/-!
# Literal constants

The right-hand side of a constant is evaluated when it consists of literals and operators. Anything
else is kept as source text.
-/

namespace DocWeave.Outline

open DocWeave.Text

/-- The environment in which no name means anything. -/
def literalsOnly : Env (ExceptT EvalError Id) where
  call name _ := throw (.notLiteral name)
  constant path := throw (.notLiteral path)
  callOnConstant path method _ := throw (.notLiteral (path ++ "." ++ method))
  settle outcome := ExceptT.mk (pure outcome)

/-- Drops every `.freeze` at the end, at most `fuel` of them. -/
def dropFreezes : (fuel : Nat) → List Char → List Char
  | 0, s => s
  | n + 1, s =>
    match before? ".freeze".toList s with
    | some t => dropFreezes n t
    | none => s

/-- The value of a right-hand side. -/
def literalValue (text : String) : Value :=
  let s := trim text.toList
  let s := String.ofList (trim (dropFreezes s.length s))
  match Expr.parse s with
  | .error _ => .code s
  | .ok e =>
    match (Expr.eval literalsOnly [] e).run with
    | .ok v => v
    | .error _ => .code s

end DocWeave.Outline
