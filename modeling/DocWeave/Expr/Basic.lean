import DocWeave.Value.Basic

/-!
# Expressions and programs

The trees of the expression language: literals, arrays, hashes, names, calls, constants, methods of
values, indexing and operators. A program is a list of statements.
-/

namespace DocWeave

/-- The binary operators. -/
inductive BinaryOp where
  | add
  | sub
  | mul
  | eq
  | ne
  | lt
  | gt
  | le
  | ge
  | and
  | or
deriving DecidableEq, Repr

mutual

/-- An expression. -/
inductive Expr where
  /-- A value written out. -/
  | lit (v : Value)
  | array (items : List Expr)
  | hash (entries : List (Expr × Expr))
  /-- A name without arguments. -/
  | var (name : String)
  /-- A name with arguments, possibly none. -/
  | call (name : String) (args : List Arg)
  /-- A constant by its path, such as `A::B`. -/
  | const (path : String)
  /-- A method of what a constant names. -/
  | constCall (path method : String) (args : List Arg)
  /-- A method of a value. -/
  | send (receiver : Expr) (method : String) (args : List Arg)
  | index (receiver place : Expr)
  | neg (operand : Expr)
  | not (operand : Expr)
  | binary (op : BinaryOp) (lhs rhs : Expr)

/-- An argument of a call. -/
inductive Arg where
  | positional (e : Expr)
  /-- The items of an array, each an argument of its own. -/
  | splat (e : Expr)
  | keyword (key : String) (e : Expr)

end

instance : Inhabited Expr := ⟨.lit .nil⟩

/-- A statement. -/
inductive Stmt where
  | assign (name : String) (e : Expr)
  | expr (e : Expr)

/-- Statements that run one after the other. -/
abbrev Program := List Stmt

end DocWeave
