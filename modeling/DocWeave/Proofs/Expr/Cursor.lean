import DocWeave.Expr.Parser

/-!
# The descent with a cursor

The descent once more, as a program over an array of tokens and a position in it: the cursor moves
forward over a token before the token has been looked at, also where there is none, and is taken back
when the token is refused. Nothing here says that a routine comes to an end, that the cursor stays among
the tokens or that it can always be taken back. A routine is what it does given what its calls do
(`Routine.body`); a run has a depth beyond which no call is answered, and one that needs to go deeper
comes to nothing (`Routine.run`). A step back from the first token stops the run (`Stop.underflow`).
-/

namespace DocWeave.Expr

/-- Why a run stops without an answer. -/
inductive Stop where
  /-- A complaint about the token under the cursor, or about the end of the text. -/
  | complaint (message : String) (found : Option Placed)
  /-- A step back from the first token. -/
  | underflow

/-- The wording of a stop. -/
def Stop.message : Stop → String
  | .complaint message (some t) =>
    s!"syntax error at offset {t.offset}: " ++ message ++ " (found " ++ t.token.describe ++ ")"
  | .complaint message none => "syntax error: " ++ message ++ " (found end of input)"
  | .underflow => "attempt to subtract with overflow"

/-- The name of the label that comes next. -/
def labelName? : List Placed → Option String
  | ⟨.label name, _, _⟩ :: _ => some name
  | _ => none

/-- The name that is assigned to next. -/
def assignedName? : List Placed → Option String
  | ⟨.ident name, _, _⟩ :: ⟨.mark .assign, _, _⟩ :: _ => some name
  | _ => none

/-- A part of the descent: it moves the cursor, and then answers or stops; or it comes to nothing. -/
abbrev Cursor (α : Type) := ExceptT Stop (StateT Nat Option) α

/-- The routines of the descent and the loops in them, by what they answer. -/
inductive Routine : Type → Type where
  | skip : Routine Unit
  | path (start : String) : Routine String
  | level (n : Nat) : Routine Expr
  | operators (n : Nat) (lhs : Expr) : Routine Expr
  | unary : Routine Expr
  | operand : Routine Expr
  | suffixes (e : Expr) : Routine Expr
  | callArgs : Routine (List Arg)
  | primary : Routine Expr
  | items : Routine (List Expr)
  | hashLiteral : Routine (List (Expr × Expr))
  | entry : Routine (Expr × Expr)
  | parenArgs : Routine (List Arg)
  | argsInParens : Routine (List Arg)
  | commandArgs : Routine (List Arg)
  | arg : Routine Arg
  | stmt : Routine Stmt
  | statements : Routine Program

namespace Cursor

/-! ## Moving the cursor -/

section

variable (ts : List Placed)

/-- The token under the cursor. -/
def here : Cursor (Option Placed) := return ts[← get]?

/-- The tokens from the cursor on. -/
def ahead : Cursor (List Placed) := return ts.drop (← get)

/-- Moves on. -/
def step : Cursor Unit := modify (· + 1)

/-- Moves back. -/
def back : Cursor Unit := do
  match ← get with
  | 0 => throw .underflow
  | pos + 1 => set pos

/-- Moves on, over whatever was under the cursor. -/
def advance : Cursor (Option Token) := do
  let found ← here ts
  step
  return found.map Placed.token

/-- Complains about the place of the cursor. -/
def refuse {α : Type} (message : String) : Cursor α := do
  throw (.complaint message (← here ts))

/-- Moves over the mark, if it is under the cursor. -/
def eat (m : Mark) : Cursor Bool := do
  match ← here ts with
  | some ⟨.mark m', _, _⟩ => if m = m' then do step; return true else return false
  | _ => return false

/-- Moves over the mark, which must be under the cursor. -/
def demand (m : Mark) (message : String) : Cursor Unit := do
  if ← eat ts m then return () else refuse ts message

end

/-! ## The routines -/

section

variable (ts : List Placed) (call : {α : Type} → Routine α → Cursor α)

/-- Moves over the separators. -/
def skip : Cursor Unit := do
  if ← eat ts .separator then call .skip else return ()

/-- The rest of a constant's path. -/
def path (start : String) : Cursor String := do
  if ← eat ts .scope then
    match ← advance ts with
    | some (.const name) => call (.path (start ++ "::" ++ name))
    | _ => do back; refuse ts GrammarFault.constantExpected.message
  else return start

/-- An expression whose operators are no looser than the level. -/
def level (n : Nat) : Cursor Expr := do
  if n < levels then call (.operators n (← call (.level (n + 1)))) else call .unary

/-- The operators of a level and their right operands, grouped to the left. -/
def operators (n : Nat) (lhs : Expr) : Cursor Expr := do
  match ← here ts with
  | some ⟨.mark m, _, _⟩ =>
    match operatorAt? n m with
    | some op => do
      step
      let rhs ← call (.level (n + 1))
      call (.operators n (.binary op lhs rhs))
    | none => return lhs
  | _ => return lhs

/-- An operand with its signs. -/
def unary : Cursor Expr := do
  if ← eat ts .minus then return .neg (← call .unary)
  else if ← eat ts .bang then return .not (← call .unary)
  else call .operand

/-- An operand with its methods and indices. -/
def operand : Cursor Expr := do
  call (.suffixes (← call .primary))

/-- The methods and indices behind an operand. -/
def suffixes (e : Expr) : Cursor Expr := do
  match ← here ts with
  | some ⟨.mark .dot, _, _⟩ => do
    step
    match ← advance ts with
    | some (.ident method) => call (.suffixes (methodOf e method (← call .callArgs)))
    | some (.const method) => call (.suffixes (methodOf e method (← call .callArgs)))
    | _ => do back; refuse ts GrammarFault.methodNameExpected.message
  | some ⟨.mark .bracketOpen, false, _⟩ => do
    step
    let place ← call (.level 0)
    demand ts .bracketClose GrammarFault.bracketExpected.message
    call (.suffixes (.index e place))
  | _ => return e

/-- The arguments behind the name of a method: those in parentheses that follow at once, if any. -/
def callArgs : Cursor (List Arg) := do
  if parenFollows (← ahead ts) then call .parenArgs else return []

/-- An operand without signs, methods and indices. -/
def primary : Cursor Expr := do
  match ← advance ts with
  | some (.str s) => return .lit (.str s)
  | some (.int i) => return .lit (.int i)
  | some (.float x) => return .lit (.float x)
  | some (.symbol s) => return .lit (.sym s)
  | some (.mark .parenOpen) => do
    call .skip
    let e ← call (.level 0)
    call .skip
    demand ts .parenClose GrammarFault.parenExpected.message
    return e
  | some (.mark .bracketOpen) => return .array (← call .items)
  | some (.mark .braceOpen) => return .hash (← call .hashLiteral)
  | some (.const name) => return .const (← call (.path name))
  | some (.ident name) =>
    if name = "nil" then return .lit .nil
    else if name = "true" then return .lit (.bool true)
    else if name = "false" then return .lit (.bool false)
    else if isUnsupported name then do
      back
      refuse ts (GrammarFault.unsupportedWord name).message
    else if parenFollows (← ahead ts) then return .call name (← call .parenArgs)
    else if argumentFollows (← ahead ts) then return .call name (← call .commandArgs)
    else return .var name
  | _ => do
    back
    refuse ts GrammarFault.expressionExpected.message

/-- The items of an array up to the closing bracket; a comma may stand behind the last one. -/
def items : Cursor (List Expr) := do
  if ← eat ts .bracketClose then return []
  else
    let e ← call (.level 0)
    if ← eat ts .comma then return e :: (← call .items)
    else
      demand ts .bracketClose GrammarFault.bracketOrCommaExpected.message
      return [e]

/-- The entries of a hash up to the closing brace; a comma may stand behind the last one. -/
def hashLiteral : Cursor (List (Expr × Expr)) := do
  if ← eat ts .braceClose then return []
  else
    let e ← call .entry
    if ← eat ts .comma then return e :: (← call .hashLiteral)
    else
      demand ts .braceClose GrammarFault.braceOrCommaExpected.message
      return [e]

/-- One entry of a hash: a label and a value, or a key, an arrow and a value. -/
def entry : Cursor (Expr × Expr) := do
  match labelName? (← ahead ts) with
  | some key => do
    step
    return (.lit (.str key), ← call (.level 0))
  | none => do
    let key ← call (.level 0)
    demand ts .arrow GrammarFault.arrowExpected.message
    return (key, ← call (.level 0))

/-- The arguments of a call in parentheses. -/
def parenArgs : Cursor (List Arg) := do
  demand ts .parenOpen "expected `(`"
  call .skip
  call .argsInParens

/-- The arguments of a call up to the closing parenthesis; a comma may stand behind the last one. -/
def argsInParens : Cursor (List Arg) := do
  if ← eat ts .parenClose then return []
  else
    let a ← call .arg
    call .skip
    if ← eat ts .comma then do
      call .skip
      return a :: (← call .argsInParens)
    else
      call .skip
      demand ts .parenClose GrammarFault.parenOrCommaExpected.message
      return [a]

/-- Arguments without parentheses, separated by commas. -/
def commandArgs : Cursor (List Arg) := do
  let a ← call .arg
  if ← eat ts .comma then return a :: (← call .commandArgs) else return [a]

/-- One argument: by keyword, with its items spread, or by position. -/
def arg : Cursor Arg := do
  match labelName? (← ahead ts) with
  | some key => do
    step
    return .keyword key (← call (.level 0))
  | none =>
    if ← eat ts .star then return .splat (← call (.level 0))
    else return .positional (← call (.level 0))

/-- A statement: an assignment to a name, or an expression. -/
def stmt : Cursor Stmt := do
  match assignedName? (← ahead ts) with
  | some name => do
    step
    step
    return .assign name (← call (.level 0))
  | none => return .expr (← call (.level 0))

/-- The statements up to the end of the tokens. -/
def statements : Cursor Program := do
  call .skip
  if (← here ts).isNone then return []
  else
    let s ← call .stmt
    if (← here ts).isNone then return s :: (← call .statements)
    else if ← eat ts .separator then return s :: (← call .statements)
    else refuse ts GrammarFault.statementEndExpected.message

/-- The expression that all the tokens make up. -/
def whole : Cursor Expr := do
  call .skip
  let e ← call (.level 0)
  call .skip
  if (← here ts).isNone then return e else refuse ts GrammarFault.trailingInput.message

end

end Cursor

namespace Routine

/-- What a routine does, given what its calls do. -/
def body (ts : List Placed) (call : {α : Type} → Routine α → Cursor α) {α : Type} :
    Routine α → Cursor α
  | .skip => Cursor.skip ts call
  | .path start => Cursor.path ts call start
  | .level n => Cursor.level call n
  | .operators n lhs => Cursor.operators ts call n lhs
  | .unary => Cursor.unary ts call
  | .operand => Cursor.operand call
  | .suffixes e => Cursor.suffixes ts call e
  | .callArgs => Cursor.callArgs ts call
  | .primary => Cursor.primary ts call
  | .items => Cursor.items ts call
  | .hashLiteral => Cursor.hashLiteral ts call
  | .entry => Cursor.entry ts call
  | .parenArgs => Cursor.parenArgs ts call
  | .argsInParens => Cursor.argsInParens ts call
  | .commandArgs => Cursor.commandArgs ts call
  | .arg => Cursor.arg ts call
  | .stmt => Cursor.stmt ts call
  | .statements => Cursor.statements ts call

/-- A run of a routine in which calls are answered down to the depth. -/
def run (ts : List Placed) : Nat → {α : Type} → Routine α → Cursor α
  | 0, _, _ => fun _ => none
  | depth + 1, _, r => r.body ts (run ts depth)

end Routine

/-! ## Texts -/

namespace Cursor

/-- What the cursor makes of a text, with the wording of a refusal. -/
def onText {α : Type} (part : List Placed → Cursor α) (text : String) :
    Option (Except String α) :=
  match lex text with
  | .ok ts => (part ts 0).map fun (outcome, _) => outcome.mapError Stop.message
  | .error e => some (.error e.message)

/-- Reads one expression. -/
def parseExpr (depth : Nat) : String → Option (Except String Expr) :=
  onText fun ts => whole ts (Routine.run ts depth)

/-- Reads statements that are separated by line ends or `;`. -/
def parseProgram (depth : Nat) : String → Option (Except String Program) :=
  onText fun ts => Routine.statements.run ts depth

end Cursor

end DocWeave.Expr
