import DocWeave.Expr.Basic
import DocWeave.Expr.Lexer

/-!
# Reading expressions and programs

A recursive descent over the tokens. Every routine returns what it read together with the tokens that
follow, and the type of its answer says that they are fewer than those it was given; the descent ends
for that reason. From loosest to tightest the binary operators are `||`, `&&`, the equalities, the
comparisons, sum and difference, and the product; all of them group to the left. Tighter still are the
signs `-` and `!`, and then methods and indexing.
-/

namespace DocWeave.Expr

/-- What a routine read, and the tokens that follow: fewer than `bound`. -/
structure Parsed (α : Type) (bound : Nat) where
  value : α
  rest : List Placed
  shorter : rest.length < bound

/-- The outcome of a routine. -/
abbrev Outcome (α : Type) (bound : Nat) := Except SyntaxError (Parsed α bound)

/-- A complaint about the first of the tokens, or about the end of the text. -/
def complain {α : Type} (fault : GrammarFault) (ts : List Placed) : Except SyntaxError α :=
  .error (.grammar fault ts.head?)

/-- What follows the separators. -/
def skipSeparators (ts : List Placed) : List Placed := ts.dropWhile Placed.isSeparator

theorem skipSeparators_length (ts : List Placed) : (skipSeparators ts).length ≤ ts.length :=
  (List.dropWhile_suffix _).length_le

/-- What follows the mark `m`, which must come next. -/
def expect (m : Mark) (fault : GrammarFault) (ts : List Placed) : Outcome Unit ts.length :=
  match ts with
  | ⟨.mark m', _, _⟩ :: rest => if m = m' then .ok ⟨(), rest, by simp⟩ else complain fault ts
  | _ => complain fault ts

/-! ## Operators and words -/

/-- The number of levels of binary operators. -/
def levels : Nat := 6

/-- The operator that a mark stands for at a level, the loosest level being `0`. -/
def operatorAt? (level : Nat) (m : Mark) : Option BinaryOp :=
  match level, m with
  | 0, .either => some .or
  | 1, .both => some .and
  | 2, .equal => some .eq
  | 2, .notEqual => some .ne
  | 3, .less => some .lt
  | 3, .greater => some .gt
  | 3, .lessEqual => some .le
  | 3, .greaterEqual => some .ge
  | 4, .plus => some .add
  | 4, .minus => some .sub
  | 5, .star => some .mul
  | _, _ => none

/-- Words of statements that the language does not have. -/
def isUnsupported (word : String) : Bool :=
  ["if", "unless", "case", "when", "while", "until", "do", "end", "return", "begin", "rescue", "yield",
    "def"].contains word

/-- Words that do not begin an argument. -/
def isConnective (word : String) : Bool :=
  ["if", "unless", "and", "or", "then", "do", "end", "rescue", "while", "until"].contains word

/-- An opening parenthesis comes next, without a blank before it. -/
def parenFollows : List Placed → Bool
  | ⟨.mark .parenOpen, false, _⟩ :: _ => true
  | _ => false

/-- An argument without parentheses comes next: a blank, and then the beginning of an expression. A
sign counts only when its operand touches it. -/
def argumentFollows : List Placed → Bool
  | [] => false
  | ⟨_, false, _⟩ :: _ => false
  | ⟨t, true, _⟩ :: rest =>
    match t with
    | .str _ | .int _ | .float _ | .const _ | .symbol _ | .label _ => true
    | .ident word => !isConnective word
    | .mark .bracketOpen | .mark .parenOpen => true
    | .mark .star | .mark .minus | .mark .bang => rest.head?.any (!·.spaced)
    | .mark _ => false

/-- The rest of a constant's path. -/
def parsePath (path : String) (ts : List Placed) : Outcome String (ts.length + 1) :=
  match ts with
  | ⟨.mark .scope, _, _⟩ :: ⟨.const name, _, _⟩ :: rest => do
    let ⟨path, rest', h⟩ ← parsePath (path ++ "::" ++ name) rest
    return ⟨path, rest', by simp only [List.length_cons]; omega⟩
  | ⟨.mark .scope, _, _⟩ :: rest => complain .constantExpected rest
  | ts => .ok ⟨path, ts, by omega⟩

/-! ## The descent -/

/-- A method of a constant, or of a value. -/
def methodOf (receiver : Expr) (method : String) (args : List Arg) : Expr :=
  match receiver with
  | .const path => .constCall path method args
  | e => .send e method args

mutual

/-- An expression whose operators are no looser than the level. -/
def parseLevel (level : Nat) (ts : List Placed) : Outcome Expr ts.length :=
  if _h : level < levels then do
    let ⟨lhs, rest, h₁⟩ ← parseLevel (level + 1) ts
    let ⟨e, rest, h₂⟩ ← parseOperators level lhs rest
    return ⟨e, rest, by omega⟩
  else parseSigned ts
termination_by (ts.length, levels - level + 4)

/-- The operators of a level and their right operands, grouped to the left. -/
def parseOperators (level : Nat) (lhs : Expr) (ts : List Placed) : Outcome Expr (ts.length + 1) :=
  match ts with
  | ⟨.mark m, spaced, offset⟩ :: rest =>
    match operatorAt? level m with
    | some op => do
      let ⟨rhs, rest, h₁⟩ ← parseLevel (level + 1) rest
      let ⟨e, rest, h₂⟩ ← parseOperators level (.binary op lhs rhs) rest
      return ⟨e, rest, by simp only [List.length_cons]; omega⟩
    | none => .ok ⟨lhs, ⟨.mark m, spaced, offset⟩ :: rest, by omega⟩
  | ts => .ok ⟨lhs, ts, by omega⟩
termination_by (ts.length, 0)

/-- An operand with its signs. -/
def parseSigned (ts : List Placed) : Outcome Expr ts.length :=
  match ts with
  | ⟨.mark .minus, _, _⟩ :: rest => do
    let ⟨e, rest, h⟩ ← parseSigned rest
    return ⟨.neg e, rest, by simp only [List.length_cons]; omega⟩
  | ⟨.mark .bang, _, _⟩ :: rest => do
    let ⟨e, rest, h⟩ ← parseSigned rest
    return ⟨.not e, rest, by simp only [List.length_cons]; omega⟩
  | ts => do
    let ⟨e, rest, h₁⟩ ← parsePrimary ts
    let ⟨e, rest, h₂⟩ ← parsePostfix e rest
    return ⟨e, rest, by omega⟩
termination_by (ts.length, 2)

/-- The methods and indices behind an operand. -/
def parsePostfix (e : Expr) (ts : List Placed) : Outcome Expr (ts.length + 1) :=
  match ts with
  | ⟨.mark .dot, _, _⟩ :: ⟨.ident method, _, _⟩ :: rest => do
    let ⟨args, rest, h₁⟩ ← parseCallArgs rest
    let ⟨e, rest, h₂⟩ ← parsePostfix (methodOf e method args) rest
    return ⟨e, rest, by simp only [List.length_cons]; omega⟩
  | ⟨.mark .dot, _, _⟩ :: ⟨.const method, _, _⟩ :: rest => do
    let ⟨args, rest, h₁⟩ ← parseCallArgs rest
    let ⟨e, rest, h₂⟩ ← parsePostfix (methodOf e method args) rest
    return ⟨e, rest, by simp only [List.length_cons]; omega⟩
  | ⟨.mark .dot, _, _⟩ :: rest => complain .methodNameExpected rest
  | ⟨.mark .bracketOpen, false, _⟩ :: rest => do
    let ⟨place, rest, h₁⟩ ← parseLevel 0 rest
    let ⟨_, rest, h₂⟩ ← expect .bracketClose .bracketExpected rest
    let ⟨e, rest, h₃⟩ ← parsePostfix (.index e place) rest
    return ⟨e, rest, by simp only [List.length_cons]; omega⟩
  | ts => .ok ⟨e, ts, by omega⟩
termination_by (ts.length, 0)

/-- The arguments behind the name of a method: those in parentheses that follow at once, if any. -/
def parseCallArgs (ts : List Placed) : Outcome (List Arg) (ts.length + 1) :=
  match ts with
  | ⟨.mark .parenOpen, false, _⟩ :: rest => do
    have := skipSeparators_length rest
    let ⟨args, rest, h⟩ ← parseParenArgs (skipSeparators rest)
    return ⟨args, rest, by simp only [List.length_cons]; omega⟩
  | ts => .ok ⟨[], ts, by omega⟩
termination_by (ts.length, 0)

/-- An operand without signs, methods and indices. -/
def parsePrimary (ts : List Placed) : Outcome Expr ts.length :=
  match ts with
  | [] => complain .expressionExpected []
  | ⟨t, spaced, offset⟩ :: rest =>
    match t with
    | .str s => .ok ⟨.lit (.str s), rest, by simp⟩
    | .int i => .ok ⟨.lit (.int i), rest, by simp⟩
    | .float x => .ok ⟨.lit (.float x), rest, by simp⟩
    | .symbol s => .ok ⟨.lit (.sym s), rest, by simp⟩
    | .mark .parenOpen => do
      have h₀ := skipSeparators_length rest
      let ⟨e, rest', h₁⟩ ← parseLevel 0 (skipSeparators rest)
      have h₂ := skipSeparators_length rest'
      let ⟨_, rest', h₃⟩ ← expect .parenClose .parenExpected (skipSeparators rest')
      return ⟨e, rest', by simp only [List.length_cons]; omega⟩
    | .mark .bracketOpen => do
      let ⟨items, rest, h⟩ ← parseItems rest
      return ⟨.array items, rest, by simp only [List.length_cons]; omega⟩
    | .mark .braceOpen => do
      let ⟨entries, rest, h⟩ ← parseEntries rest
      return ⟨.hash entries, rest, by simp only [List.length_cons]; omega⟩
    | .const name => do
      let ⟨path, rest, h⟩ ← parsePath name rest
      return ⟨.const path, rest, by simp only [List.length_cons]; omega⟩
    | .ident name =>
      if name = "nil" then .ok ⟨.lit .nil, rest, by simp⟩
      else if name = "true" then .ok ⟨.lit (.bool true), rest, by simp⟩
      else if name = "false" then .ok ⟨.lit (.bool false), rest, by simp⟩
      else if isUnsupported name then
        complain (.unsupportedWord name) (⟨.ident name, spaced, offset⟩ :: rest)
      else if parenFollows rest then do
        let ⟨args, rest, h⟩ ← parseCallArgs rest
        return ⟨.call name args, rest, by simp only [List.length_cons]; omega⟩
      else if argumentFollows rest then do
        let ⟨args, rest, h⟩ ← parseCommandArgs rest
        return ⟨.call name args, rest, by simp only [List.length_cons]; omega⟩
      else .ok ⟨.var name, rest, by simp⟩
    | t => complain .expressionExpected (⟨t, spaced, offset⟩ :: rest)
termination_by (ts.length, 1)

/-- The items of an array up to the closing bracket; a comma may stand behind the last one. -/
def parseItems (ts : List Placed) : Outcome (List Expr) ts.length :=
  match ts with
  | ⟨.mark .bracketClose, _, _⟩ :: rest => .ok ⟨[], rest, by simp⟩
  | ts => do
    let ⟨e, rest, h₁⟩ ← parseLevel 0 ts
    match rest, h₁ with
    | ⟨.mark .comma, _, _⟩ :: rest, h₁ =>
      have h₁ : rest.length + 1 < ts.length := h₁
      let ⟨es, rest, h₂⟩ ← parseItems rest
      return ⟨e :: es, rest, by omega⟩
    | rest, h₁ =>
      let ⟨_, rest, h₂⟩ ← expect .bracketClose .bracketOrCommaExpected rest
      return ⟨[e], rest, by omega⟩
termination_by (ts.length, levels + 5)

/-- The entries of a hash up to the closing brace; a comma may stand behind the last one. -/
def parseEntries (ts : List Placed) : Outcome (List (Expr × Expr)) ts.length :=
  match ts with
  | ⟨.mark .braceClose, _, _⟩ :: rest => .ok ⟨[], rest, by simp⟩
  | ts => do
    let ⟨entry, rest, h₁⟩ ← parseEntry ts
    match rest, h₁ with
    | ⟨.mark .comma, _, _⟩ :: rest, h₁ =>
      have h₁ : rest.length + 1 < ts.length := h₁
      let ⟨entries, rest, h₂⟩ ← parseEntries rest
      return ⟨entry :: entries, rest, by omega⟩
    | rest, h₁ =>
      let ⟨_, rest, h₂⟩ ← expect .braceClose .braceOrCommaExpected rest
      return ⟨[entry], rest, by omega⟩
termination_by (ts.length, levels + 6)

/-- One entry of a hash: a label and a value, or a key, an arrow and a value. -/
def parseEntry (ts : List Placed) : Outcome (Expr × Expr) ts.length :=
  match ts with
  | ⟨.label key, _, _⟩ :: rest => do
    let ⟨e, rest, h⟩ ← parseLevel 0 rest
    return ⟨(.lit (.str key), e), rest, by simp only [List.length_cons]; omega⟩
  | ts => do
    let ⟨key, rest, h₁⟩ ← parseLevel 0 ts
    let ⟨_, rest, h₂⟩ ← expect .arrow .arrowExpected rest
    let ⟨e, rest, h₃⟩ ← parseLevel 0 rest
    return ⟨(key, e), rest, by omega⟩
termination_by (ts.length, levels + 5)

/-- The arguments of a call up to the closing parenthesis; a comma may stand behind the last one. -/
def parseParenArgs (ts : List Placed) : Outcome (List Arg) ts.length :=
  match ts with
  | ⟨.mark .parenClose, _, _⟩ :: rest => .ok ⟨[], rest, by simp⟩
  | ts => do
    let ⟨arg, rest, h₁⟩ ← parseArg ts
    match h₂ : skipSeparators rest with
    | ⟨.mark .comma, _, _⟩ :: rest' =>
      have h₂ : rest'.length + 1 ≤ rest.length := by
        have := skipSeparators_length rest
        simpa only [h₂, List.length_cons] using this
      have h₃ := skipSeparators_length rest'
      let ⟨args, rest, h₄⟩ ← parseParenArgs (skipSeparators rest')
      return ⟨arg :: args, rest, by omega⟩
    | rest' =>
      have h₂ : rest'.length ≤ rest.length := h₂ ▸ skipSeparators_length rest
      let ⟨_, rest, h₃⟩ ← expect .parenClose .parenOrCommaExpected rest'
      return ⟨[arg], rest, by omega⟩
termination_by (ts.length, levels + 6)

/-- Arguments without parentheses, separated by commas. -/
def parseCommandArgs (ts : List Placed) : Outcome (List Arg) ts.length := do
  let ⟨arg, rest, h₁⟩ ← parseArg ts
  match rest, h₁ with
  | ⟨.mark .comma, _, _⟩ :: rest, h₁ =>
    have h₁ : rest.length + 1 < ts.length := h₁
    let ⟨args, rest, h₂⟩ ← parseCommandArgs rest
    return ⟨arg :: args, rest, by omega⟩
  | rest, h₁ => return ⟨[arg], rest, h₁⟩
termination_by (ts.length, levels + 6)

/-- One argument: by keyword, with its items spread, or by position. -/
def parseArg (ts : List Placed) : Outcome Arg ts.length :=
  match ts with
  | ⟨.label key, _, _⟩ :: rest => do
    let ⟨e, rest, h⟩ ← parseLevel 0 rest
    return ⟨.keyword key e, rest, by simp only [List.length_cons]; omega⟩
  | ⟨.mark .star, _, _⟩ :: rest => do
    let ⟨e, rest, h⟩ ← parseLevel 0 rest
    return ⟨.splat e, rest, by simp only [List.length_cons]; omega⟩
  | ts => do
    let ⟨e, rest, h⟩ ← parseLevel 0 ts
    return ⟨.positional e, rest, h⟩
termination_by (ts.length, levels + 5)

end

/-! ## Statements and programs -/

/-- A statement: an assignment to a name, or an expression. -/
def parseStmt (ts : List Placed) : Outcome Stmt ts.length :=
  match ts with
  | ⟨.ident name, _, _⟩ :: ⟨.mark .assign, _, _⟩ :: rest => do
    let ⟨e, rest, h⟩ ← parseLevel 0 rest
    return ⟨.assign name e, rest, by simp only [List.length_cons]; omega⟩
  | ts => do
    let ⟨e, rest, h⟩ ← parseLevel 0 ts
    return ⟨.expr e, rest, h⟩

/-- The statements of a token list. -/
def parseStmts (ts : List Placed) : Except SyntaxError Program :=
  have h₀ := skipSeparators_length ts
  match skipSeparators ts, h₀ with
  | [], _ => .ok []
  | t :: tail, h₀ => do
    let ⟨stmt, rest, h₁⟩ ← parseStmt (t :: tail)
    match rest, h₁ with
    | [], _ => return [stmt]
    | ⟨.mark .separator, _, _⟩ :: rest, h₁ =>
      have _h₁ : rest.length + 1 < tail.length + 1 := h₁
      have _h₀ : tail.length + 1 ≤ ts.length := h₀
      let stmts ← parseStmts rest
      return stmt :: stmts
    | rest, _ => complain .statementEndExpected rest
termination_by ts.length

/-- The expression of a token list. -/
def parseWhole (ts : List Placed) : Except SyntaxError Expr := do
  let ⟨e, rest, _⟩ ← parseLevel 0 (skipSeparators ts)
  match skipSeparators rest with
  | [] => return e
  | rest => complain .trailingInput rest

end DocWeave.Expr

namespace DocWeave

/-- Reads one expression. -/
def Expr.parse (s : String) : Except Expr.SyntaxError Expr := do
  Expr.parseWhole (← Expr.lex s)

/-- Reads statements that are separated by line ends or `;`. -/
def Program.parse (s : String) : Except Expr.SyntaxError Program := do
  Expr.parseStmts (← Expr.lex s)

end DocWeave
