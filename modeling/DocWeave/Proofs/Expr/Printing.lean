import DocWeave.Expr.Parser

/-!
# The canonical text of expressions

`Expr.print` writes an expression with as few parentheses as the levels of the operators allow: an
operand is enclosed exactly when its own operator binds looser than its place asks for. Every binary
operator has a blank on both sides, a call or an index follows its name at once, and what stands in a
list is separated by a comma and a blank.

Beside the text stands the list of words that it is made of (`Expr.words`). A word is a token together
with the flag that says whether a blank precedes it; a `Placed` token is a word at a place. The text is
cut into these words (`Proofs.Expr.Lexing`), and they are read back as the expression
(`Proofs.Expr.RoundTrip`).
-/

namespace DocWeave

/-- The level of an operator, the loosest level being `0`. -/
def BinaryOp.level : BinaryOp → Nat
  | .or => 0
  | .and => 1
  | .eq | .ne => 2
  | .lt | .gt | .le | .ge => 3
  | .add | .sub => 4
  | .mul => 5

/-- The mark that stands for an operator. -/
def BinaryOp.mark : BinaryOp → Expr.Mark
  | .or => .either
  | .and => .both
  | .eq => .equal
  | .ne => .notEqual
  | .lt => .less
  | .gt => .greater
  | .le => .lessEqual
  | .ge => .greaterEqual
  | .add => .plus
  | .sub => .minus
  | .mul => .star

/-- An operator as it is written. -/
def BinaryOp.symbol : BinaryOp → List Char
  | .or => ['|', '|']
  | .and => ['&', '&']
  | .eq => ['=', '=']
  | .ne => ['!', '=']
  | .lt => ['<']
  | .gt => ['>']
  | .le => ['<', '=']
  | .ge => ['>', '=']
  | .add => ['+']
  | .sub => ['-']
  | .mul => ['*']

theorem BinaryOp.level_lt (op : BinaryOp) : op.level < Expr.levels := by
  cases op <;> decide

namespace Expr

/-- The mark of an operator means this operator at its own level and nothing at any other. -/
theorem operatorAt?_mark (op : BinaryOp) (level : Nat) :
    operatorAt? level op.mark = if level = op.level then some op else none := by
  rcases level with _ | _ | _ | _ | _ | _ | level <;> cases op <;> rfl

/-! ## Names -/

/-- What may follow the first character of a name: inner characters, and one of `?` and `!` at most. -/
def isNameTail (s : List Char) : Bool :=
  match s.dropWhile isNameInner with
  | [] => true
  | [c] => c == '?' || c == '!'
  | _ => false

/-- A text that is cut out as a name. -/
def isIdentifier (name : String) : Bool :=
  match name.toList with
  | c :: s => isNameStart c && isNameTail s
  | [] => false

/-- A name that means a variable or a call: neither a literal nor a word the grammar refuses. -/
def isPlainName (name : String) : Bool :=
  isIdentifier name && !(["nil", "true", "false"].contains name) && !isUnsupported name

/-- A text that is cut out as one part of a constant's path. -/
def isConstantName (name : List Char) : Bool :=
  match name with
  | c :: s => c.isUpper && s.all isNameInner
  | [] => false

/-- The parts of a constant's path. -/
def pathParts (path : String) : List (List Char) := Text.splitOn [':', ':'] path.toList

/-- The names of a constant and of those around it, with `::` between them. -/
def isConstantPath (path : String) : Bool := (pathParts path).all isConstantName

/-- A method may have the name of a variable, of a constant, or a word that is no variable. -/
def isMethodName (name : String) : Bool := isIdentifier name || isConstantName name.toList

/-- A symbol that is spelt like a name. -/
def isBareSymbol (name : String) : Bool :=
  match name.toList with
  | c :: s => isNameInner c && !c.isDigit && isNameTail s
  | [] => false

/-! ## Text -/

/-- What canonical text leaves open. -/
structure Style where
  /-- A method without arguments shows its empty parentheses. -/
  emptyParens : Bool
  /-- A symbol that is spelt like a name stands without quotes. -/
  bareSymbols : Bool

/-- One character between single quotes. -/
def escapeChar (c : Char) : List Char := if c = '\\' ∨ c = '\'' then ['\\', c] else [c]

/-- A text between single quotes. -/
def quotedText (s : String) : List Char := '\'' :: (s.toList.flatMap escapeChar ++ ['\''])

/-- The text of a literal. Only `nil`, truth values, integers, strings and symbols have one. -/
def literalText (style : Style) : Value → List Char
  | .nil => ['n', 'i', 'l']
  | .bool true => ['t', 'r', 'u', 'e']
  | .bool false => ['f', 'a', 'l', 's', 'e']
  | .int i => Nat.toDigits 10 i.toInt.toNat
  | .str s => quotedText s
  | .sym s => ':' :: (if style.bareSymbols && isBareSymbol s then s.toList else quotedText s)
  | _ => []

/-- How tightly an expression holds together: the level of its operator, then the signs, then all that
needs no operator. -/
def tightness : Expr → Nat
  | .binary op _ _ => op.level
  | .neg _ | .not _ => levels
  | _ => levels + 1

/-- An operand at a place that asks for at least the tightness `place`. -/
def enclose (place : Nat) (e : Expr) (text : List Char) : List Char :=
  if e.tightness < place then '(' :: (text ++ [')']) else text

/-- Texts with a comma and a blank between each two. -/
def commaText : List (List Char) → List Char
  | [] => []
  | [text] => text
  | text :: next :: rest => text ++ ',' :: ' ' :: commaText (next :: rest)

/-- Arguments in parentheses. -/
def callText (args : List (List Char)) : List Char := '(' :: (commaText args ++ [')'])

/-- The arguments of a method. -/
def methodText (style : Style) (args : List (List Char)) : List Char :=
  if args.isEmpty && !style.emptyParens then [] else callText args

mutual

/-- The text of an expression that stands alone. -/
def printed (style : Style) : Expr → List Char
  | .lit v => literalText style v
  | .array items => '[' :: (commaText (printedItems style items) ++ [']'])
  | .hash entries => '\x7b' :: (commaText (printedEntries style entries) ++ ['\x7d'])
  | .var name => name.toList
  | .call name args => name.toList ++ callText (printedArgs style args)
  | .const path => path.toList
  | .constCall path method args =>
    path.toList ++ '.' :: (method.toList ++ methodText style (printedArgs style args))
  | .send receiver method args =>
    enclose (levels + 1) receiver (printed style receiver) ++
      '.' :: (method.toList ++ methodText style (printedArgs style args))
  | .index receiver place =>
    enclose (levels + 1) receiver (printed style receiver) ++ '[' :: (printed style place ++ [']'])
  | .neg operand => '-' :: enclose levels operand (printed style operand)
  | .not operand => '!' :: enclose levels operand (printed style operand)
  | .binary op lhs rhs =>
    enclose op.level lhs (printed style lhs) ++
      ' ' :: (op.symbol ++ ' ' :: enclose (op.level + 1) rhs (printed style rhs))

/-- The texts of the items of an array. -/
def printedItems (style : Style) : List Expr → List (List Char)
  | [] => []
  | e :: es => printed style e :: printedItems style es

/-- The texts of the entries of a hash. -/
def printedEntries (style : Style) : List (Expr × Expr) → List (List Char)
  | [] => []
  | (key, e) :: rest =>
    (printed style key ++ ' ' :: '=' :: '>' :: ' ' :: printed style e) :: printedEntries style rest

/-- The texts of the arguments of a call. -/
def printedArgs (style : Style) : List Arg → List (List Char)
  | [] => []
  | .positional e :: rest => printed style e :: printedArgs style rest
  | .splat e :: rest => ('*' :: printed style e) :: printedArgs style rest
  | .keyword key e :: rest =>
    (key.toList ++ ':' :: ' ' :: printed style e) :: printedArgs style rest

end

/-- The canonical text of an expression. -/
def print (style : Style) (e : Expr) : String := String.ofList (printed style e)

/-! ## Expressions that have a text -/

/-- A literal that can be written. Numbers are not negative: a negative one is a sign and a number. -/
def isPrintableLiteral : Value → Bool
  | .nil | .bool _ | .str _ | .sym _ => true
  | .int i => decide (0 ≤ i.toInt)
  | _ => false

/-- The expression is a constant and nothing else. -/
def isBareConstant : Expr → Bool
  | .const _ => true
  | _ => false

mutual

/-- An expression that can be written: its literals have a text and its names are names. A method of a
bare constant is a `constCall`, so no `send` has such a receiver. -/
def isPrintable : Expr → Bool
  | .lit v => isPrintableLiteral v
  | .array items => arePrintable items
  | .hash entries => areEntriesPrintable entries
  | .var name => isPlainName name
  | .call name args => isPlainName name && areArgsPrintable args
  | .const path => isConstantPath path
  | .constCall path method args =>
    isConstantPath path && isMethodName method && areArgsPrintable args
  | .send receiver method args =>
    !isBareConstant receiver && isPrintable receiver && isMethodName method && areArgsPrintable args
  | .index receiver place => isPrintable receiver && isPrintable place
  | .neg operand => isPrintable operand
  | .not operand => isPrintable operand
  | .binary _ lhs rhs => isPrintable lhs && isPrintable rhs

/-- Every item can be written. -/
def arePrintable : List Expr → Bool
  | [] => true
  | e :: es => isPrintable e && arePrintable es

/-- Every key and value can be written. -/
def areEntriesPrintable : List (Expr × Expr) → Bool
  | [] => true
  | (key, e) :: rest => isPrintable key && isPrintable e && areEntriesPrintable rest

/-- Every argument can be written. -/
def areArgsPrintable : List Arg → Bool
  | [] => true
  | .positional e :: rest => isPrintable e && areArgsPrintable rest
  | .splat e :: rest => isPrintable e && areArgsPrintable rest
  | .keyword key e :: rest => isIdentifier key && isPrintable e && areArgsPrintable rest

end

/-! ## Words -/

/-- A token, and whether a blank precedes it. -/
abbrev Word := Token × Bool

/-- The word of a token at its place. -/
def Placed.word (p : Placed) : Word := (p.token, p.spaced)

/-- The token of a literal. -/
def literalToken : Value → Token
  | .bool true => .ident "true"
  | .bool false => .ident "false"
  | .int i => .int i
  | .str s => .str s
  | .sym s => .symbol s
  | _ => .ident "nil"

/-- The words of a constant's path. -/
def pathWords (path : String) (spaced : Bool) : List Word :=
  match pathParts path with
  | [] => []
  | first :: rest =>
    (.const (String.ofList first), spaced) ::
      rest.flatMap fun name => [(.mark .scope, false), (.const (String.ofList name), false)]

/-- The token of a method's name. -/
def methodToken (name : String) : Token :=
  if isConstantName name.toList then .const name else .ident name

/-- The words of an operand at a place that asks for at least the tightness `place`. -/
def encloseWords (place : Nat) (e : Expr) (ws : Bool → List Word) (spaced : Bool) : List Word :=
  if e.tightness < place then
    (.mark .parenOpen, spaced) :: (ws false ++ [(.mark .parenClose, false)])
  else ws spaced

/-- The words of texts with a comma and a blank between each two. -/
def commaWords : List (Bool → List Word) → Bool → List Word
  | [], _ => []
  | [ws], spaced => ws spaced
  | ws :: next :: rest, spaced =>
    ws spaced ++ (.mark .comma, false) :: commaWords (next :: rest) true

/-- The words of arguments in parentheses. -/
def callWords (args : List (Bool → List Word)) : List Word :=
  (.mark .parenOpen, false) :: (commaWords args false ++ [(.mark .parenClose, false)])

/-- The words of the arguments of a method. -/
def methodWords (style : Style) (args : List (Bool → List Word)) : List Word :=
  if args.isEmpty && !style.emptyParens then [] else callWords args

mutual

/-- The words of an expression, the first of them behind a blank if `spaced` says so. -/
def words (style : Style) : Expr → (spaced : Bool) → List Word
  | .lit v, spaced => [(literalToken v, spaced)]
  | .array items, spaced =>
    (.mark .bracketOpen, spaced) ::
      (commaWords (itemWords style items) false ++ [(.mark .bracketClose, false)])
  | .hash entries, spaced =>
    (.mark .braceOpen, spaced) ::
      (commaWords (entryWords style entries) false ++ [(.mark .braceClose, false)])
  | .var name, spaced => [(.ident name, spaced)]
  | .call name args, spaced => (.ident name, spaced) :: callWords (argWords style args)
  | .const path, spaced => pathWords path spaced
  | .constCall path method args, spaced =>
    pathWords path spaced ++ (.mark .dot, false) :: (methodToken method, false) ::
      methodWords style (argWords style args)
  | .send receiver method args, spaced =>
    encloseWords (levels + 1) receiver (words style receiver) spaced ++
      (.mark .dot, false) :: (methodToken method, false) :: methodWords style (argWords style args)
  | .index receiver place, spaced =>
    encloseWords (levels + 1) receiver (words style receiver) spaced ++
      (.mark .bracketOpen, false) :: (words style place false ++ [(.mark .bracketClose, false)])
  | .neg operand, spaced =>
    (.mark .minus, spaced) :: encloseWords levels operand (words style operand) false
  | .not operand, spaced =>
    (.mark .bang, spaced) :: encloseWords levels operand (words style operand) false
  | .binary op lhs rhs, spaced =>
    encloseWords op.level lhs (words style lhs) spaced ++
      (.mark op.mark, true) :: encloseWords (op.level + 1) rhs (words style rhs) true

/-- The words of the items of an array. -/
def itemWords (style : Style) : List Expr → List (Bool → List Word)
  | [] => []
  | e :: es => words style e :: itemWords style es

/-- The words of the entries of a hash. -/
def entryWords (style : Style) : List (Expr × Expr) → List (Bool → List Word)
  | [] => []
  | (key, e) :: rest =>
    (fun spaced => words style key spaced ++ (.mark .arrow, true) :: words style e true) ::
      entryWords style rest

/-- The words of the arguments of a call. -/
def argWords (style : Style) : List Arg → List (Bool → List Word)
  | [] => []
  | .positional e :: rest => words style e :: argWords style rest
  | .splat e :: rest =>
    (fun spaced => (.mark .star, spaced) :: words style e false) :: argWords style rest
  | .keyword key e :: rest =>
    (fun spaced => (.label key, spaced) :: words style e true) :: argWords style rest

end

end Expr

end DocWeave
