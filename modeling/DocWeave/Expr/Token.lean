import DocWeave.Decimal.Shortest
import DocWeave.Text.Quoted

/-!
# Tokens

The words of the expression language. A token knows the byte offset at which it starts and whether a
blank precedes it, because `f (x)` and `f(x)` mean different things. `Token.describe` is the form in
which a complaint names the token it met.
-/

namespace DocWeave.Expr

open DocWeave.Text

/-- Punctuation and operators. -/
inductive Mark where
  | parenOpen
  | parenClose
  | bracketOpen
  | bracketClose
  | braceOpen
  | braceClose
  | comma
  | dot
  | scope
  | plus
  | minus
  | star
  | bang
  | arrow
  | assign
  | equal
  | notEqual
  | less
  | greater
  | lessEqual
  | greaterEqual
  | both
  | either
  | separator
deriving DecidableEq, Repr

/-- The name of a mark in complaints. -/
def Mark.describe : Mark → String
  | .parenOpen => "LParen"
  | .parenClose => "RParen"
  | .bracketOpen => "LBracket"
  | .bracketClose => "RBracket"
  | .braceOpen => "LBrace"
  | .braceClose => "RBrace"
  | .comma => "Comma"
  | .dot => "Dot"
  | .scope => "ColonColon"
  | .plus => "Plus"
  | .minus => "Minus"
  | .star => "Star"
  | .bang => "Bang"
  | .arrow => "Arrow"
  | .assign => "Assign"
  | .equal => "EqEq"
  | .notEqual => "NotEq"
  | .less => "Lt"
  | .greater => "Gt"
  | .lessEqual => "Le"
  | .greaterEqual => "Ge"
  | .both => "AndAnd"
  | .either => "OrOr"
  | .separator => "Sep"

/-- A word of the expression language. -/
inductive Token where
  | str (s : String)
  | int (i : Int64)
  | float (x : Float)
  | ident (name : String)
  | const (name : String)
  | symbol (name : String)
  | label (name : String)
  | mark (m : Mark)

/-- A double in a complaint: positional from `1e-4` up to, but not including, `1e16`. -/
def describeBinary : Binary → List Char
  | .nan => "NaN".toList
  | .infinite negative => (if negative then "-inf" else "inf").toList
  | .finite negative m q =>
    let body :=
      if m = 0 then "0.0".toList
      else
        let d := Decimal.shortest .up m q
        if -4 < d.pointPlace && d.pointPlace ≤ 16 then d.positional true else d.scientific []
    if negative then '-' :: body else body

/-- The form in which a complaint names a token. -/
def Token.describe : Token → String
  | .str s => "Str(" ++ quote s ++ ")"
  | .int i => "Int(" ++ toString i.toInt ++ ")"
  | .float x => "Float(" ++ String.ofList (describeBinary (.ofFloat x)) ++ ")"
  | .ident s => "Ident(" ++ quote s ++ ")"
  | .const s => "Const(" ++ quote s ++ ")"
  | .symbol s => "Symbol(" ++ quote s ++ ")"
  | .label s => "Label(" ++ quote s ++ ")"
  | .mark m => m.describe

/-- A token at its place in the text. -/
structure Placed where
  token : Token
  spaced : Bool
  offset : Nat

end DocWeave.Expr
