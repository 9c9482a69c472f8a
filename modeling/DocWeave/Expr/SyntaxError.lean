import DocWeave.Expr.Token

/-!
# Complaints about expression text

A text is refused either while its words are cut out (`lexical`, with the byte offset) or while they
are put together (`grammar`, with the token that was met, if the text did not simply end).
-/

namespace DocWeave.Expr

/-- Why no word could be cut out. -/
inductive LexicalFault where
  | unterminatedString
  | integerTooLarge
  | unexpectedCharacter (c : Char)
deriving DecidableEq

/-- The wording of a lexical fault. -/
def LexicalFault.message : LexicalFault → String
  | .unterminatedString => "unterminated string"
  | .integerTooLarge => "integer too large"
  | .unexpectedCharacter c => "unexpected character `" ++ String.ofList [c] ++ "`"

/-- What the grammar missed or did not want. -/
inductive GrammarFault where
  | expressionExpected
  | methodNameExpected
  | constantExpected
  | statementEndExpected
  | parenExpected
  | bracketExpected
  | arrowExpected
  | parenOrCommaExpected
  | bracketOrCommaExpected
  | braceOrCommaExpected
  | unsupportedWord (word : String)
  | trailingInput
deriving DecidableEq

/-- The wording of a grammatical fault. -/
def GrammarFault.message : GrammarFault → String
  | .expressionExpected => "expected expression"
  | .methodNameExpected => "expected method name after `.`"
  | .constantExpected => "expected constant after `::`"
  | .statementEndExpected => "expected end of statement"
  | .parenExpected => "expected `)`"
  | .bracketExpected => "expected `]`"
  | .arrowExpected => "expected `=>`"
  | .parenOrCommaExpected => "expected `,` or `)`"
  | .bracketOrCommaExpected => "expected `,` or `]`"
  | .braceOrCommaExpected => "expected `,` or `\x7d`"
  | .unsupportedWord word => "`" ++ word ++ "` is not supported"
  | .trailingInput => "unexpected trailing input"

/-- Why a text is no expression or program. -/
inductive SyntaxError where
  | lexical (offset : Nat) (fault : LexicalFault)
  | grammar (fault : GrammarFault) (found : Option Placed)

/-- The wording of a refusal. -/
def SyntaxError.message : SyntaxError → String
  | .lexical offset fault => s!"syntax error at offset {offset}: " ++ fault.message
  | .grammar fault (some t) =>
    s!"syntax error at offset {t.offset}: " ++ fault.message ++ " (found " ++ t.token.describe ++ ")"
  | .grammar fault none => "syntax error: " ++ fault.message ++ " (found end of input)"

end DocWeave.Expr
