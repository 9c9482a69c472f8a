import DocWeave.Inflection
import DocWeave.Value.Text

/-!
# Words of a text

A walk over the words of a text that leaves quoted and back-ticked spans and the targets of links
alone. Names of constants and of members can be replaced by links on the way.
-/

namespace DocWeave.Prose

open DocWeave.Text

/-- A word with the characters around it. -/
structure Word where
  text : List Char
  prev : Option Char
  next : Option Char

/-- How many characters there are up to and with the closing one, on this line. A backslash takes the
next character with it. -/
def spanLength? (close : Char) : List Char → Option Nat
  | [] => none
  | [c] => if c ≠ '\\' ∧ c ≠ '\n' ∧ c = close then some 1 else none
  | c :: d :: s =>
    if c = '\\' then (spanLength? close s).map (· + 2)
    else if c = '\n' then none
    else if c = close then some 1
    else (spanLength? close (d :: s)).map (· + 1)

/-- The character that closes a span opened by `c`. -/
def closerOf? (prev : Option Char) (c : Char) : Option Char :=
  if c = '\'' ∨ c = '"' ∨ c = '\x60' then some c
  else if c = '(' ∧ prev = some ']' then some ')'
  else none

/-- A span that is left alone. -/
def takeSpan? (prev : Option Char) : List Char → Option Nat
  | [] => none
  | c :: s => (closerOf? prev c).bind fun close => (spanLength? close s).map (· + 1)

/-- A question or exclamation mark that comes next. -/
def takeEnding : List Char → List Char
  | c :: _ => if c = '?' ∨ c = '!' then [c] else []
  | [] => []

/-- The word that begins here. -/
def takeWord? (prev : Option Char) (s : List Char) : Option Word :=
  match s with
  | c :: _ =>
    if (isAlphabetic c || c == '_') && !prev.any isNameChar then
      let body := s.takeWhile isNameChar
      let rest := s.dropWhile isNameChar
      let ending := takeEnding rest
      some { text := body ++ ending, prev, next := (rest.drop ending.length).head? }
    else none
  | [] => none

/-- Spans as they stand, and words as `f` wants them. -/
def wordOrSpan (f : Word → Option (List Char)) : Recogniser (List Char) := fun prev s =>
  match takeSpan? prev s with
  | some n => some (n, s.take n)
  | none => (takeWord? prev s).map fun word => (word.text.length, (f word).getD word.text)

/-- Replaces the words that `f` has something for. -/
def mapWords (f : Word → Option (List Char)) (s : List Char) : List Char :=
  substitute (wordOrSpan f) none s

/-- The name of a constant: at least two capitals, digits and underscores, with a capital first. -/
def isConstantName : List Char → Bool
  | c :: d :: s => c.isUpper && (d :: s).all fun x => x.isUpper || x.isDigit || x == '_'
  | _ => false

/-- Names of constants become links that show their values. -/
def constantsAsLinks (lookup : String → Option Value) (s : List Char) : List Char :=
  mapWords (fun word =>
    if isConstantName word.text then
      (lookup (String.ofList word.text)).map fun v =>
        '[' :: v.present.toList ++ "](#".toList ++ Inflection.anchored word.text ++ [')']
    else none) s

/-- The word may name a member: it begins like one, has no receiver, and is no symbol, variable or
label. -/
def mayNameMember (word : Word) : Bool :=
  (match word.text with
    | c :: _ => c.isLower || c == '_'
    | [] => false) &&
    !word.prev.any (fun c => c == '.' || c == ':' || c == '@' || c == '$') && word.next != some ':'

/-- Names of members become links. -/
def membersAsLinks (isMember : String → Bool) (link : String → String) (s : List Char) : List Char :=
  mapWords (fun word =>
    let name := String.ofList word.text
    if mayNameMember word && isMember name then some (link name).toList else none) s

end DocWeave.Prose
