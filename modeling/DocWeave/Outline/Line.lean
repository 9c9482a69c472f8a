import DocWeave.Subject
import DocWeave.Text.Letter
import DocWeave.Text.Match

/-!
# Lines of a source file

Recognisers for the lines that an outline is made of. They look at one line without the blanks around
it: the head of a class or module, the head of a method, a constant, a mixin, a declarative member
line, and the word `end`.
-/

namespace DocWeave.Outline

open DocWeave.Text

/-! ## Pieces of a line -/

/-- What follows at least one blank and all further ones. -/
def afterBlanks? : List Char → Option (List Char)
  | c :: s => if isBlank c then some (s.dropWhile isBlank) else none
  | [] => none

/-- What follows a word and at least one blank. -/
def afterWord? (word : String) (line : List Char) : Option (List Char) :=
  (after? word.toList line).bind afterBlanks?

/-- At most two colons and what follows them. -/
def takeColons : List Char → List Char × List Char
  | ':' :: ':' :: s => ([':', ':'], s)
  | ':' :: s => ([':'], s)
  | s => ([], s)

/-- A character that goes on in the name of a subject. -/
def isScopedChar (c : Char) : Bool := isWordChar c || c == ':'

/-- The name of a subject, with at most two colons before it, and what follows it. -/
def takeScopedName? (s : List Char) : Option (List Char × List Char) :=
  let (colons, rest) := takeColons s
  match rest with
  | c :: t =>
    if c.isUpper then
      some (colons ++ c :: t.takeWhile isScopedChar, t.dropWhile isScopedChar)
    else none
  | [] => none

/-- A letter of ASCII or an underscore. -/
def isMemberStart (c : Char) : Bool := c.isAlpha || c == '_'

/-- A name of a member, whose last character may be one of `marks`, and what follows it. -/
def takeMemberName? (marks : List Char) : List Char → Option (List Char × List Char)
  | [] => none
  | c :: s =>
    if isMemberStart c then
      let inner := c :: s.takeWhile isWordChar
      match s.dropWhile isWordChar with
      | d :: rest => if marks.contains d then some (inner ++ [d], rest) else some (inner, d :: rest)
      | [] => some (inner, [])
    else none

/-! ## Heads of classes and modules -/

/-- The head of a class or module. -/
structure SubjectHead where
  kind : SubjectKind
  name : String
  parent : Option String
deriving DecidableEq, Repr

/-- The parent class behind a `<`, if one is named. -/
def parentOf? (s : List Char) : Option String :=
  match s.dropWhile isBlank with
  | '<' :: t => (takeScopedName? (t.dropWhile isBlank)).map fun (name, _) => String.ofList name
  | _ => none

/-- Reads the head of a class or module. -/
def subjectHead? (line : List Char) : Option SubjectHead :=
  let ofKind (kind : SubjectKind) : Option SubjectHead := do
    let s ← afterWord? kind.keyword line
    let (name, rest) ← takeScopedName? s
    return { kind, name := String.ofList name, parent := parentOf? rest }
  ofKind .classDecl <|> ofKind .moduleDecl

/-- The head of a block that defines members of the subject itself. -/
def isSingletonHead (line : List Char) : Bool :=
  match after? "class".toList line with
  | some s =>
    match after? "<<".toList (s.dropWhile isBlank) with
    | some t =>
      match after? "self".toList (t.dropWhile isBlank) with
      | some (c :: _) => !isWordChar c
      | some [] => true
      | none => false
    | none => false
  | none => false

/-! ## Heads of methods -/

/-- The head of a method. -/
structure MethodHead where
  name : String
  onSelf : Bool
deriving DecidableEq, Repr

/-- Reads the head of a method. -/
def methodHead? (line : List Char) : Option MethodHead := do
  let s ← afterWord? "def" line
  let marks := ['?', '!', '=']
  let qualified := (after? "self.".toList s).bind (takeMemberName? marks)
  match qualified with
  | some (name, _) => some ⟨String.ofList name, true⟩
  | none => (takeMemberName? marks s).map fun (name, _) => ⟨String.ofList name, false⟩

/-- What follows a parameter list in parentheses, if there is one. -/
def skipParameters (s : List Char) : List Char :=
  match s with
  | '(' :: t =>
    match t.dropWhile (· != ')') with
    | _ :: rest => rest
    | [] => s
  | _ => s

/-- What follows a name, perhaps parameters, and an `=`. -/
def afterEquals? (s : List Char) : Option (List Char) :=
  let name := s.takeWhile fun c => isWordChar c || c == '?' || c == '!'
  let rest := s.dropWhile fun c => isWordChar c || c == '?' || c == '!'
  if name.isEmpty then none
  else match (skipParameters rest).dropWhile isBlank with
    | '=' :: t => some t
    | _ => none

/-- The text behind the first `=` of a definition, if that follows the name and the parameters. -/
def equationText? (line : List Char) : Option (List Char) := do
  let s ← afterWord? "def" line
  (after? "self.".toList s).bind afterEquals? <|> afterEquals? s

/-- The line defines a method by an equation: its `=` does not begin a comparison or an arrow. -/
def isEquation (line : List Char) : Bool :=
  match equationText? line with
  | some (c :: _) => !(c == '=' || c == '~' || c == '>')
  | _ => false

/-- The line ends with a semicolon and the word `end`. -/
def closesItself (line : List Char) : Bool :=
  match before? "end".toList (trimEnd line) with
  | some s => (trimEnd s).getLast? == some ';'
  | none => false

/-- A definition that closes on its own line. -/
def isOneLiner (line : List Char) : Bool := closesItself line || isEquation line

/-- The word `end`, perhaps with something behind it that does not continue the word. -/
def isEnd (line : List Char) : Bool :=
  match after? "end".toList line with
  | some (c :: _) => !isNameChar c
  | some [] => true
  | none => false

/-- The number of blanks in front of a line. -/
def indentation (line : List Char) : Nat := (line.takeWhile isBlank).length

/-! ## Constants and mixins -/

/-- The name of a constant and the text behind its `=`. -/
def constantHead? (line : List Char) : Option (List Char × List Char) :=
  match line with
  | c :: s =>
    if c.isUpper then
      let inner (d : Char) : Bool := d.isUpper || d.isDigit || d == '_'
      match (s.dropWhile inner).dropWhile isBlank with
      | '=' :: d :: t => if d == '=' || d == '~' then none else some (c :: s.takeWhile inner, d :: t)
      | _ => none
    else none
  | [] => none

/-- The names of the modules that a line mixes in. -/
def includedNames? (line : List Char) : Option (List String) :=
  (afterWord? "include" line).map fun s =>
    ((splitOn [','] s).map trim).filterMap fun name =>
      match name with
      | c :: _ => if c.isUpper then some (String.ofList name) else none
      | [] => none

/-! ## Declarative members -/

/-- The words that declare members without defining them. -/
def declarators : List String :=
  ["attribute", "attr_reader", "attr_accessor", "attr_writer", "def_delegators", "def_delegator",
    "delegate"]

/-- A symbol with the name of a member. -/
def memberSymbol : Recogniser String := fun _ s =>
  match s with
  | ':' :: t =>
    (takeMemberName? ['?', '!'] t).map fun (name, _) => (name.length + 1, String.ofList name)
  | _ => none

/-- The arguments of a delegation, without blanks and leading colons. -/
def delegatedNames (args : List Char) : List String :=
  (splitOn [','] args).map fun a => String.ofList ((trim a).dropWhile (· == ':'))

/-- The names that a declarator with these arguments declares. -/
def declaredNames (word : String) (args : List Char) : List String :=
  let listed := match splitFirst? " to:".toList args with
    | some (front, _) => front
    | none => args
  let symbols := collect memberSymbol none listed
  match word with
  | "attr_writer" => []
  | "attribute" => symbols.take 1
  | "def_delegator" =>
    let names := delegatedNames args
    (names[2]? <|> names[1]?).toList
  | "def_delegators" => (delegatedNames args).drop 1
  | _ => symbols

/-- The declarator and the arguments of a declarative line. -/
def declaration? (line : List Char) : Option (String × List Char) :=
  declarators.findSome? fun word =>
    match afterWord? word line with
    | some args => if args.isEmpty || args.contains '\n' then none else some (word, args)
    | none => none

/-- The names that a line declares, if it is a declarative one. -/
def declarativeNames (line : List Char) : List String :=
  match declaration? (trim line) with
  | some (word, args) => declaredNames word args
  | none => []

end DocWeave.Outline
