import DocWeave.Prose.Number
import DocWeave.Prose.Operator
import DocWeave.Prose.Statement
import DocWeave.Prose.Word

/-!
# Loose English

`prettyCode` turns a fragment of code into something close to English. Quoted or back-ticked phrases in
such text can be turned back into names of members.
-/

namespace DocWeave.Prose

open DocWeave.Text

/-! ## Code -/

/-- A memoised instance variable: the variable, a blank, the operator and a blank. -/
def memoized : Recogniser (List Char) := fun _ s =>
  match s with
  | '@' :: c :: t =>
    let inner (d : Char) : Bool := d.isLower || d.isDigit || d == '_'
    let name := t.takeWhile inner
    if c.isLower && !name.isEmpty then
      (after? " ||".toList (t.dropWhile inner)).bind fun rest =>
        let (width, rest) := match rest with
          | '=' :: u => (1, u)
          | u => (0, u)
        match rest with
        | d :: _ => if isBlank d then some (name.length + width + 6, []) else none
        | [] => none
    else none
  | _ => none

/-- The operators that `prettyCode` puts into words. -/
def prettyWords : List (String × String) :=
  [(":", ""), ("&&", "and"), (">=", "is greater than or equal to"), ("<=", "is less than or equal to"),
    (" < ", " is less than "), (" > ", " is greater than "), (" == ", " Equal to "),
    ("nil?", "is missing?"), ("elsif", "else if"), ("||", "or")]

/-- A quotation mark. -/
def isQuote (c : Char) : Bool := c == '"' || c == '\''

/-- A character of a word of code. -/
def isCodeChar (c : Char) : Bool := c.isAlphanum || c == '_' || c == '?' || c == '!'

/-- A word with the quotation marks directly around it; it may be empty. -/
def takeQuotedWord (s : List Char) : List Char :=
  let opening := s.take 1 |>.filter isQuote
  let rest := s.drop opening.length
  let closing := (rest.dropWhile isCodeChar).take 1 |>.filter isQuote
  opening ++ rest.takeWhile isCodeChar ++ closing

/-- The word has quotation marks on both sides. -/
def isQuotedWord (word : List Char) : Bool :=
  2 ≤ word.length && word.head?.any isQuote && word.getLast?.any isQuote

/-- A word in running text: a name of several words is put into quotation marks. -/
def prettyWord : Recogniser (List Char) := fun _ s =>
  let word := takeQuotedWord s
  some (word.length,
    if word.contains '_' && !isQuotedWord word then
      '\'' :: Inflection.humanized word true ++ ['\'']
    else Inflection.humanized word false)

/-- Loose English for a fragment of code. -/
def prettyCode (humanize : Bool) (s : List Char) : List Char :=
  let s := prettyEarlyReturn (ternaryToIfElse s)
  let s := replaceEach prettyWords (substitute memoized none s)
  let s := substitute commaNumber none s
  if humanize then substitute prettyWord none s else s

/-! ## Phrases -/

/-- The text without quotation marks and bars. -/
def removeQuotes (s : List Char) : List Char :=
  s.filter fun c => !(c == '\'' || c == '"' || c == '|')

/-- The phrase is one of the names to include; without a list every phrase is. -/
def isIncluded (names : Option (List String)) (phrase : List Char) : Bool :=
  names.all fun names =>
    names.contains (String.ofList ((removeQuotes phrase).filter (· != '\x60')))

/-- A phrase of words between marks. -/
def takePhrase? (isMark : Char → Bool) (s : List Char) : Option (List Char) :=
  match s with
  | c :: t =>
    let body := t.takeWhile fun d => isCodeChar d || isBlank d
    match t.dropWhile fun d => isCodeChar d || isBlank d with
    | d :: _ => if isMark c && !body.isEmpty && isMark d then some (c :: body ++ [d]) else none
    | [] => none
  | [] => none

/-- Quoted phrases become markers of members. -/
def quotedAsMarkers (names : Option (List String)) (s : List Char) : List Char :=
  substitute (fun _ s =>
    (takePhrase? isQuote s).map fun phrase =>
      (phrase.length,
        if isIncluded names phrase then
          "^\x60".toList ++ replaceChar ' ' '_' (Inflection.underscored (removeQuotes phrase)) ++ ['\x60']
        else phrase)) none s

/-- Back-ticked phrases become links when they name a member. -/
def phrasesAsLinks (names : Option (List String)) (isMember : String → Bool) (link : String → String)
    (s : List Char) : List Char :=
  substitute (fun _ s =>
    (takePhrase? (· == '\x60') s).map fun phrase =>
      (phrase.length,
        if isIncluded names phrase then
          let name := (replaceChar ' ' '_' (Inflection.underscored phrase)).filter (· != '\x60')
          membersAsLinks isMember link name
        else phrase)) none s

end DocWeave.Prose
