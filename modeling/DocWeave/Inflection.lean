import DocWeave.Text.Blank
import DocWeave.Text.CaseMap
import DocWeave.Text.Letter
import DocWeave.Text.Match
import DocWeave.Text.Search

/-!
# Spellings of a name

A name is spelled as a path (`underscore`), as running text (`humanize`), as a heading (`titleize`),
as the anchor of that heading (`anchor`) and as the key or file of a page. Numbers are grouped in
threes by `delimit`.
-/

namespace DocWeave.Inflection

open DocWeave.Text

/-- An ASCII capital. -/
def isCapital (c : Char) : Bool := 'A' ≤ c && c ≤ 'Z'

/-- An ASCII small letter. -/
def isSmall (c : Char) : Bool := 'a' ≤ c && c ≤ 'z'

/-- A capital or a digit, as they stand in an acronym. -/
def isAcronymChar (c : Char) : Bool := isCapital c || isDigit c

/-! ## Word boundaries -/

/-- An acronym that ends where a capitalised word begins: `HTTPServer` is cut before `Server`. The
run of capitals and digits has at least two characters, its last one is a capital, and a small letter
follows it. -/
def acronymBoundary : Recogniser (List Char) := fun _ s =>
  let run := s.takeWhile isAcronymChar
  match run.reverse, s.dropWhile isAcronymChar with
  | last :: front@(_ :: _), d :: _ =>
    if isCapital last && isSmall d then
      some (run.length + 1, front.reverse ++ ['_', last, d])
    else none
  | _, _ => none

/-- A small letter or digit before a capital: `camelCase` is cut before `Case`. -/
def camelBoundary : Recogniser (List Char) := fun _ s =>
  match s with
  | c :: d :: _ => if (isSmall c || isDigit c) && isCapital d then some (2, [c, '_', d]) else none
  | _ => none

/-- The name as a path: `::` separates directories and words are joined by `_`. -/
def underscored (s : List Char) : List Char :=
  let s := replace [':', ':'] ['/'] s
  let s := substitute acronymBoundary none s
  let s := substitute camelBoundary none s
  lower (replaceChar '-' '_' s)

/-! ## Running text and headings -/

/-- Blanks for underscores, in small letters, with a capital in front on demand. -/
def spaced (s : List Char) (capitalize : Bool) : List Char :=
  let lowered := lower (replaceChar '_' ' ' s)
  if capitalize then upperFirst lowered else lowered

/-- The name as running text, without leading underscores and a trailing `_id`. -/
def humanized (s : List Char) (capitalize : Bool) : List Char :=
  let s := s.dropWhile (· == '_')
  spaced ((before? ['_', 'i', 'd'] s).getD s) capitalize

/-- Marks after which a word goes on: a letter behind one of them stays small. -/
def isInnerMark (c : Char) : Bool :=
  c == '\'' || c == '’' || c == '\x60' || c == '(' || c == ')'

/-- Capitals at the beginnings of words. `before` is the character before the previous one. -/
def capitalizeWords : (before prev : Option Char) → List Char → List Char
  | _, _, [] => []
  | before, prev, c :: s =>
    let atBoundary := prev.all fun p => !isNameChar p
    let afterMark := prev.any isInnerMark && before.any isNameChar
    (if isSmall c && atBoundary && !afterMark then c.toUpper else c) :: capitalizeWords prev (some c) s

/-- The name as a heading. -/
def titleized (s : List Char) : List Char :=
  capitalizeWords none none (spaced ((underscored s).dropWhile (· == '_')) true)

/-- Dashes for underscores. -/
def dasherized (s : List Char) : List Char := replaceChar '_' '-' s

/-- The anchor that a member's heading gets. -/
def anchored (s : List Char) : List Char :=
  (dasherized (lower s)).filter fun c => !(c == ' ' || c == '?' || c == '!')

/-! ## Grouping of digits -/

/-- A comma before every third digit from the right. -/
def groupDigits : List Char → List Char
  | [] => []
  | c :: s => if s.length % 3 == 0 && !s.isEmpty then c :: ',' :: groupDigits s else c :: groupDigits s

/-- The decimal digits of a number in groups of three. -/
def delimited (n : Int) : List Char :=
  let grouped := groupDigits (Nat.toDigits 10 n.natAbs)
  if n < 0 then '-' :: grouped else grouped

/-! ## On strings -/

/-- `"ReportParser::TransUnion"` becomes `"report_parser/trans_union"`. -/
def underscore (name : String) : String := String.ofList (underscored name.toList)

/-- `"user_name"` becomes `"User name"`. -/
def humanize (name : String) (capitalize : Bool) : String :=
  String.ofList (humanized name.toList capitalize)

/-- `"the_sum_of_a_and_b"` becomes `"The Sum Of A And B"`. -/
def titleize (name : String) : String := String.ofList (titleized name.toList)

/-- `"i_return_one"` becomes `"i-return-one"`. -/
def dasherize (name : String) : String := String.ofList (dasherized name.toList)

/-- The anchor of a member on its page. -/
def anchor (name : String) : String := String.ofList (anchored name.toList)

/-- The key of a subject's page: `"Billing::Invoice"` becomes `"billing-invoice"`. -/
def pageKey (subject : String) : String :=
  String.ofList (replaceChar '/' '-' (underscored subject.toList))

/-- The file of a subject's page below the output directory. -/
def pagePath (subject : String) : String := underscore subject ++ ".md"

/-- `10000` becomes `"10,000"`. -/
def delimit (n : Int) : String := String.ofList (delimited n)

end DocWeave.Inflection
