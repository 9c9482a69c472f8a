import DocWeave.EvalError
import DocWeave.Text.Blank
import DocWeave.Text.Search

/-!
# Segments of a template

A template is text with tags: an output tag inserts a value, a statement tag runs statements and a
comment tag does nothing. A second percent sign behind the opening mark stands for the mark itself.
A dash inside the opening mark removes the blanks and tabs before the tag, a dash inside the closing
mark the line end behind it. Each tag remembers on which line of the template it stands, counted from
zero.
-/

namespace DocWeave.Template

open DocWeave.Text

/-- A piece of a template. -/
inductive Segment where
  | text (s : String)
  /-- An expression whose value is inserted. -/
  | output (code : String) (line : Nat)
  /-- Statements that are run. -/
  | exec (code : String) (line : Nat)
deriving DecidableEq, Repr

/-- The code up to the closing mark and what follows the mark. A mark inside quotes does not count; in
quotes a backslash takes the next character with it. -/
def cutTag (quote : Option Char) : List Char → Option (List Char × List Char)
  | [] => none
  | [_] => none
  | c :: d :: s =>
    match quote with
    | some q =>
      if c = '\\' then (cutTag quote s).map fun (code, rest) => (c :: d :: code, rest)
      else
        (cutTag (if c = q then none else some q) (d :: s)).map fun (code, rest) => (c :: code, rest)
    | none =>
      if c = '%' ∧ d = '>' then some ([], s)
      else
        (cutTag (if c = '"' ∨ c = '\'' then some c else none) (d :: s)).map
          fun (code, rest) => (c :: code, rest)

theorem cutTag_length {quote : Option Char} {s code rest : List Char}
    (h : cutTag quote s = some (code, rest)) : rest.length < s.length := by
  fun_induction cutTag quote s generalizing code with
  | case1 => simp at h
  | case2 => simp at h
  | case3 d s q ih =>
    simp only [Option.map_eq_some_iff, Prod.mk.injEq, Prod.exists] at h
    obtain ⟨t, r, hs, _, rfl⟩ := h
    have := ih hs
    simp only [List.length_cons]; omega
  | case4 c d s q hc ih =>
    simp only [Option.map_eq_some_iff, Prod.mk.injEq, Prod.exists] at h
    obtain ⟨t, r, hs, _, rfl⟩ := h
    have := ih hs
    simp only [List.length_cons] at this ⊢; omega
  | case5 c d s hc =>
    simp only [Option.some.injEq, Prod.mk.injEq] at h
    obtain ⟨_, rfl⟩ := h
    simp only [List.length_cons]; omega
  | case6 c d s hc ih =>
    simp only [Option.map_eq_some_iff, Prod.mk.injEq, Prod.exists] at h
    obtain ⟨t, r, hs, _, rfl⟩ := h
    have := ih hs
    simp only [List.length_cons] at this ⊢; omega

/-- The text without blanks and tabs at its end. -/
def dropIndent (s : List Char) : List Char :=
  (s.reverse.dropWhile fun c => c == ' ' || c == '\t').reverse

/-- A text segment, unless it is empty. -/
def textSegment (s : List Char) : List Segment :=
  if s.isEmpty then [] else [.text (String.ofList s)]

/-- The segment of a tag with this code; a comment has none. -/
def tagSegment (code : List Char) (line : Nat) : List Segment :=
  match code with
  | '=' :: c => [.output (String.ofList (trim c)) line]
  | '#' :: _ => []
  | c => [.exec (String.ofList (trim c)) line]

/-- The code without the dash at its end, and whether there was one. -/
def cutDash (raw : List Char) : List Char × Bool :=
  match before? ['-'] raw with
  | some code => (code, true)
  | none => (raw, false)

/-- What follows a tag: without a line end that comes next, if the tag takes it, and whether it did. -/
def cutLineEnd (takes : Bool) (rest : List Char) : List Char × Bool :=
  match rest, takes with
  | '\n' :: s, true => (s, true)
  | s, _ => (s, false)

theorem cutLineEnd_length (takes : Bool) (rest : List Char) :
    (cutLineEnd takes rest).1.length ≤ rest.length := by
  fun_cases cutLineEnd takes rest <;> simp

/-- What follows an opening mark: without the dash that comes next, and whether there was one. -/
def cutOpeningDash : List Char → List Char × Bool
  | '-' :: s => (s, true)
  | s => (s, false)

theorem cutOpeningDash_length (s : List Char) : (cutOpeningDash s).1.length ≤ s.length := by
  fun_cases cutOpeningDash s <;> simp

/-- A tag without its marks, and what follows it. -/
structure Tag where
  code : List Char
  /-- The blanks and tabs before the tag are removed. -/
  trimsLeft : Bool
  /-- The line ends inside the tag, and the one behind it if the tag takes it. -/
  lineEnds : Nat
  rest : List Char

/-- Cuts a tag off a text that follows an opening mark, if the tag is closed. -/
def cutWholeTag? (after : List Char) : Option Tag :=
  let opened := cutOpeningDash after
  (cutTag none opened.1).map fun (raw, behind) =>
    let dashed := cutDash raw
    let closed := cutLineEnd dashed.2 behind
    { code := dashed.1, trimsLeft := opened.2
      lineEnds := countChar '\n' raw + (if closed.2 then 1 else 0), rest := closed.1 }

theorem cutWholeTag?_length {after : List Char} {tag : Tag} (h : cutWholeTag? after = some tag) :
    tag.rest.length < after.length := by
  simp only [cutWholeTag?, Option.map_eq_some_iff, Prod.exists] at h
  obtain ⟨raw, behind, hc, rfl⟩ := h
  have h1 := cutOpeningDash_length after
  have h2 := cutTag_length hc
  have h3 := cutLineEnd_length (cutDash raw).2 behind
  show (cutLineEnd (cutDash raw).2 behind).1.length < after.length
  omega

/-- The segments of a template from some place on: `line` is the number of line ends passed so far and
`text` the text that no segment has taken yet. -/
def scanFrom (line : Nat) (text rest : List Char) : Except EvalError (List Segment) :=
  match _h₀ : splitFirst? ['<', '%'] rest with
  | none => .ok (textSegment (text ++ rest))
  | some (before, '%' :: s) =>
    scanFrom (line + countChar '\n' before) (text ++ before ++ ['<', '%']) s
  | some (before, after) =>
    match _h₁ : cutWholeTag? after with
    | none => .error (.unterminatedTag (line + countChar '\n' before + 1))
    | some tag =>
      let here := line + countChar '\n' before
      let text := if tag.trimsLeft then dropIndent (text ++ before) else text ++ before
      (scanFrom (here + tag.lineEnds) [] tag.rest).map fun later =>
        textSegment text ++ tagSegment tag.code here ++ later
termination_by rest.length
decreasing_by
  · have := congrArg List.length (eq_of_splitFirst? _h₀)
    simp only [List.length_append, List.length_cons] at this; omega
  · have h0 := congrArg List.length (eq_of_splitFirst? _h₀)
    have h1 := cutWholeTag?_length _h₁
    simp only [List.length_append, List.length_cons] at h0
    omega

/-- The segments of a template. -/
def scan (template : String) : Except EvalError (List Segment) := scanFrom 0 [] template.toList

end DocWeave.Template
