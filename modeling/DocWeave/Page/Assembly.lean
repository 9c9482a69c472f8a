import DocWeave.Inflection
import DocWeave.Page.Entry

/-!
# Putting a page together

A page has a title, a summary, the comment of its subject and its sections. The entries of a section go
by their place in the source: first those that have one, by file, line and name, then the others by
name. More than one empty line in a row is reduced to one, and a page without content is the empty text.
-/

namespace DocWeave.Page

open DocWeave.Text

/-- How the entries of one kind are laid out. -/
structure Section where
  kind : MemberKind
  /-- The mark of each entry's heading. -/
  heading : String
  /-- The heading of the section itself, if it has one. -/
  title : Option String
deriving DecidableEq, Repr

/-- The usual section of a kind. -/
def Section.ofKind : MemberKind → Section
  | .constant => ⟨.constant, "###", some "Reference Values"⟩
  | kind => ⟨kind, "##", none⟩

/-- Members of instances, members of the subject, and constants at the end. -/
def Section.standard : List Section :=
  [.ofKind .onInstance, .ofKind .onClass, .ofKind .constant]

/-- What a page is made of besides its entries. -/
structure Layout where
  title : String
  summary : Option String := none
  comment : Option String := none
  sections : List Section := Section.standard

/-! ## Order of entries -/

/-- The place of an entry in the source, if its line is known. -/
def place? (e : Entry) : Option (String × Nat) :=
  e.reference.line.map fun line => (e.reference.file.getD "", line)

/-- The order of the entries of a section. -/
def entryOrder (a b : String × Entry) : Ordering :=
  match place? a.2, place? b.2 with
  | some x, some y =>
    (compare x.1 y.1).then ((compare x.2 y.2).then (compare a.1 b.1))
  | some _, none => .lt
  | none, some _ => .gt
  | none, none => compare a.1 b.1

/-- The entries of a kind that are not blank, with their names, in order. -/
def entriesOf (entries : Entries) (kind : MemberKind) : List (String × Entry) :=
  ((entries.filter fun (key, e) => key.kind == kind && !e.isBlank).map fun (key, e) => (key.name, e))
    |>.mergeSort fun a b => entryOrder a b != .gt

/-! ## Text -/

/-- Reduces more than two line ends in a row to two; `seen` of them have just been passed. -/
def squeezeFrom : (seen : Nat) → List Char → List Char
  | _, [] => []
  | seen, c :: s =>
    if c = '\n' then
      if seen < 2 then c :: squeezeFrom (seen + 1) s else squeezeFrom seen s
    else c :: squeezeFrom 0 s

/-- Reduces more than two line ends in a row to two. -/
def squeeze (s : List Char) : List Char := squeezeFrom 0 s

/-- The text without line ends at its end. -/
def dropLineEnds (s : List Char) : List Char := (s.reverse.dropWhile (· == '\n')).reverse

/-- One entry with its heading. -/
def entryText (heading : String) (e : String × Entry) : List Char :=
  heading.toList ++ ' ' :: Inflection.titleized e.1.toList ++ '\n' :: e.2.text.toList

/-- A section; nothing when it has no entries. -/
def sectionText (s : Section) (group : List (String × Entry)) : List Char :=
  let body := ['\n', '\n'].intercalate (group.map (entryText s.heading))
  match s.title, body with
  | _, [] => []
  | some title, body => "\n## ".toList ++ title.toList ++ '\n' :: body ++ ['\n']
  | none, body => body

/-- The texts of the sections; only the first section of a kind has its entries. -/
def sectionTexts (entries : Entries) : (done : List MemberKind) → List Section → List (List Char)
  | _, [] => []
  | done, s :: rest =>
    let group := if done.contains s.kind then [] else entriesOf entries s.kind
    sectionText s group :: sectionTexts entries (s.kind :: done) rest

/-- The kinds of entries with content that no section takes, in the order of kinds. -/
def unhandledKinds (sections : List Section) (entries : Entries) : List MemberKind :=
  [MemberKind.onInstance, .onClass, .constant].filter fun kind =>
    !(sections.any (·.kind == kind)) && entries.any fun (key, e) => key.kind == kind && !e.isBlank

/-- The text of a page. -/
def assemble (layout : Layout) (entries : Entries) : Except Error String :=
  match unhandledKinds layout.sections entries with
  | kind :: kinds =>
    .error (.of (.unrecognizedKinds (", ".intercalate ((kind :: kinds).map MemberKind.label))))
  | [] =>
    let bodies := sectionTexts entries [] layout.sections
    let comment := layout.comment.bind fun c => if isBlankText c.toList then none else some c
    if comment.isNone && bodies.all List.isEmpty then .ok ""
    else
      let title := "# ".toList ++ layout.title.toList
      let summary := squeeze ((layout.summary.getD "").toList ++ ['\n'])
      let comment := match comment with
        | some c => c.toList ++ ['\n']
        | none => []
      let parts := (title :: summary :: comment :: bodies).filter (!·.isEmpty)
      let page := squeeze (['\n'].intercalate parts)
      .ok (String.ofList (dropLineEnds page ++ ['\n', '\n']))

end DocWeave.Page
