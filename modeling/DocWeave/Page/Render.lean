import DocWeave.Directive.Environment
import DocWeave.Link.Marker
import DocWeave.Link.OwnPage
import DocWeave.Page.Assembly

/-!
# Pages

The page of a subject: its members with a doc block, its constants with their values, the doc block of
the subject itself, and links to its ancestors and descendants. A member whose source is missing is left
out; every other failure is a failure of the page.
-/

namespace DocWeave

/-- A finished page. -/
structure Page where
  subject : String
  title : String
  summary : Option String
  entries : Entries
  text : String
deriving Inhabited

namespace Page

open DocWeave.Text

/-- Nothing is on the page. -/
def isEmpty (p : Page) : Bool := p.text.isEmpty

/-- How pages are made. -/
structure Options where
  /-- Whether each entry has a link to its source. -/
  sourceLinks : Bool := false
  /-- The members to document; all when there are none. -/
  methods : List Reference := []

/-- What the pages of a run are made with. -/
structure Maker where
  workspace : Workspace
  catalogue : Catalogue
  options : Options := {}

/-- What stands before the key of another page in a link to it. -/
def rootPath : String := "./"

namespace Maker

/-! ## Entries -/

/-- The members to document on the page of a subject. -/
def references (p : Maker) (s : Subject) : RunM (List Reference) :=
  if p.options.methods.isEmpty then
    return (p.workspace.registry.population s.name).map fun i =>
      Reference.member s.name i.member.name i.member.kind i.visibility
  else
    p.options.methods.filterM fun r => do return (← p.workspace.ownerOf r).name == s.name

/-- The entry of a member, if it has a doc block. -/
def entry (p : Maker) (r : Reference) : RunM (Option Entry) := do
  let owner ← p.workspace.ownerOf r
  let site ← p.workspace.locate r
  let block := site.docBlock p.workspace.tokens
  if block.isEmpty then return none
  let reference := r.placed (some site.file) (some site.line)
  let ctx := p.workspace.context p.catalogue owner (some reference)
  let text ← Template.render (blockOrigin site block r) (ctx.env p.catalogue) block.text
  return some { text, reference }

/-- The entry of a member; none when its source is missing. -/
def entryIfFound (p : Maker) (r : Reference) : RunM (Option Entry) :=
  tryCatch (p.entry r) fun e => if e.isRecoverable then pure none else throw e

/-- The entries of some members, put into `entries` one after the other. -/
def memberEntries (p : Maker) (entries : Entries) : List Reference → RunM Entries
  | [] => return entries
  | r :: rest => do
    match ← p.entryIfFound r with
    | some e => p.memberEntries (entries.insert (EntryKey.of r) e) rest
    | none => p.memberEntries entries rest

/-- An entry with a link to its source. -/
def withSourceLink (p : Maker) (e : Entry) : Entry :=
  match e.reference.kind, e.reference.file, e.reference.line with
  | .constant, _, _ => e
  | _, some file, some line =>
    let url := p.workspace.links.lineUrl file line
    { e with text := e.text ++ "\n\n[show on github](" ++ url ++ ")" }
  | _, _, _ => e

/-- The text of a constant: its doc block, if it says something, and its value. -/
def constantText (doc : Option Entry) (value : String) : String :=
  match doc with
  | some e => if e.isBlank then value else String.ofList (trimEnd e.text.toList) ++ "\n" ++ value
  | none => value

/-- The entries of some constants, put into `entries` one after the other. -/
def constantEntries (p : Maker) (s : Subject) (entries : Entries) :
    List (Subject × Constant) → RunM Entries
  | [] => return entries
  | (owner, c) :: rest => do
    let visibility := if owner.name == s.name then Visibility.native else .inherited
    let reference := Reference.member s.name c.name .constant visibility
    let text := constantText (← p.entryIfFound reference) c.value.present
    p.constantEntries s (entries.insert (EntryKey.of reference) { text, reference }) rest

/-! ## The head of a page -/

/-- The doc block above the declaration of a subject; none when it says nothing. -/
def subjectComment (p : Maker) (s : Subject) : RunM (Option String) := do
  match ← (Locator.locateSubject p.workspace.root s).run with
  | .error _ => return none
  | .ok site =>
    let block := site.docBlock p.workspace.tokens
    if block.isEmpty then return none
    let origin : Template.Origin :=
      { file := site.file, line := block.line, member := s.leafName, reference := s.name }
    let ctx := p.workspace.context p.catalogue s none
    let text := trimEnd (← Template.render origin (ctx.env p.catalogue) block.text).toList
    return if text.isEmpty then none else some (String.ofList text)

/-- A link from one subject's page to another's, made by the directive for links. -/
def subjectLink (p : Maker) (s target : Subject) : RunM String := do
  let ctx := p.workspace.context p.catalogue s none
  let args : Args :=
    { positional := [.str target.name]
      keywords := [("title", .str (Inflection.titleize target.leafName))] }
  return (← ctx.call p.catalogue "link_to_markdown" (some args)).display

/-- The name of the subject and links to its ancestors. -/
def title (p : Maker) (s : Subject) : RunM String := do
  let links ← (p.workspace.registry.ancestors s.name).mapM (p.subjectLink s)
  return " < ".intercalate (Inflection.titleize s.leafName :: links)

/-- Links to the descendants, if there are any. -/
def summary (p : Maker) (s : Subject) : RunM (Option String) := do
  match p.workspace.registry.descendants s.name with
  | [] => return none
  | descendants =>
    let links ← descendants.mapM (p.subjectLink s)
    return some ("Descendants: " ++ ", ".intercalate links)

/-! ## The page -/

/-- The text of a page with its links filled in. -/
def linked (p : Maker) (s : Subject) (text : String) : String :=
  Link.collapse (p.workspace.links.pageUrl s.name)
    (Link.fillMarkers ⟨Inflection.pageKey s.name, rootPath⟩ text)

/-- All entries of a page: members that say something, then constants. -/
def entries (p : Maker) (s : Subject) : RunM Entries := do
  let members ← p.memberEntries [] (← p.references s)
  let members := members.filter fun (_, e) => !e.isBlank
  let members := if p.options.sourceLinks
    then members.map fun (key, e) => (key, p.withSourceLink e) else members
  p.constantEntries s members (p.workspace.registry.constants s.name)

/-- The page of a subject. -/
def page (p : Maker) (s : Subject) : RunM Page := do
  let entries ← p.entries s
  let comment ← p.subjectComment s
  let title ← p.title s
  let summary ← p.summary s
  let text ← RunM.ofExcept (assemble { title, summary, comment } entries)
  return { subject := s.name, title, summary, entries, text := p.linked s text }

end Maker

end Page

end DocWeave
