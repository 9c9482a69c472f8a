import DocWeave.Directive.Builtin
import DocWeave.Manifest.Discovery
import DocWeave.Page.Tree

/-!
# Runs

A run makes the page of every subject and hands it to a sink. The subjects are dealt to the workers in
batches of equal size, of which the last may be smaller; the pages come out in the order of the subjects
whatever the number of workers.
-/

namespace DocWeave

open DocWeave.Text

/-! ## Sinks -/

/-- Where finished pages go. -/
inductive Sink where
  /-- Nowhere. -/
  | discard
  /-- Into files below a folder. -/
  | folder (dir : String)
deriving DecidableEq, Repr

/-- The file of a subject's page in a folder. -/
def Sink.pathIn (dir subject : String) : String := Path.join dir (Inflection.pagePath subject)

/-- The files with a page written, unless it is blank or there already. -/
def FileTree.writePage (t : FileTree) (path text : String) : Except FileFault FileTree :=
  if isBlankText text.toList then .ok t
  else
    match t.read path with
    | .ok old => if old = text then .ok t else t.write path text
    | .error _ => t.write path text

/-- Hands the page of a subject to a sink. -/
def Sink.put (sink : Sink) (subject text : String) : RunM Unit :=
  match sink with
  | .discard => pure ()
  | .folder dir => do
    match (← get).files.writePage (Sink.pathIn dir subject) text with
    | .ok files => modify fun s => { s with files }
    | .error fault => throw (.of (.io fault))

/-! ## Runs -/

/-- What a run is made with. -/
structure Run where
  maker : Page.Maker
  /-- How many workers there are. -/
  workers : Nat := 2

/-- The items in batches of `size`; none is empty. -/
def batchesOf {α : Type} (size : Nat) (items : List α) : List (List α) :=
  match items with
  | [] => []
  | a :: rest => (a :: rest.take (size - 1)) :: batchesOf size (rest.drop (size - 1))
termination_by items.length
decreasing_by simp only [List.length_drop, List.length_cons]; omega

namespace Run

/-- The subjects dealt to the workers. There is at least one worker. -/
def batches (run : Run) : List (List Subject) :=
  let subjects := run.maker.workspace.registry.subjects
  let workers := max run.workers 1
  batchesOf ((subjects.length + workers - 1) / workers) subjects

/-- Makes the page of a subject and hands it on. -/
def make (run : Run) (sink : Sink) (s : Subject) : RunM Page := do
  let page ← run.maker.page s
  sink.put page.subject page.text
  return page

/-- Makes all pages. -/
def pages (run : Run) (sink : Sink) : RunM (List Page) := do
  return (← run.batches.mapM fun batch => batch.mapM (run.make sink)).flatten

/-- Makes all pages and sorts them into a tree. -/
def tree (run : Run) (sink : Sink) : RunM Page.Tree := do
  return Page.Tree.ofPages (← run.pages sink)

end Run

/-- The members that a run is narrowed down to. Each must name its owner, which must be registered. -/
def methodFilter (registry : Registry) (methods : List String) : Except Error (List Reference) :=
  methods.mapM fun text => do
    let r ← Reference.parse text ""
    if r.owner?.isNone then throw (.of (.config (.unqualifiedMethod r.raw)))
    let _ ← registry.ownerOf r
    return r

/-- The run that a manifest describes, for given subjects. -/
def Manifest.run (m : Manifest) (registry : Registry) (catalogue : Catalogue) :
    Except Error Run := do
  let tokens ← m.tokens
  let methods ← methodFilter registry m.project.methods
  return {
    maker :=
      { workspace := { registry, root := m.project.root, links := m.links, tokens }
        catalogue
        options := { sourceLinks := m.project.sourceLinks, methods } }
    workers := m.project.parallelism }

/-- The run over some subjects with the usual settings, whose sources are below the working folder. -/
def Run.ofSubjects (subjects : List Subject) (methods : List String) (workers : Nat)
    (catalogue : Catalogue) : Except Error Run := do
  let registry ← Registry.make subjects
  let methods ← methodFilter registry methods
  return {
    maker :=
      { workspace := { registry, root := ".", links := .inProject "docs", tokens := {} }
        catalogue
        options := { methods } }
    workers }

end DocWeave
