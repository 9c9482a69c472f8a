import DocWeave.FileTree
import DocWeave.Manifest.Basic
import DocWeave.Toml.Document

/-!
# Reading manifests

A manifest is a TOML document with fixed fields. A record may be written as a table or as an array of
its fields in order. A field that is unknown, missing without a default or of another type makes the
whole manifest invalid.
-/

namespace DocWeave.Manifest

open DocWeave.Toml

/-! ## Fields -/

/-- The key under which a date is seen as a table. -/
def momentKey : String := "$__toml_private_datetime"

mutual

/-- The value that an item stands for in expressions. -/
def valueOf : Item → Value
  | .string s => .str s
  | .integer n => .int n
  | .float x => .float x
  | .boolean b => .bool b
  | .moment s => .hash [(momentKey, .str s)]
  | .array items => .array (valuesOf items)
  | .table _ entries => .hash (bindingsOf entries)
  | .tables elements => .array (valuesOf elements)

/-- The values of a list of items. -/
def valuesOf : List Item → List Value
  | [] => []
  | item :: rest => valueOf item :: valuesOf rest

/-- The values of the entries of a table. -/
def bindingsOf : List (String × Item) → List (String × Value)
  | [] => []
  | (key, item) :: rest => (key, valueOf item) :: bindingsOf rest

end

/-- The text that an item is. -/
def text? : Item → Option String
  | .string s => some s
  | _ => none

/-- The truth value that an item is. -/
def flag? : Item → Option Bool
  | .boolean b => some b
  | _ => none

/-- The count that an item is. -/
def count? : Item → Option Nat
  | .integer n => if 0 ≤ n.toInt then some n.toInt.toNat else none
  | _ => none

/-- The items of a list. -/
def items? : Item → Option (List Item)
  | .array items => some items
  | .tables elements => some elements
  | _ => none

/-- The texts of a list. -/
def texts? (item : Item) : Option (List String) := do (← items? item).mapM text?

/-- Names with their values. -/
def bindings? : Item → Option Bindings
  | .table _ entries => some (bindingsOf entries)
  | .moment s => some [(momentKey, .str s)]
  | _ => none

/-- The item is an empty list or table. -/
def isEmptyItem : Item → Bool
  | .array [] => true
  | .table _ [] => true
  | _ => false

/-- The word by which a choice is made: a text, or the only key of a table that holds nothing. -/
def word? : Item → Option String
  | .string s => some s
  | .table _ [(key, item)] => if isEmptyItem item then some key else none
  | _ => none

/-- The fields of a record. Written as an array it must have at least the first `least` of them. -/
def fields? (names : List String) (least : Nat) : Item → Option TableBody
  | .table _ entries => if entries.all fun e => names.contains e.1 then some entries else none
  | .array items => if least ≤ items.length then some (names.zip items) else none
  | .tables elements => if least ≤ elements.length then some (names.zip elements) else none
  | _ => none

/-- A field that must be there. -/
def required {α : Type} (entries : TableBody) (name : String) (read? : Item → Option α) : Option α :=
  (entries.get? name).bind read?

/-- A field that may be left out. -/
def optional {α : Type} (entries : TableBody) (name : String) (read? : Item → Option α) :
    Option (Option α) :=
  match entries.get? name with
  | none => some none
  | some item => (read? item).map some

/-- A field with a default. -/
def defaulted {α : Type} (entries : TableBody) (name : String) (default : α)
    (read? : Item → Option α) : Option α :=
  (optional entries name read?).map (·.getD default)

/-! ## Records -/

/-- The kind of a member. -/
def memberKind? (item : Item) : Option MemberKind :=
  match word? item with
  | some "instance" => some .onInstance
  | some "class" => some .onClass
  | some "constant" => some .constant
  | _ => none

/-- The kind of a subject. -/
def subjectKind? (item : Item) : Option SubjectKind :=
  match word? item with
  | some "class" => some .classDecl
  | some "module" => some .moduleDecl
  | _ => none

/-- A declared member. -/
def member? (item : Item) : Option DeclaredMember := do
  let entries ← fields? ["name", "kind", "line", "returns"] 4 item
  return {
    name := ← required entries "name" text?
    kind := ← required entries "kind" memberKind?
    line := ← optional entries "line" count?
    returns := ← optional entries "returns" fun item => some (valueOf item) }

/-- A declared subject. -/
def subject? (item : Item) : Option DeclaredSubject := do
  let names := ["name", "file", "kind", "parent", "includes", "discover", "member", "constants",
    "bootstrap", "stubs"]
  let entries ← fields? names 5 item
  return {
    name := ← required entries "name" text?
    file := ← optional entries "file" text?
    kind := ← optional entries "kind" subjectKind?
    parent := ← optional entries "parent" text?
    includes := ← optional entries "includes" texts?
    discover := ← defaulted entries "discover" true flag?
    members := ← defaulted entries "member" [] fun item => do (← items? item).mapM member?
    constants := ← defaulted entries "constants" [] bindings?
    bootstrap := ← defaulted entries "bootstrap" [] bindings?
    stubs := ← defaulted entries "stubs" [] bindings? }

/-- The settings of a project. -/
def settings? (item : Item) : Option ProjectSettings := do
  let names := ["root", "repository_url", "branch", "output_dir", "parallelism", "start_token",
    "end_token", "source_links", "methods"]
  let entries ← fields? names 0 item
  let usual : ProjectSettings := {}
  return {
    root := ← defaulted entries "root" usual.root text?
    repositoryUrl := ← optional entries "repository_url" text?
    branch := ← defaulted entries "branch" usual.branch text?
    outputDir := ← defaulted entries "output_dir" usual.outputDir text?
    parallelism := ← defaulted entries "parallelism" usual.parallelism count?
    tokens :=
      { start := ← defaulted entries "start_token" usual.tokens.start text?
        stop := ← defaulted entries "end_token" usual.tokens.stop text? }
    sourceLinks := ← defaulted entries "source_links" usual.sourceLinks flag?
    methods := ← defaulted entries "methods" usual.methods texts? }

/-- The patterns of the source files. -/
def patterns? (item : Item) : Option (List String) := do
  let entries ← fields? ["include"] 0 item
  defaulted entries "include" [] texts?

/-- The manifest that a document describes. -/
def ofEntries? (document : TableBody) : Option Manifest := do
  let entries ← fields? ["project", "discover", "subject"] 0 (.table .header document)
  return {
    project := ← defaulted entries "project" {} settings?
    patterns := ← defaulted entries "discover" [] patterns?
    subjects := ← defaulted entries "subject" [] fun item => do (← items? item).mapM subject? }

/-! ## Manifests -/

/-- Reads a manifest. There must be at least one worker. -/
def parse (text : String) : Except Error Manifest :=
  match (Toml.parse text).bind ofEntries? with
  | none => .error (.of .toml)
  | some m => if m.project.parallelism = 0 then .error (.of (.config .noWorkers)) else .ok m

/-- The manifest in a file. Its root is seen from the folder of the file. -/
def load (files : FileTree) (path : String) : Except Error Manifest :=
  match files.read path with
  | .error fault => .error (.of (.read path fault))
  | .ok text => do
    let m ← parse text
    let root :=
      if Path.isAbsolute m.project.root then m.project.root
      else Path.join (Path.parent path) m.project.root
    return { m with project := { m.project with root } }

end DocWeave.Manifest
