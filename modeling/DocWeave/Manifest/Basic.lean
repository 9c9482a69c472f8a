import DocWeave.DocBlock
import DocWeave.Link.Repository
import DocWeave.Path
import DocWeave.Subject

/-!
# Manifests

A manifest says where a project's sources are, how its pages are made, and which subjects there are
besides those found in the sources.
-/

namespace DocWeave

/-- A member that a manifest declares. -/
structure DeclaredMember where
  name : String
  kind : MemberKind
  line : Option Nat := none
  returns : Option Value := none
deriving Inhabited

/-- A subject that a manifest declares or completes. -/
structure DeclaredSubject where
  name : String
  file : Option String := none
  kind : Option SubjectKind := none
  parent : Option String := none
  includes : Option (List String) := none
  /-- Whether its file is searched for it. -/
  discover : Bool := true
  members : List DeclaredMember := []
  constants : Bindings := []
  bootstrap : Bindings := []
  stubs : Bindings := []
deriving Inhabited

/-- The settings of a project. -/
structure ProjectSettings where
  /-- The folder below which the sources are. -/
  root : String := "."
  repositoryUrl : Option String := none
  branch : String := "master"
  /-- The folder for the pages, as seen from the root. -/
  outputDir : String := "docs"
  /-- How many workers make pages. -/
  parallelism : Nat := 2
  tokens : BlockTokens := {}
  /-- Whether each entry has a link to its source. -/
  sourceLinks : Bool := false
  /-- The members to document; all when there are none. -/
  methods : List String := []
deriving Inhabited

/-- A manifest. -/
structure Manifest where
  project : ProjectSettings := {}
  /-- The patterns of the source files. -/
  patterns : List String := []
  subjects : List DeclaredSubject := []
deriving Inhabited

namespace Manifest

/-- The folder for the pages. -/
def outputPath (m : Manifest) : String := Path.join m.project.root m.project.outputDir

/-- Where files and pages are found: in the repository if there is one, else inside the project. -/
def links (m : Manifest) : Link.Repository :=
  match m.project.repositoryUrl with
  | some url => .atUrl url m.project.branch m.project.outputDir
  | none => .inProject m.project.outputDir

/-- The tokens of doc blocks, which must not be empty. -/
def tokens (m : Manifest) : Except Error BlockTokens :=
  BlockTokens.make m.project.tokens.start m.project.tokens.stop

end Manifest

end DocWeave
