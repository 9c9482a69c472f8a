import DocWeave.Link.Repository
import DocWeave.Sandbox

/-!
# Workspaces

What all pages of a run share: the subjects, where their sources are, the tokens of doc blocks and the
addresses of files and pages.
-/

namespace DocWeave

/-- The fixed surroundings of a run. -/
structure Workspace where
  registry : Registry
  /-- The folder below which the sources are. -/
  root : String
  links : Link.Repository
  tokens : BlockTokens

namespace Workspace

/-- The owner of the member that a reference names. -/
def ownerOf (w : Workspace) (r : Reference) : RunM Subject := RunM.ofExcept (w.registry.ownerOf r)

/-- The definition of the member that a reference names. -/
def locate (w : Workspace) (r : Reference) : RunM Site := do
  let owner ← w.ownerOf r
  LocateM.orMissing r.raw (Locator.locate w.root w.registry r owner)

/-- The value of the member that a reference names. -/
def evaluate (w : Workspace) (r : Reference) : RunM Value := do
  let owner ← w.ownerOf r
  Sandbox.evaluate w.root w.registry owner r

/-- The address of a member's heading on the page of a subject. -/
def memberUrl (w : Workspace) (subject name : String) : String :=
  w.links.pageUrl subject ++ "#" ++ Inflection.anchor name

end Workspace

end DocWeave
