import DocWeave.Inflection

/-!
# Addresses

The addresses of source files and of pages: below a hosted repository, or as paths inside the project.
-/

namespace DocWeave.Link

open DocWeave.Text

/-- Drops slashes at the end. -/
def dropSlashes (s : List Char) : List Char := (s.reverse.dropWhile (· == '/')).reverse

/-- Drops slashes at both ends. -/
def trimSlashes (s : String) : String :=
  String.ofList (dropSlashes (s.toList.dropWhile (· == '/')))

/-- Drops every `./` in front. -/
def dropDots : List Char → List Char
  | '.' :: '/' :: s => dropDots s
  | s => s

/-- Where the documented files and the pages are found. -/
inductive Repository where
  /-- A hosted repository: its address, the branch and the directory of the pages. -/
  | hosted (baseUrl branch outputDir : String)
  /-- Paths inside the project. -/
  | local (outputDir : String)
deriving DecidableEq, Repr

namespace Repository

/-- A hosted repository, without needless slashes. -/
def atUrl (baseUrl branch outputDir : String) : Repository :=
  .hosted (String.ofList (dropSlashes baseUrl.toList)) branch (trimSlashes outputDir)

/-- The project itself, without needless slashes. -/
def inProject (outputDir : String) : Repository := .local (trimSlashes outputDir)

/-- The directory of the pages. -/
def outputDir : Repository → String
  | .hosted _ _ dir => dir
  | .local dir => dir

/-- The address of a file. -/
def fileUrl (r : Repository) (path : String) : String :=
  let path := String.ofList (dropDots path.toList)
  match r with
  | .hosted base branch _ => base ++ "/blob/" ++ branch ++ "/" ++ path
  | .local _ => path

/-- The address of a line of a file. -/
def lineUrl (r : Repository) (path : String) (line : Nat) : String :=
  r.fileUrl path ++ "#L" ++ toString line

/-- A path below a directory; the empty directory and `.` add nothing. -/
def below (dir path : String) : String :=
  if dir.isEmpty || dir == "." then path else dir ++ "/" ++ path

/-- The address of a subject's page. -/
def pageUrl (r : Repository) (subject : String) : String :=
  let path := below r.outputDir (Inflection.pagePath subject)
  match r with
  | .hosted _ _ _ => r.fileUrl path
  | .local _ => path

end Repository

end DocWeave.Link
