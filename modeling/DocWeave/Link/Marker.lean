import DocWeave.Inflection

/-!
# Markers of members

A caret and a back-ticked name mark a link that is filled in when the page is known: `Owner#name`
becomes a link to a heading of the owner's page, a name with `::` in it a link to a page, and any other
name a link to a heading of the same page.
-/

namespace DocWeave.Link

open DocWeave.Text

/-- The page on which markers are filled in. -/
structure MarkerPage where
  /-- The key of the page. -/
  key : String
  /-- What stands before the key of another page in a link to it. -/
  rootPath : String

/-- A character that may stand anywhere in a marker. -/
def isMarkerChar (c : Char) : Bool :=
  isWordChar c || c == ':' || c == '.' || c == '#' || c == '?' || c == '!'

/-- The name in a marker that begins here: marker characters, of which the last may be any character
but a back-tick and a line end. -/
def markerName? (s : List Char) : Option (List Char) :=
  (after? ['^', '\x60'] s).bind fun t =>
    let name := t.takeWhile isMarkerChar
    match t.dropWhile isMarkerChar with
    | '\x60' :: _ => if name.isEmpty then none else some name
    | c :: '\x60' :: _ => if c == '\n' then none else some (name ++ [c])
    | _ => none

/-- A word and nothing else, not empty. -/
def isWord (s : List Char) : Bool := !s.isEmpty && s.all isWordChar

/-- The owner and the name, when a marker names a member of another subject. -/
def ownerAndName? (token : List Char) : Option (List Char × List Char) :=
  (splitFirst? ['#'] token).bind fun (owner, name) =>
    let parts := splitOn [':', ':'] owner
    let leaf := parts.getLast?.getD []
    let isName := !name.isEmpty && name.all fun c => isWordChar c || c == '?' || c == '!'
    if parts.dropLast.all isWord && leaf.head?.any Char.isUpper && leaf.all isWordChar && isName then
      some (owner, name)
    else none

/-- The marker names a subject inside another one. -/
def isQualified (token : List Char) : Bool :=
  match splitOn [':', ':'] token with
  | first :: second :: rest => first.all isWordChar && (second :: rest).all isWord
  | _ => false

/-- A markdown link. -/
def markdown (title target : List Char) : List Char :=
  '[' :: title ++ ']' :: '(' :: target ++ [')']

/-- The link that a marker stands for. -/
def resolveMarker (page : MarkerPage) (token : List Char) : List Char :=
  let keyOf (subject : List Char) : List Char := (Inflection.pageKey (String.ofList subject)).toList
  match ownerAndName? token with
  | some (owner, name) =>
    let heading := '#' :: Inflection.anchored name
    let target :=
      if keyOf owner = page.key.toList then heading else page.rootPath.toList ++ keyOf owner ++ heading
    markdown (Inflection.titleized name) target
  | none =>
    if isQualified token then
      markdown (Inflection.titleized (replace [':', ':'] [' '] token))
        (page.rootPath.toList ++ keyOf token)
    else markdown (Inflection.titleized token) ('#' :: Inflection.anchored token)

/-- A marker and the link that it stands for. -/
def marker (page : MarkerPage) : Recogniser (List Char) := fun _ s =>
  (markerName? s).map fun token => (token.length + 3, resolveMarker page token)

/-- Fills in every marker. -/
def fillMarkers (page : MarkerPage) (text : String) : String :=
  String.ofList (substitute (marker page) none text.toList)

end DocWeave.Link
