import DocWeave.Toml.Scalar

/-!
# Reading TOML documents

A document is read line by line into a draft: the tables finished so far and the one under the current
header. A table can be defined only once. Dots in a key lead only into tables that dots have made; a
header leads through every table and into the last one of a repeated header.
-/

namespace DocWeave.Toml

/-- Arrays and tables in a value, and the parts of a key, nest at most this deep. -/
def nestingLimit : Nat := 80

/-! ## Tables under construction -/

/-- Goes along a path from a table and changes the table it leads to; `change` learns how that table was
written. Tables that are missing on the way are made. -/
def edit {α : Type} (byDots : Bool) (change : TableForm → TableBody → Option (α × TableBody))
    (form : TableForm) (entries : TableBody) : (path : List String) → Option (α × TableBody)
  | [] => change form entries
  | key :: rest =>
    match entries.get? key with
    | none => do
      let made := if byDots then TableForm.dotted else .implied
      let (a, inner) ← edit byDots change made [] rest
      return (a, entries.insert key (.table made inner))
    | some (.table form inner) =>
      if form = .inline || (byDots && form = .header) then none
      else do
        let (a, inner) ← edit byDots change form inner rest
        return (a, entries.insert key (.table form inner))
    | some (.tables elements) =>
      match elements.getLast? with
      | some (.table form inner) => do
        let (a, inner) ← edit byDots change form inner rest
        return (a, entries.insert key (.tables (elements.dropLast ++ [.table form inner])))
      | _ => none
    | some _ => none

/-- Adds an entry under a key with dots. The key must be new, and a table is filled either by dots or
under its header, not both. -/
def put (form : TableForm) (entries : TableBody) (path : List String) (item : Item) : Option TableBody :=
  match path.getLast? with
  | none => none
  | some key =>
    let front := path.dropLast
    let add (form : TableForm) (entries : TableBody) : Option (Unit × TableBody) :=
      if (form == .dotted) == front.isEmpty || entries.hasKey key then none
      else some ((), entries.insert key item)
    (edit true add form entries front).map Prod.snd

/-- A document of which the lines so far are read. -/
structure Draft where
  /-- The finished tables. -/
  done : TableBody := []
  /-- The path in the current header. -/
  path : List String := []
  /-- The current header is a repeated one. -/
  isElement : Bool := false
  /-- The entries under the current header. -/
  current : TableBody := []

namespace Draft

/-- Puts the table under the current header into place. -/
def finish (d : Draft) : Option TableBody :=
  match d.path.getLast? with
  | none => some d.current
  | some key =>
    let table := Item.table .header d.current
    let place (_ : TableForm) (entries : TableBody) : Option (Unit × TableBody) :=
      match entries.get? key, d.isElement with
      | none, false => some ((), entries.insert key table)
      | none, true => some ((), entries.insert key (.tables [table]))
      | some (.tables elements), true => some ((), entries.insert key (.tables (elements ++ [table])))
      | _, _ => none
    (edit false place .header d.done d.path.dropLast).map Prod.snd

/-- A header: it names a new table, or one that so far was only implied. -/
def openTable (d : Draft) (path : List String) : Option Draft := do
  let done ← d.finish
  let key ← path.getLast?
  let takeOut (_ : TableForm) (entries : TableBody) : Option (TableBody × TableBody) :=
    match entries.get? key with
    | none => some ([], entries)
    | some (.table .implied inner) => some (inner, entries.filter (·.1 != key))
    | some _ => none
  let (current, done) ← edit false takeOut .header done path.dropLast
  return { done, path, current }

/-- A repeated header: it adds one more table under its path. -/
def openElement (d : Draft) (path : List String) : Option Draft := do
  let done ← d.finish
  return { done, path, isElement := true }

/-- An entry under the current header. -/
def add (d : Draft) (path : List String) (item : Item) : Option Draft :=
  (put .header d.current path item).map fun current => { d with current }

end Draft

/-! ## Keys and values -/

/-- The text without blanks in front. -/
def skipGap (s : List Char) : List Char := s.dropWhile isGap

/-- One part of a key. -/
def simpleKey (s : List Char) : Option (String × List Char) :=
  let isKeyChar (c : Char) : Bool := c.isAlphanum || c == '-' || c == '_'
  match lineString s with
  | some found => some found
  | none =>
    let name := s.takeWhile isKeyChar
    if name.isEmpty then none else some (String.ofList name, s.dropWhile isKeyChar)

/-- The parts of a key, with dots and blanks between them. -/
def keyParts (s : List Char) : Option (List String × List Char) :=
  match simpleKey (skipGap s) with
  | none => none
  | some (part, rest) =>
    match skipGap rest with
    | '.' :: more =>
      if _h : more.length < s.length then
        (keyParts more).map fun (parts, rest) => (part :: parts, rest)
      else none
    | rest => some ([part], rest)
termination_by s.length

/-- A key. -/
def key (s : List Char) : Option (List String × List Char) := do
  let (parts, rest) ← keyParts s
  if parts.length < nestingLimit then return (parts, rest) else none

/-- What follows a comment; without one, the text itself. -/
def skipComment : List Char → List Char
  | '#' :: s => s.dropWhile isPlain
  | s => s

/-- What follows the end of a line, of which only blanks and a comment may be left. -/
def lineEnd? (s : List Char) : Option (List Char) :=
  match skipComment (skipGap s) with
  | [] => some []
  | '\n' :: rest => some rest
  | '\r' :: '\n' :: rest => some rest
  | _ => none

/-- What follows blanks, comments and line ends. A comment must end with its line. -/
def skipSpace (s : List Char) : Option (List Char) :=
  match skipGap s with
  | '#' :: t =>
    match t.dropWhile isPlain with
    | '\n' :: rest => if _h : rest.length < s.length then skipSpace rest else none
    | '\r' :: '\n' :: rest => if _h : rest.length < s.length then skipSpace rest else none
    | _ => none
  | '\n' :: rest => if _h : rest.length < s.length then skipSpace rest else none
  | '\r' :: '\n' :: rest => if _h : rest.length < s.length then skipSpace rest else none
  | rest => some rest
termination_by s.length

/-- The items of an array up to its closing bracket; a comma may follow the last one. -/
def arrayItems (value : Reader Item) (s : List Char) : Option (List Item × List Char) :=
  match skipSpace s with
  | none => none
  | some (']' :: rest) => some ([], rest)
  | some t =>
    match value t with
    | none => none
    | some (item, rest) =>
      match skipSpace rest with
      | some (',' :: more) =>
        if _h : more.length < s.length then
          (arrayItems value more).map fun (items, rest) => (item :: items, rest)
        else none
      | some (']' :: rest) => some ([item], rest)
      | _ => none
termination_by s.length

/-- The entries of a table between braces from an entry on; no comma may follow the last one. -/
def inlineEntries (value : Reader Item) (entries : TableBody) (s : List Char) :
    Option (TableBody × List Char) :=
  match key s with
  | some (path, '=' :: t) =>
    match value (skipGap t) with
    | none => none
    | some (item, rest) =>
      match put .inline entries path item, skipGap rest with
      | some entries, ',' :: more =>
        if _h : more.length < s.length then inlineEntries value entries more else none
      | some entries, '\x7d' :: rest => some (entries, rest)
      | _, _ => none
  | _ => none
termination_by s.length

/-- A value that nests at most so deep. -/
def value : (levels : Nat) → Reader Item
  | 0, s =>
    match s with
    | '[' :: _ | '\x7b' :: _ => none
    | s => scalar s
  | levels + 1, s =>
    match s with
    | '[' :: t => (arrayItems (value levels) t).map fun (items, rest) => (.array items, rest)
    | '\x7b' :: t =>
      match skipGap t with
      | '\x7d' :: rest => some (.table .inline [], rest)
      | _ =>
        (inlineEntries (value levels) [] t).map fun (entries, rest) => (.table .inline entries, rest)
    | s => scalar s

/-! ## Documents -/

/-- A line other than a blank one: a header or an entry. -/
def line (d : Draft) (s : List Char) : Option (Draft × List Char) :=
  match s with
  | '[' :: '[' :: t => do
    let (path, rest) ← key t
    match rest with
    | ']' :: ']' :: rest => return (← d.openElement path, ← lineEnd? rest)
    | _ => none
  | '[' :: t => do
    let (path, rest) ← key t
    match rest with
    | ']' :: rest => return (← d.openTable path, ← lineEnd? rest)
    | _ => none
  | s => do
    let (path, rest) ← key s
    match rest with
    | '=' :: rest =>
      let (item, rest) ← value (nestingLimit - 1) (skipGap rest)
      return (← d.add path item, ← lineEnd? rest)
    | _ => none

/-- Goes through the lines of a document. -/
def lines (d : Draft) (s : List Char) : Option Draft :=
  if s.isEmpty then some d
  else
    match lineEnd? s with
    | some rest => if _h : rest.length < s.length then lines d rest else none
    | none =>
      match line d (skipGap s) with
      | some (d, rest) => if _h : rest.length < s.length then lines d rest else none
      | none => none
termination_by s.length

/-- The text without a byte order mark in front. -/
def dropMark : List Char → List Char
  | '\ufeff' :: s => s
  | s => s

/-- The table that a document describes, if it is well-formed. -/
def parse (text : String) : Option TableBody := (lines {} (dropMark text.toList)).bind Draft.finish

end DocWeave.Toml
