import DocWeave.Page.Render

/-!
# The tree of pages

Pages by namespace and name, both in order. Of two pages at one place the later one counts.
-/

namespace DocWeave.Page

/-- Keys with their values, in the order of the keys. -/
def insertSorted {α : Type} (key : String) (a : α) : List (String × α) → List (String × α)
  | [] => [(key, a)]
  | (k, b) :: rest =>
    if key = k then (k, a) :: rest
    else if key < k then (key, a) :: (k, b) :: rest
    else (k, b) :: insertSorted key a rest

/-- The pages of each namespace. -/
abbrev Tree := List (String × List (String × Page))

/-- The tree with one more page. -/
def Tree.add (t : Tree) (p : Page) : Tree :=
  let (scope, leaf) := splitNamespace p.subject
  insertSorted scope (insertSorted leaf p ((OrderedMap.get? t scope).getD [])) t

/-- The tree of some pages. -/
def Tree.ofPages (pages : List Page) : Tree := pages.foldl Tree.add []

/-- The pages of a tree in order. -/
def Tree.pages (t : Tree) : List Page := t.flatMap fun (_, leaves) => leaves.map Prod.snd

end DocWeave.Page
