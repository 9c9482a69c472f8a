import DocWeave.Value.Text

/-!
# Markdown tables

Tables whose columns are padded to a fixed width. The width of a text is its number of characters. The
last character of a header row is replaced by the closing bar.
-/

namespace DocWeave.Table

/-- The text with blanks behind it up to a width. -/
def padTo (width : Nat) (s : List Char) : List Char :=
  s ++ List.replicate (width - s.length) ' '

theorem length_padTo (width : Nat) (s : List Char) :
    (padTo width s).length = max width s.length := by
  simp [padTo]; omega

/-- The row with a bar for its last character. -/
def closeRow (row : List Char) : List Char :=
  if row.isEmpty then [] else row.dropLast ++ ['|']

/-- The largest of the widths. -/
def widest (cells : List (List Char)) : Nat := (cells.map List.length).foldl max 0

/-- A column of a header: its title and its width. -/
structure Column where
  title : List Char
  width : Nat

/-- The cell of a header: a blank and the padded title. -/
def Column.cell (c : Column) : List Char := ' ' :: padTo (c.width - 1) c.title

/-- The header row and the bar under it. -/
def header (columns : List Column) : List Char :=
  let cells := columns.map Column.cell
  let bars := cells.map fun cell => List.replicate cell.length '-'
  '|' :: closeRow (['|'].intercalate cells) ++ '\n' :: '|' :: closeRow (['|'].intercalate bars)

/-- A table of keys and values. -/
def ofPairs (rows : List (List Char × List Char)) (keyName valueName : List Char) : List Char :=
  let keyWidth := max (widest (rows.map (·.1))) (keyName.length + 1)
  let valueWidth := max (widest (rows.map (·.2))) (valueName.length + 1)
  let row (r : List Char × List Char) : List Char :=
    '|' :: ' ' :: padTo keyWidth r.1 ++ ' ' :: '|' :: ' ' :: padTo valueWidth r.2 ++ ['|']
  header [⟨keyName, keyWidth + 2⟩, ⟨valueName, valueWidth + 2⟩]
    ++ '\n' :: ['\n'].intercalate (rows.map row)

/-- A table of one column. -/
def ofItems (items : List (List Char)) (name : List Char) : List Char :=
  let width := max (widest items) (name.length + 1)
  let row (item : List Char) : List Char := '|' :: ' ' :: padTo width item ++ [' ', '|']
  header [⟨name, width + 3⟩] ++ '\n' :: ['\n'].intercalate (items.map row)

/-! ## Of values -/

/-- The table of a hash. -/
def ofHash (rows : List (String × Value)) (keyName valueName : String) : String :=
  String.ofList (ofPairs (rows.map fun (k, v) => (k.toList, v.display.toList)) keyName.toList
    valueName.toList)

/-- The table of an array. -/
def ofArray (items : List Value) (name : String) : String :=
  String.ofList (ofItems (items.map (·.display.toList)) name.toList)

/-- The header with the given titles and widths. -/
def ofColumns (columns : List (String × Nat)) : String :=
  String.ofList (header (columns.map fun (title, width) => ⟨title.toList, width⟩))

end DocWeave.Table
