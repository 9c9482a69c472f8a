import DocWeave.Proofs.Table.Header

/-!
# Tables are aligned

The header of a table, the bars under it and its rows compute the widths of their cells in different
ways, but the widths come out the same: a column is as wide as its widest cell and wider than its name,
so every cell is padded to exactly this width, and the character that the closing bar takes from the
header is padding. Rows whose cells have the same widths are equally long with bars at the same places
(`length_rowOf`, `bar_mem_rowOf`), and the lines of a whole table are such rows (`tables_aligned`).
-/

namespace DocWeave.Table

open DocWeave.Text

/-! ## Rows with the same widths -/

/-- The places of the bars in a row that begins at a place and has cells of the given widths. -/
def barPlaces (start : Nat) : (widths : List Nat) → List Nat
  | [] => [start]
  | width :: widths => start :: barPlaces (start + width + 1) widths

/-- The length of a row that has cells of the given widths. -/
def rowLength : (widths : List Nat) → Nat
  | [] => 1
  | width :: widths => width + 1 + rowLength widths

/-- The table is a row that shows the names, a line of dashes and bars, and the rows, each of which shows
its cells. These lines are equally long, with a bar before the first column and behind each. -/
def Aligned (names : List (List Char)) (rows : List (List (List Char))) (table : List (List Char)) :
    Prop :=
  ∃ head bars body, ∃ places : List Nat, ∃ length, table = head :: bars :: body ∧ Shows names head ∧
    (∀ c ∈ bars, c = '-' ∨ c = '|') ∧ List.Forall₂ Shows rows body ∧
    places.length = names.length + 1 ∧ places.Pairwise (· < ·) ∧
    ∀ row ∈ table, row.length = length ∧ ∀ place ∈ places, row[place]? = some '|'

section

variable {start place : Nat} {widths : List Nat} {cells : List (List Char)} {s : List Char}

theorem length_barPlaces (start : Nat) (widths : List Nat) :
    (barPlaces start widths).length = widths.length + 1 := by
  induction widths generalizing start with
  | nil => rfl
  | cons width widths ih => rw [barPlaces, List.length_cons, ih, List.length_cons]

theorem le_of_mem_barPlaces (h : place ∈ barPlaces start widths) : start ≤ place := by
  induction widths generalizing start with
  | nil => exact (List.mem_singleton.mp h).ge
  | cons width widths ih =>
    rcases List.mem_cons.mp h with rfl | h
    · exact Nat.le_refl _
    · have := ih h
      omega

theorem pairwise_barPlaces (start : Nat) (widths : List Nat) :
    (barPlaces start widths).Pairwise (· < ·) := by
  induction widths generalizing start with
  | nil => exact List.pairwise_singleton _ _
  | cons width widths ih =>
    refine List.pairwise_cons.mpr ⟨fun place hplace => ?_, ih _⟩
    have := le_of_mem_barPlaces hplace
    omega

theorem rowOf_cons (cell : List Char) (cells : List (List Char)) :
    rowOf (cell :: cells) = '|' :: cell ++ rowOf cells := by
  simp [rowOf]

theorem length_rowOf (h : cells.map List.length = widths) :
    (rowOf cells).length = rowLength widths := by
  induction cells generalizing widths with
  | nil => subst h; rfl
  | cons cell cells ih =>
    subst h
    rw [rowOf_cons, List.length_append, ih rfl, List.length_cons]
    rfl

/-- A row has its bars where the widths of its cells put them. -/
theorem bar_mem_rowOf (hs : s.length = start) (h : cells.map List.length = widths)
    (hplace : place ∈ barPlaces start widths) : (s ++ rowOf cells)[place]? = some '|' := by
  induction cells generalizing s start widths with
  | nil =>
    subst h
    rw [List.mem_singleton.mp hplace, ← hs, List.getElem?_append_right (Nat.le_refl _), Nat.sub_self]
    rfl
  | cons cell cells ih =>
    subst h
    rw [rowOf_cons]
    rcases List.mem_cons.mp hplace with rfl | hplace
    · rw [← hs, List.getElem?_append_right (Nat.le_refl _), Nat.sub_self]
      rfl
    · rw [← List.append_assoc]
      refine ih ?_ rfl hplace
      rw [List.length_append, List.length_cons, hs]
      omega

end

/-! ## The lines of a table -/

section

theorem reread_rowOf (rows : List (List (List Char))) : reread (rows.map rowOf) = rows.map rowOf := by
  induction rows with
  | nil => rfl
  | cons row rows ih =>
    cases rows with
    | nil => exact if_neg (List.cons_ne_nil _ _)
    | cons next rows =>
      rw [List.map_cons, List.map_cons, reread, dropReturn_rowOf, ← List.map_cons, ih]
      exact List.cons_ne_nil _ _

theorem map_length_dashes (cells : List (List Char)) :
    (cells.map dashes).map List.length = cells.map List.length := by
  rw [List.map_map]
  exact List.map_congr_left fun cell _ => List.length_replicate

variable {ρ : Type} {front : List Column} {last : Column} {widths : List Nat} {items : List ρ}
  {texts cells : ρ → List (List Char)}

/-- A header above rows that are made of items, with cells as wide as those of the header. -/
theorem aligned_of_widths (hnames : ∀ column ∈ front ++ [last], '\n' ∉ column.title)
    (hlast : last.title.length + 2 ≤ last.width)
    (hhead : (closedCells front last).map List.length = widths)
    (hwidths : ∀ item ∈ items, (cells item).map List.length = widths)
    (hcells : ∀ item ∈ items, ∀ cell ∈ cells item, '\n' ∉ cell)
    (htexts : ∀ item ∈ items, List.Forall₂ (fun text cell => text <:+: cell) (texts item) (cells item)) :
    Aligned ((front ++ [last]).map Column.title) (items.map texts)
      (lines (header (front ++ [last]) ++
        '\n' :: ['\n'].intercalate (items.map fun item => rowOf (cells item)))) := by
  have hbody : lines (['\n'].intercalate (items.map fun item => rowOf (cells item))) =
      items.map fun item => rowOf (cells item) := by
    have hfree : ∀ line ∈ items.map fun item => rowOf (cells item), '\n' ∉ line :=
      List.forall_mem_map.mpr fun item hitem => newline_not_mem_rowOf (hcells item hitem)
    have hreread := reread_rowOf (items.map cells)
    rw [List.map_map] at hreread
    rw [← joinLines, lines_joinLines hfree]
    exact hreread
  have hline {row : List (List Char)} (hrow : row.map List.length = widths) :
      (rowOf row).length = rowLength widths ∧
        ∀ place ∈ barPlaces 0 widths, (rowOf row)[place]? = some '|' :=
    ⟨length_rowOf hrow, fun place => bar_mem_rowOf (s := []) rfl hrow⟩
  rw [lines_header_append hnames, hbody]
  refine ⟨_, _, _, barPlaces 0 widths, rowLength widths, rfl,
    (shows_closedCells_iff front last).mpr (.inr hlast), fun c => mem_rowOf_dashes, ?_, ?_,
    pairwise_barPlaces 0 widths, fun line hmem => ?_⟩
  · rw [List.forall₂_map_left_iff, List.forall₂_map_right_iff, List.forall₂_same]
    exact fun item hitem => ⟨_, htexts item hitem, rfl⟩
  · rw [length_barPlaces, ← hhead]
    simp [closedCells]
  · rcases List.mem_cons.mp hmem with rfl | hmem
    · exact hline hhead
    rcases List.mem_cons.mp hmem with rfl | hmem
    · exact hline ((map_length_dashes _).trans hhead)
    · obtain ⟨item, hitem, rfl⟩ := List.mem_map.mp hmem
      exact hline (hwidths item hitem)

end

/-! ## Widths -/

theorem le_foldl_max (widths : List Nat) (start : Nat) :
    start ≤ widths.foldl max start ∧ ∀ width ∈ widths, width ≤ widths.foldl max start := by
  induction widths generalizing start with
  | nil => exact ⟨Nat.le_refl _, fun _ hwidth => nomatch hwidth⟩
  | cons width widths ih =>
    obtain ⟨hstart, hall⟩ := ih (max start width)
    exact ⟨(Nat.le_max_left _ _).trans hstart,
      List.forall_mem_cons.mpr ⟨(Nat.le_max_right _ _).trans hstart, hall⟩⟩

/-- The width of a column: that of its widest cell, and more than that of its name. -/
def columnWidth (cells : List (List Char)) (name : List Char) : Nat :=
  max (widest cells) (name.length + 1)

theorem length_padTo_columnWidth {cells : List (List Char)} {cell : List Char} (h : cell ∈ cells)
    (name : List Char) : (padTo (columnWidth cells name) cell).length = columnWidth cells name := by
  have hle : cell.length ≤ widest cells := (le_foldl_max _ 0).2 _ (List.mem_map_of_mem h)
  rw [length_padTo, columnWidth]
  omega

theorem length_lt_columnWidth (cells : List (List Char)) (name : List Char) :
    name.length < columnWidth cells name :=
  Nat.lt_of_lt_of_le (Nat.lt_succ_self _) (Nat.le_max_right _ _)

theorem newline_not_mem_padTo {s : List Char} (h : '\n' ∉ s) (width : Nat) : '\n' ∉ padTo width s := by
  simp [padTo, h]

/-- A padded text between blanks. -/
theorem infix_cons_padTo (width : Nat) (s rest : List Char) : s <:+: ' ' :: (padTo width s ++ rest) :=
  ⟨[' '], List.replicate (width - s.length) ' ' ++ rest, by simp [padTo]⟩

/-! ## Tables of pairs and of items -/

theorem aligned_ofPairs {rows : List (List Char × List Char)} {keyName valueName : List Char}
    (hkey : '\n' ∉ keyName) (hvalue : '\n' ∉ valueName)
    (hrows : ∀ row ∈ rows, '\n' ∉ row.1 ∧ '\n' ∉ row.2) :
    Aligned [keyName, valueName] (rows.map fun row => [row.1, row.2])
      (lines (ofPairs rows keyName valueName)) := by
  let keyWidth := columnWidth (rows.map (·.1)) keyName
  let valueWidth := columnWidth (rows.map (·.2)) valueName
  let cells (row : List Char × List Char) : List (List Char) :=
    [' ' :: (padTo keyWidth row.1 ++ [' ']), ' ' :: (padTo valueWidth row.2 ++ [])]
  have htable : ofPairs rows keyName valueName =
      header ([⟨keyName, keyWidth + 2⟩] ++ [⟨valueName, valueWidth + 2⟩]) ++
        '\n' :: ['\n'].intercalate (rows.map fun row => rowOf (cells row)) := by
    simp only [ofPairs, rowOf, cells, List.flatMap_cons, List.flatMap_nil, List.append_assoc,
      List.cons_append, List.nil_append, List.append_nil]
    rfl
  have hkeyWidth : keyName.length < keyWidth := length_lt_columnWidth _ _
  have hvalueWidth : valueName.length < valueWidth := length_lt_columnWidth _ _
  rw [htable]
  have hhead : (closedCells [⟨keyName, keyWidth + 2⟩] ⟨valueName, valueWidth + 2⟩).map List.length =
      [keyWidth + 2, valueWidth + 1] := by
    simp [closedCells, Column.cell, length_padTo]
    omega
  refine aligned_of_widths ?_ (Nat.add_le_add_right hvalueWidth.le 2) hhead (fun row hrow => ?_)
    (fun row hrow => ?_) fun row hrow => ?_
  · simpa using ⟨hkey, hvalue⟩
  · have hfirst := length_padTo_columnWidth (List.mem_map_of_mem (f := (·.1)) hrow) keyName
    have hsecond := length_padTo_columnWidth (List.mem_map_of_mem (f := (·.2)) hrow) valueName
    simp [cells, keyWidth, valueWidth, hfirst, hsecond]
  · simp [cells, newline_not_mem_padTo, hrows row hrow]
  · exact .cons (infix_cons_padTo _ _ _) (.cons (infix_cons_padTo _ _ _) .nil)

theorem aligned_ofItems {items : List (List Char)} {name : List Char} (hname : '\n' ∉ name)
    (hitems : ∀ item ∈ items, '\n' ∉ item) :
    Aligned [name] (items.map fun item => [item]) (lines (ofItems items name)) := by
  let width := columnWidth items name
  let cells (item : List Char) : List (List Char) := [' ' :: (padTo width item ++ [' '])]
  have htable : ofItems items name = header ([] ++ [⟨name, width + 3⟩]) ++
      '\n' :: ['\n'].intercalate (items.map fun item => rowOf (cells item)) := by
    simp only [ofItems, rowOf, cells, List.flatMap_cons, List.flatMap_nil, List.append_assoc,
      List.cons_append, List.nil_append, List.append_nil]
    rfl
  have hwidth : name.length < width := length_lt_columnWidth _ _
  rw [htable]
  have hhead : (closedCells [] ⟨name, width + 3⟩).map List.length = [width + 2] := by
    simp [closedCells, Column.cell, length_padTo]
    omega
  refine aligned_of_widths ?_ (Nat.add_le_add hwidth.le (by decide)) hhead (fun item hitem => ?_)
    (fun item hitem => ?_) fun item hitem => ?_
  · simpa using hname
  · simp [cells, width, length_padTo_columnWidth hitem]
  · simp [cells, newline_not_mem_padTo, hitems item hitem]
  · exact .cons (infix_cons_padTo _ _ _) .nil

/-- **Alignment.** Where no line feed stands in a name or in a displayed cell, the table of a hash and
that of an array are aligned: two columns with three bars, and one column with two. -/
theorem tables_aligned (entries : List (String × Value)) (items : List Value)
    (keyName valueName : String) (hkey : '\n' ∉ keyName.toList) (hvalue : '\n' ∉ valueName.toList)
    (hentries : ∀ entry ∈ entries, '\n' ∉ entry.1.toList ∧ '\n' ∉ entry.2.display.toList)
    (hitems : ∀ item ∈ items, '\n' ∉ item.display.toList) :
    Aligned [keyName.toList, valueName.toList]
        (entries.map fun entry => [entry.1.toList, entry.2.display.toList])
        (lines (ofHash entries keyName valueName).toList) ∧
      Aligned [keyName.toList] (items.map fun item => [item.display.toList])
        (lines (ofArray items keyName).toList) := by
  constructor
  · let rows := entries.map fun entry => (entry.1.toList, entry.2.display.toList)
    have hrows : ∀ row ∈ rows, '\n' ∉ row.1 ∧ '\n' ∉ row.2 := List.forall_mem_map.mpr hentries
    have h := aligned_ofPairs hkey hvalue hrows
    rw [List.map_map] at h
    rw [ofHash, String.toList_ofList]
    exact h
  · have hcells : ∀ cell ∈ items.map (·.display.toList), '\n' ∉ cell := List.forall_mem_map.mpr hitems
    have h := aligned_ofItems hkey hcells
    rw [List.map_map] at h
    rw [ofArray, String.toList_ofList]
    exact h

/-- A cell that is wider than the names, and one of which nothing is seen. -/
theorem tables_aligned_wide :
    ('\n' ∉ "k".toList ∧ '\n' ∉ "v".toList ∧
      (∀ entry ∈ [("wide", Value.nil)], '\n' ∉ entry.1.toList ∧ '\n' ∉ entry.2.display.toList) ∧
      ∀ item ∈ [Value.sym "wide"], '\n' ∉ item.display.toList) ∧
      Aligned ["k".toList, "v".toList] [["wide".toList, []]]
        (lines (ofHash [("wide", .nil)] "k" "v").toList) ∧
      Aligned ["k".toList] [["wide".toList]] (lines (ofArray [.sym "wide"] "k").toList) := by
  have hk : '\n' ∉ "k".toList := by decide
  have hv : '\n' ∉ "v".toList := by decide
  have hentries : ∀ entry ∈ [("wide", Value.nil)],
      '\n' ∉ entry.1.toList ∧ '\n' ∉ entry.2.display.toList := by decide
  have hitems : ∀ item ∈ [Value.sym "wide"], '\n' ∉ item.display.toList := by decide
  exact ⟨⟨hk, hv, hentries, hitems⟩, tables_aligned _ _ "k" "v" hk hv hentries hitems⟩

end DocWeave.Table
