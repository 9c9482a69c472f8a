import DocWeave.Proofs.Text.Layout
import DocWeave.Table
import Mathlib.Data.List.Forall2

/-!
# The header of a table

The two rows of a header are rows of cells between bars, and the closing bar takes the last character of
the last cell (`header_concat`). So both rows are equally long, and the last title of the header is whole
exactly when its column has room for a blank before and behind it, or when there is nothing to see of it
anyway (`lines_ofColumns`).
-/

namespace DocWeave.Table

open DocWeave.Text

/-! ## Rows of cells -/

/-- The row of the cells, with a bar before the first and behind each. -/
def rowOf (cells : List (List Char)) : List Char := '|' :: cells.flatMap (· ++ ['|'])

/-- A dash for every character. -/
def dashes (cell : List Char) : List Char := List.replicate cell.length '-'

/-- The row has a cell for each title, in order, with the whole title in it. -/
def Shows (titles : List (List Char)) (row : List Char) : Prop :=
  ∃ cells, List.Forall₂ (fun title cell => title <:+: cell) titles cells ∧ row = rowOf cells

section

variable {cells : List (List Char)} {cell : List Char}

theorem rowOf_concat (front : List (List Char)) (cell : List Char) :
    rowOf (front ++ [cell]) = '|' :: (front.flatMap (· ++ ['|']) ++ cell ++ ['|']) := by
  simp [rowOf]

theorem length_rowOf_dashes (cells : List (List Char)) :
    (rowOf (cells.map dashes)).length = (rowOf cells).length := by
  simp [rowOf, dashes, List.length_flatMap, Function.comp_def]

theorem mem_rowOf_dashes {c : Char} (h : c ∈ rowOf (cells.map dashes)) : c = '-' ∨ c = '|' := by
  simp only [rowOf, dashes, List.mem_cons, List.mem_flatMap, List.mem_map, List.mem_append] at h
  rcases h with rfl | ⟨_, ⟨cell, -, rfl⟩, h | rfl | h⟩
  · exact .inr rfl
  · exact .inl (List.eq_of_mem_replicate h)
  · exact .inr rfl
  · cases h

theorem newline_not_mem_rowOf (h : ∀ cell ∈ cells, '\n' ∉ cell) : '\n' ∉ rowOf cells := by
  simpa [rowOf] using h

/-- A row is not changed when a carriage return is dropped at its end. -/
theorem dropReturn_rowOf (cells : List (List Char)) : dropReturn (rowOf cells) = rowOf cells := by
  rcases List.eq_nil_or_concat' cells with rfl | ⟨front, cell, rfl⟩
  · rfl
  · rw [rowOf_concat, ← List.cons_append, dropReturn, List.getLast?_concat, if_neg (by decide)]

end

/-! ## The two rows -/

theorem intercalate_concat (sep : List Char) (front : List (List Char)) (cell : List Char) :
    sep.intercalate (front ++ [cell]) = front.flatMap (· ++ sep) ++ cell := by
  induction front with
  | nil => rw [List.nil_append, List.intercalate_singleton, List.flatMap_nil, List.nil_append]
  | cons first front ih =>
    rw [List.cons_append, List.intercalate_cons_of_ne_nil (by simp), ih, List.flatMap_cons]
    simp only [List.append_assoc]

/-- The closing bar of a row stands for the last character of the last cell. -/
theorem cons_closeRow (front : List (List Char)) {cell : List Char} (hcell : cell ≠ []) :
    '|' :: closeRow (['|'].intercalate (front ++ [cell])) = rowOf (front ++ [cell.dropLast]) := by
  rw [intercalate_concat, closeRow, if_neg (by simp [hcell]), List.dropLast_append_of_ne_nil hcell,
    rowOf_concat]

theorem Column.cell_ne_nil (column : Column) : column.cell ≠ [] := List.cons_ne_nil _ _

/-- The cells of a header that ends in the given column. -/
def closedCells (front : List Column) (last : Column) : List (List Char) :=
  front.map Column.cell ++ [last.cell.dropLast]

/-- The header is a row of cells and a row of dashes under them. -/
theorem header_concat (front : List Column) (last : Column) :
    header (front ++ [last]) =
      rowOf (closedCells front last) ++ '\n' :: rowOf ((closedCells front last).map dashes) := by
  have hrow : header (front ++ [last]) =
      '|' :: closeRow (['|'].intercalate (front.map Column.cell ++ [last.cell])) ++ '\n' ::
        '|' :: closeRow (['|'].intercalate ((front.map Column.cell).map dashes ++ [dashes last.cell])) := by
    rw [header, List.map_append, List.map_append]
    rfl
  have hdashes : (dashes last.cell).dropLast = dashes last.cell.dropLast := by
    rw [dashes, dashes, List.dropLast_replicate, List.length_dropLast]
  have hne : dashes last.cell ≠ [] := by simpa [dashes] using last.cell_ne_nil
  rw [hrow, cons_closeRow _ last.cell_ne_nil, cons_closeRow _ hne, hdashes, closedCells, List.map_append,
    List.map_singleton]

/-! ## The titles -/

section

variable {column : Column} {titles cells front : List (List Char)} {title cell last : List Char}

theorem Column.title_infix_cell (column : Column) : column.title <:+: column.cell :=
  ⟨[' '], List.replicate (column.width - 1 - column.title.length) ' ', by simp [cell, padTo]⟩

theorem Column.count_bar_cell (column : Column) :
    column.cell.count '|' = column.title.count '|' := by
  simp [cell, padTo, List.count_replicate]

theorem eq_dropLast_cons_iff : title = (' ' :: title).dropLast ↔ ∀ c ∈ title, c = ' ' := by
  constructor
  · intro h
    induction title with
    | nil => exact fun _ hc => nomatch hc
    | cons c title ih =>
      rw [List.dropLast_cons_cons, List.cons.injEq] at h
      obtain ⟨rfl, htitle⟩ := h
      exact List.forall_mem_cons.mpr ⟨rfl, ih htitle⟩
  · intro h
    rw [List.eq_replicate_of_mem h, ← List.replicate_succ, List.dropLast_replicate]
    rfl

/-- Without its last character, the cell of a column still has the whole title if there are only blanks in
the title or there is room for two blanks beside it, and otherwise not. -/
theorem Column.title_infix_dropLast_iff (column : Column) :
    column.title <:+: column.cell.dropLast ↔
      (∀ c ∈ column.title, c = ' ') ∨ column.title.length + 2 ≤ column.width := by
  by_cases hwide : column.title.length + 2 ≤ column.width
  · obtain ⟨k, hk⟩ : ∃ k, column.width - 1 - column.title.length = k + 1 :=
      ⟨column.width - 2 - column.title.length, by omega⟩
    have hcell : column.cell.dropLast = ' ' :: column.title ++ List.replicate k ' ' := by
      rw [cell, padTo, hk, List.replicate_succ', ← List.append_assoc, ← List.cons_append,
        List.dropLast_concat, List.cons_append]
    exact iff_of_true ⟨[' '], List.replicate k ' ', by rw [hcell]; rfl⟩ (.inr hwide)
  · have hcell : column.cell = ' ' :: column.title := by
      rw [cell, padTo, show column.width - 1 - column.title.length = 0 by omega, List.replicate_zero,
        List.append_nil]
    have hlength : (' ' :: column.title).dropLast.length = column.title.length := by
      rw [List.length_dropLast, List.length_cons, Nat.add_sub_cancel]
    rw [hcell, or_iff_left hwide, ← eq_dropLast_cons_iff]
    exact ⟨fun h => h.eq_of_length hlength.symm, fun h => h ▸ List.infix_refl _⟩

/-- One row has at least as many bars in its cells as another whose cells have only those of the
titles. -/
theorem count_bars_le (hcells : List.Forall₂ (fun title cell => title <:+: cell) titles cells)
    (hfront : List.Forall₂ (fun title cell => cell.count '|' = title.count '|') titles front) :
    (front.flatMap (· ++ ['|'])).count '|' ≤ (cells.flatMap (· ++ ['|'])).count '|' := by
  induction hcells generalizing front with
  | nil =>
    cases hfront
    exact Nat.le_refl _
  | cons hcell _ ih =>
    cases hfront with
    | cons hown hfront =>
      have := ih hfront
      have := hcell.sublist.count_le '|'
      simp only [List.flatMap_cons, List.count_append]
      omega

theorem forall₂_concat {r : List Char → List Char → Prop} (h : List.Forall₂ r (titles ++ [title]) cells) :
    ∃ front last, cells = front ++ [last] ∧ List.Forall₂ r titles front ∧ r title last := by
  induction titles generalizing cells with
  | nil =>
    cases h with
    | cons hlast hnil =>
      cases hnil
      exact ⟨[], _, rfl, .nil, hlast⟩
  | cons first titles ih =>
    cases h with
    | cons hfirst hrest =>
      obtain ⟨front, last, rfl, hfront, hlast⟩ := ih hrest
      exact ⟨_ :: front, last, rfl, .cons hfirst hfront, hlast⟩

/-- A row whose cells have no other bars than the titles, and whose last cell is not longer than the last
title, can be divided only in these cells. -/
theorem infix_of_shows
    (hfront : List.Forall₂ (fun title cell => cell.count '|' = title.count '|') titles front)
    (hlength : last.length ≤ title.length) (h : Shows (titles ++ [title]) (rowOf (front ++ [last]))) :
    title <:+: last := by
  obtain ⟨cells, hcells, hrow⟩ := h
  obtain ⟨front', last', rfl, hfront', hlast'⟩ := forall₂_concat hcells
  rw [rowOf_concat, rowOf_concat, List.cons.injEq, List.append_left_inj] at hrow
  have hbars := count_bars_le hfront' hfront
  rcases List.append_eq_append_iff.mp hrow.2 with ⟨more, hmore, hlast⟩ | ⟨more, hmore, hlast⟩
  · -- the last cell in question would be cut out of the last cell of the row
    have hshort := hlast'.length_le
    rw [hlast, List.length_append] at hlength
    obtain rfl : more = [] := List.eq_nil_of_length_eq_zero (by omega)
    rw [hlast]
    exact hlast'
  · -- the rest of a longer last cell would end in a bar, of which there is none left
    rw [hmore, List.count_append] at hbars
    have hnone : '|' ∉ more := List.count_eq_zero.mp (by omega)
    rcases List.eq_nil_or_concat' more with rfl | ⟨more, c, rfl⟩
    · rw [List.nil_append] at hlast
      exact hlast ▸ hlast'
    · rcases List.eq_nil_or_concat' front with rfl | ⟨front, cell, rfl⟩
      · simp at hmore
      · rw [List.flatMap_append, List.flatMap_singleton, ← List.append_assoc, ← List.append_assoc] at hmore
        obtain ⟨-, hbar⟩ := List.append_inj' hmore rfl
        rw [← hbar] at hnone
        simp at hnone

/-- The row of titles shows them all if the last one is whole. -/
theorem shows_closedCells_iff (front : List Column) (last : Column) :
    Shows ((front ++ [last]).map Column.title) (rowOf (closedCells front last)) ↔
      (∀ c ∈ last.title, c = ' ') ∨ last.title.length + 2 ≤ last.width := by
  rw [← last.title_infix_dropLast_iff, List.map_append, List.map_singleton]
  constructor
  · intro h
    by_cases hwide : last.title.length + 2 ≤ last.width
    · exact last.title_infix_dropLast_iff.mpr (.inr hwide)
    · refine infix_of_shows ?_ ?_ h
      · rw [List.forall₂_map_left_iff, List.forall₂_map_right_iff, List.forall₂_same]
        exact fun column _ => column.count_bar_cell
      · rw [List.length_dropLast, Column.cell, List.length_cons, length_padTo]
        omega
  · intro hlast
    refine ⟨closedCells front last, ?_, rfl⟩
    refine List.rel_append ?_ (.cons hlast .nil)
    rw [List.forall₂_map_left_iff, List.forall₂_map_right_iff, List.forall₂_same]
    exact fun column _ => column.title_infix_cell

/-- No cell of a header has a line feed if no title has one. -/
theorem newline_not_mem_closedCells {front : List Column} {last : Column}
    (h : ∀ column ∈ front ++ [last], '\n' ∉ column.title) :
    ∀ cell ∈ closedCells front last, '\n' ∉ cell := by
  have hcell {column : Column} (hcolumn : '\n' ∉ column.title) : '\n' ∉ column.cell := by
    simp [Column.cell, padTo, hcolumn]
  intro cell hmem
  rcases List.mem_append.mp hmem with hfront | hlast
  · obtain ⟨column, hcolumn, rfl⟩ := List.mem_map.mp hfront
    exact hcell (h column (List.mem_append_left _ hcolumn))
  · rw [List.mem_singleton.mp hlast]
    exact fun hin => hcell (h last (by simp)) ((List.dropLast_sublist _).mem hin)

theorem newline_not_mem_dashes (cell : List Char) : '\n' ∉ dashes cell := fun h =>
  absurd (List.eq_of_mem_replicate h) (by decide)

end

section

variable {front : List Column} {last : Column}
  (h : ∀ column ∈ front ++ [last], '\n' ∉ column.title)
include h

theorem newline_not_mem_titleRow : '\n' ∉ rowOf (closedCells front last) :=
  newline_not_mem_rowOf (newline_not_mem_closedCells h)

omit h in
theorem newline_not_mem_barRow (front : List Column) (last : Column) :
    '\n' ∉ rowOf ((closedCells front last).map dashes) := by
  refine newline_not_mem_rowOf fun cell hcell => ?_
  obtain ⟨_, -, rfl⟩ := List.mem_map.mp hcell
  exact newline_not_mem_dashes _

theorem lines_header : lines (header (front ++ [last])) =
    [rowOf (closedCells front last), rowOf ((closedCells front last).map dashes)] := by
  rw [header_concat, lines_append (newline_not_mem_titleRow h), dropReturn_rowOf,
    lines_of_not_mem (newline_not_mem_barRow front last) (List.cons_ne_nil _ _)]

/-- The lines of a table under its header. -/
theorem lines_header_append (s : List Char) : lines (header (front ++ [last]) ++ '\n' :: s) =
    rowOf (closedCells front last) :: rowOf ((closedCells front last).map dashes) :: lines s := by
  rw [header_concat, List.append_assoc, List.cons_append, lines_append (newline_not_mem_titleRow h),
    dropReturn_rowOf, lines_append (newline_not_mem_barRow front last), dropReturn_rowOf]

end

/-- **Headers.** For columns whose titles have no line feed, the header is two lines of equal length, the
second of dashes and bars only. The first shows every title, in order and between bars, exactly if the
last title is blank or its column has room for two blanks beside it. -/
theorem lines_ofColumns (front : List (String × Nat)) (last : String × Nat)
    (h : ∀ column ∈ front ++ [last], '\n' ∉ column.1.toList) :
    ∃ titles bars, lines (ofColumns (front ++ [last])).toList = [titles, bars] ∧
      bars.length = titles.length ∧ (∀ c ∈ bars, c = '-' ∨ c = '|') ∧
      (Shows ((front ++ [last]).map (·.1.toList)) titles ↔
        (∀ c ∈ last.1.toList, c = ' ') ∨ last.1.length + 2 ≤ last.2) := by
  let column (c : String × Nat) : Column := ⟨c.1.toList, c.2⟩
  have hcolumns : (front ++ [last]).map column = front.map column ++ [column last] := by simp
  have htitles : ∀ c ∈ front.map column ++ [column last], '\n' ∉ c.title := by
    rw [← hcolumns, List.forall_mem_map]
    exact h
  have hheader : (ofColumns (front ++ [last])).toList = header (front.map column ++ [column last]) := by
    rw [ofColumns, String.toList_ofList, ← hcolumns]
  refine ⟨_, _, hheader ▸ lines_header htitles, length_rowOf_dashes _, fun c => mem_rowOf_dashes, ?_⟩
  have hiff := shows_closedCells_iff (front.map column) (column last)
  rw [← hcolumns, List.map_map] at hiff
  rw [← String.length_toList]
  exact hiff

/-- A column without a width before one that has room. -/
theorem lines_ofColumns_wide :
    (∀ column ∈ [("key", 0)] ++ [("value", 7)], '\n' ∉ column.1.toList) ∧
      ∃ titles bars, lines (ofColumns ([("key", 0)] ++ [("value", 7)])).toList = [titles, bars] ∧
        Shows ["key".toList, "value".toList] titles := by
  have h : ∀ column ∈ [("key", 0)] ++ [("value", 7)], '\n' ∉ column.1.toList := by decide
  obtain ⟨titles, bars, hlines, -, -, hshows⟩ := lines_ofColumns [("key", 0)] ("value", 7) h
  exact ⟨h, titles, bars, hlines, hshows.mpr (.inr (by decide))⟩

/-- Without a width, the closing bar stands for the last letter of the title. -/
theorem not_lines_ofColumns :
    lines (ofColumns [("key", 0)]).toList = ["| ke|".toList, "|---|".toList] ∧
      ¬Shows ["key".toList] "| ke|".toList := by
  refine ⟨by decide +kernel, fun h => ?_⟩
  have hrow : "| ke|".toList = rowOf ([] ++ [" ke".toList]) := by decide
  rw [hrow] at h
  have hinfix : "key".toList <:+: " ke".toList := infix_of_shows .nil (by decide) h
  exact absurd hinfix (by decide)

end DocWeave.Table
