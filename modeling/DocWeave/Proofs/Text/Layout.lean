import DocWeave.Outline.Line
import DocWeave.Text.Lines
import Mathlib.Data.List.TakeWhile

/-!
# Lines and the blanks around them

Lines that are written one below the other are read back, but for a carriage return at the end of a line
(`lines_flatMap`, `lines_joinLines`). A carriage return is a blank, so the text of a line without the
blanks around it does not depend on it (`trim_dropReturn`), nor does the indentation of a line that has a
text (`indentation_dropReturn`).
-/

namespace DocWeave

open DocWeave.Text

namespace Text

/-! ## Blanks -/

/-- No range of one class meets one of the other. -/
def CharRanges.apart (a b : CharRanges) : Bool :=
  a.all fun r => b.all fun q => r.2.blt q.1 || q.2.blt r.1

theorem CharRanges.holds_of_apart {a b : CharRanges} (h : a.apart b = true) {c : Char}
    (hb : b.holds c = true) : a.holds c = false := by
  by_contra ha
  rw [Bool.not_eq_false] at ha
  obtain ⟨r, hr, hrc⟩ := List.any_eq_true.mp ha
  obtain ⟨q, hq, hqc⟩ := List.any_eq_true.mp hb
  have hapart := List.all_eq_true.mp (List.all_eq_true.mp h r hr) q hq
  simp only [Bool.and_eq_true, decide_eq_true_eq] at hrc hqc
  simp only [Bool.or_eq_true, Nat.blt_eq] at hapart
  omega

/-- What stands inside a word is not blank. -/
theorem isBlank_of_isWordChar {c : Char} (h : isWordChar c = true) : isBlank c = false := by
  unfold isWordChar at h
  split at h
  · next hascii =>
    have hall : ∀ n < 128, ((Char.ofNat n).isAlphanum || Char.ofNat n == '_') = true →
        isBlank (Char.ofNat n) = false := by
      decide +kernel
    have hc := hall c.toNat hascii
    rw [Char.ofNat_toNat] at hc
    exact hc h
  · simp only [Bool.or_eq_true] at h
    rcases h with ((h | h) | h) | h
    · exact CharRanges.holds_of_apart (b := alphabetic) (by decide +kernel) h
    · exact CharRanges.holds_of_apart (b := marks) (by decide +kernel) h
    · exact CharRanges.holds_of_apart (b := decimalDigits) (by decide +kernel) h
    · exact CharRanges.holds_of_apart (b := connectors) (by decide +kernel) h

theorem trim_eq_nil_iff {s : List Char} : trim s = [] ↔ isBlankText s = true := by
  have hall : isBlankText s = true ↔ trimStart s = [] := by
    rw [isBlankText, List.all_eq_true, trimStart, List.dropWhile_eq_nil_iff]
  rw [hall, trim, trimEnd, List.reverse_eq_nil_iff, List.dropWhile_eq_nil_iff]
  constructor
  · intro h
    -- the first character that is left would not be blank
    cases hs : trimStart s with
    | nil => rfl
    | cons c rest =>
      have hblank : isBlank c = true := h c (by rw [hs]; simp)
      have hhead := List.head?_dropWhile_not isBlank s
      rw [← trimStart, hs] at hhead
      exact absurd hblank (by simpa using hhead)
  · intro h
    simp [h]

theorem trim_append_blank (s : List Char) {c : Char} (hc : isBlank c = true) :
    trim (s ++ [c]) = trim s := by
  rw [trim, trim, trimStart, trimStart, List.dropWhile_append]
  split
  · next hs => rw [List.isEmpty_iff.mp hs, List.dropWhile_cons_of_pos hc, List.dropWhile_nil]
  · rw [trimEnd, List.reverse_append, List.reverse_singleton, List.singleton_append,
      List.dropWhile_cons_of_pos hc, ← trimEnd]

/-- A text between two characters that are not blank, behind some blanks. -/
theorem trim_blanks_append {blanks s : List Char} (hblanks : ∀ c ∈ blanks, isBlank c = true)
    (hfirst : ∀ c ∈ s.head?, isBlank c = false) (hlast : ∀ c ∈ s.getLast?, isBlank c = false) :
    trim (blanks ++ s) = s := by
  have hstart : trimStart (blanks ++ s) = s := by
    rw [trimStart, List.dropWhile_append_of_pos hblanks]
    cases s with
    | nil => rfl
    | cons c s => rw [List.dropWhile_cons_of_neg (by simp [hfirst c rfl])]
  rw [trim, hstart, trimEnd]
  cases hs : s.reverse with
  | nil => rw [List.reverse_eq_nil_iff.mp hs]; rfl
  | cons c rest =>
    have hc : isBlank c = false := hlast c (by rw [← List.head?_reverse, hs]; rfl)
    rw [List.dropWhile_cons_of_neg (by simp [hc]), ← hs, List.reverse_reverse]

theorem dropReturn_cases (line : List Char) :
    dropReturn line = line ∨ line = dropReturn line ++ ['\r'] := by
  unfold dropReturn
  split
  · next h =>
    obtain ⟨t, ht⟩ := List.getLast?_eq_some_iff.mp h
    right
    rw [ht, List.dropLast_concat]
  · exact .inl rfl

theorem trim_dropReturn (line : List Char) : trim (dropReturn line) = trim line := by
  rcases dropReturn_cases line with h | h
  · rw [h]
  · rw [h, dropReturn, if_pos (by simp), List.dropLast_concat,
      trim_append_blank _ (c := '\r') (by decide)]

/-! ## Lines and line ends -/

theorem cutLine_append {line : List Char} (h : '\n' ∉ line) (s : List Char) :
    cutLine (line ++ '\n' :: s) = (line, some s) := by
  induction line with
  | nil => rfl
  | cons c line ih =>
    obtain ⟨hc, hline⟩ := not_or.mp (mt List.mem_cons.mpr h)
    rw [List.cons_append, cutLine, if_neg (Ne.symm hc), ih hline]

theorem cutLine_of_not_mem {line : List Char} (h : '\n' ∉ line) : cutLine line = (line, none) := by
  induction line with
  | nil => rfl
  | cons c line ih =>
    obtain ⟨hc, hline⟩ := not_or.mp (mt List.mem_cons.mpr h)
    rw [cutLine, if_neg (Ne.symm hc), ih hline]

theorem lines_append {line : List Char} (h : '\n' ∉ line) (s : List Char) :
    lines (line ++ '\n' :: s) = dropReturn line :: lines s := by
  have hcut := cutLine_append h s
  cases hs : line ++ '\n' :: s with
  | nil => simp at hs
  | cons c t =>
    rw [hs] at hcut
    rw [lines]
    split
    · next hc => rw [hcut] at hc; cases hc
    · next hc => rw [hcut] at hc; cases hc; rfl

theorem lines_of_not_mem {line : List Char} (h : '\n' ∉ line) (hne : line ≠ []) :
    lines line = [line] := by
  have hcut := cutLine_of_not_mem h
  cases line with
  | nil => exact absurd rfl hne
  | cons c t =>
    rw [lines]
    split
    · next hc => rw [hcut] at hc; cases hc; rfl
    · next hc => rw [hcut] at hc; cases hc

theorem newline_not_mem_cutLine (s : List Char) : '\n' ∉ (cutLine s).1 := by
  induction s with
  | nil => exact List.not_mem_nil
  | cons c s ih =>
    rw [cutLine]
    split
    · exact List.not_mem_nil
    · next hc =>
      intro h
      rcases List.mem_cons.mp h with h | h
      · exact hc h.symm
      · exact ih h

theorem newline_not_mem_dropReturn {line : List Char} (h : '\n' ∉ line) :
    '\n' ∉ dropReturn line := by
  unfold dropReturn
  split
  · exact fun hin => h ((List.dropLast_sublist line).mem hin)
  · exact h

/-- No line of a text has a line end in it. -/
theorem newline_not_mem_lines {s line : List Char} (h : line ∈ lines s) : '\n' ∉ line := by
  fun_induction lines s with
  | case1 => cases h
  | case2 c s first hcut =>
    obtain rfl : line = first := List.mem_singleton.mp h
    have := newline_not_mem_cutLine (c :: s)
    rwa [hcut] at this
  | case3 c s first rest hcut ih =>
    rcases List.mem_cons.mp h with rfl | h
    · have := newline_not_mem_cutLine (c :: s)
      rw [hcut] at this
      exact newline_not_mem_dropReturn this
    · exact ih h

/-- Lines with a line feed behind each. -/
theorem lines_flatMap {ls : List (List Char)} (h : ∀ l ∈ ls, '\n' ∉ l) :
    lines (ls.flatMap (· ++ ['\n'])) = ls.map dropReturn := by
  induction ls with
  | nil => rw [List.flatMap_nil, lines, List.map_nil]
  | cons line ls ih =>
    obtain ⟨hline, hls⟩ := List.forall_mem_cons.mp h
    rw [List.flatMap_cons, List.append_assoc, List.singleton_append, lines_append hline, ih hls,
      List.map_cons]

/-- The lines that are read back when a line feed stands between each two: a last line without any text
is lost, and the others lose a carriage return. -/
def reread : List (List Char) → List (List Char)
  | [] => []
  | [line] => if line = [] then [] else [line]
  | line :: ls => dropReturn line :: reread ls

theorem lines_joinLines {ls : List (List Char)} (h : ∀ l ∈ ls, '\n' ∉ l) :
    lines (joinLines ls) = reread ls := by
  fun_induction reread ls with
  | case1 => rw [joinLines, List.intercalate_nil, lines]
  | case2 => rw [joinLines, List.intercalate_singleton, lines]
  | case3 line hline =>
    rw [joinLines, List.intercalate_singleton, lines_of_not_mem (h line (by simp)) hline]
  | case4 line ls hls ih =>
    obtain ⟨hline, hrest⟩ := List.forall_mem_cons.mp h
    rw [joinLines, List.intercalate_cons_of_ne_nil hls, List.append_assoc, List.singleton_append,
      lines_append hline, ← joinLines, ih hrest]

end Text

/-! ## Indentation -/

namespace Outline

theorem indentation_append {s : List Char} (h : isBlankText s = false) (t : List Char) :
    indentation (s ++ t) = indentation s := by
  have hshort : (s.takeWhile isBlank).length ≠ s.length := by
    intro hlen
    have hself := (List.takeWhile_prefix isBlank).eq_of_length hlen
    rw [isBlankText, List.all_eq_true.mpr (List.takeWhile_eq_self_iff.mp hself)] at h
    cases h
  rw [indentation, indentation, List.takeWhile_append, if_neg hshort]

theorem indentation_dropReturn {line : List Char} (h : trim line ≠ []) :
    indentation (dropReturn line) = indentation line := by
  rcases dropReturn_cases line with hsame | hreturn
  · rw [hsame]
  · have hblank : isBlankText (dropReturn line) = false := by
      rw [← Bool.not_eq_true, ← trim_eq_nil_iff, trim_dropReturn]
      exact h
    exact ((congrArg indentation hreturn).trans (indentation_append hblank _)).symm

theorem indentation_blanks_append {blanks s : List Char} (hblanks : ∀ c ∈ blanks, isBlank c = true)
    (hfirst : ∀ c ∈ s.head?, isBlank c = false) : indentation (blanks ++ s) = blanks.length := by
  rw [indentation, List.takeWhile_append_of_pos hblanks]
  cases s with
  | nil => simp
  | cons c s => rw [List.takeWhile_cons_of_neg (by simp [hfirst c rfl]), List.append_nil]

end Outline

end DocWeave
