import DocWeave.Proofs.Text.Splitting
import DocWeave.Template.Render

/-!
# Filling in the placeholder

The placeholder of a template is replaced by a quoted reference before the template is scanned. No
opening mark of a tag arises or disappears in this, and no line end: every mark of the filled template
stands where a mark of the template stood (`fill_mark`), with as many line ends before it
(`countChar_fill`).
-/

namespace DocWeave.Template

open DocWeave.Text

/-- A text with the placeholder filled in. -/
def fill (reference : String) (s : List Char) : List Char :=
  replace placeholder.toList ('\'' :: reference.toList ++ ['\'']) s

theorem fillPlaceholder_eq (template reference : String) :
    fillPlaceholder template reference = String.ofList (fill reference template.toList) := by
  simp [fillPlaceholder, fill, String.toList_append]

/-- No opening mark begins inside a quoted reference, whatever follows it. -/
theorem mark_after_quoted {reference front behind rest : List Char}
    (href : ¬['<', '%'] <:+: reference)
    (h : '\'' :: reference ++ ['\''] ++ rest = front ++ '<' :: '%' :: behind) :
    ∃ gap, front = '\'' :: reference ++ ['\''] ++ gap ∧ rest = gap ++ '<' :: '%' :: behind := by
  cases front with
  | nil => cases h
  | cons q front =>
    simp only [List.cons_append, List.append_assoc, List.nil_append, List.cons.injEq] at h
    obtain ⟨rfl, h⟩ := h
    rcases List.append_eq_append_iff.mp h with ⟨gap, rfl, hgap⟩ | ⟨gap, rfl, hgap⟩
    · cases gap with
      | nil => cases hgap
      | cons q gap =>
        simp only [List.cons_append, List.cons.injEq] at hgap
        obtain ⟨rfl, rfl⟩ := hgap
        exact ⟨gap, by simp, rfl⟩
    · -- the mark would begin inside the reference and end in it or in the quote
      exfalso
      rcases gap with _ | ⟨c, _ | ⟨d, gap⟩⟩
      · cases hgap
      · simp at hgap
      · simp only [List.cons_append, List.cons.injEq] at hgap
        obtain ⟨rfl, rfl, -⟩ := hgap
        exact href ⟨front, gap, by simp⟩

/-- An opening mark of a filled template is one of the template. -/
theorem fill_mark {reference : String} (href : ¬['<', '%'] <:+: reference.toList)
    {s before after : List Char} (h : fill reference s = before ++ '<' :: '%' :: after) :
    ∃ before₀ after₀, s = before₀ ++ '<' :: '%' :: after₀ ∧ fill reference before₀ = before := by
  have hsep : placeholder.toList ≠ [] := by decide
  induction s using separator_induction hsep generalizing before with
  | none s hs =>
    rw [fill, replace_of_none _ hs] at h
    have hbefore : splitFirst? placeholder.toList before = none :=
      splitFirst?_prefix hs ⟨_, h.symm⟩
    exact ⟨before, after, h, replace_of_none _ hbefore⟩
  | some front rest hs ih =>
    rw [fill, replace_of_some hsep _ hs, List.append_assoc] at h
    rcases List.append_eq_append_iff.mp h with ⟨gap, rfl, hgap⟩ | ⟨gap, rfl, hgap⟩
    · -- the mark stands behind the first placeholder
      obtain ⟨gap', rfl, hrest⟩ := mark_after_quoted href hgap
      obtain ⟨before₀, after₀, rfl, hfill⟩ := ih hrest
      refine ⟨front ++ placeholder.toList ++ before₀, after₀, by simp, ?_⟩
      rw [fill, replace_of_some hsep _ (splitFirst?_append before₀ hs), List.append_assoc, ← hfill]
      rfl
    · -- it stands before the placeholder, and so does the whole of it
      rcases gap with _ | ⟨c, _ | ⟨d, gap⟩⟩
      · cases hgap
      · simp at hgap
      · simp only [List.cons_append, List.cons.injEq] at hgap
        obtain ⟨rfl, rfl, -⟩ := hgap
        have hbefore : splitFirst? placeholder.toList before = none :=
          splitFirst?_front hsep hs (List.prefix_append _ _)
        exact ⟨before, gap ++ placeholder.toList ++ rest, by simp, replace_of_none _ hbefore⟩

/-- The placeholder and what it stands for have no line ends. -/
theorem countChar_fill {reference : String} (href : '\n' ∉ reference.toList) (s : List Char) :
    countChar '\n' (fill reference s) = countChar '\n' s := by
  have hquoted : countChar '\n' ('\'' :: reference.toList ++ ['\'']) = 0 := by
    refine countChar_eq_zero ?_
    simp only [List.cons_append, List.mem_cons, List.mem_append, List.not_mem_nil, or_false]
    rintro (hc | hc | hc)
    · exact absurd hc (by decide)
    · exact href hc
    · exact absurd hc (by decide)
  refine countChar_replace (by decide) '\n' ?_ s
  rw [hquoted]
  decide

end DocWeave.Template
