import DocWeave.Text.Search

/-!
# Texts cut at a separator

The pieces of a text, joined with the separator again, are the text (`intercalate_splitOn`). A cut at the
first separator depends on nothing behind it (`splitFirst?_append`), a cut at the last one on nothing
before it (`splitLast?_append_left`), and a text in which the separator does not occur is not cut.
-/

namespace DocWeave.Text

/-! ## Characters -/

theorem countChar_append (c : Char) (s t : List Char) :
    countChar c (s ++ t) = countChar c s + countChar c t :=
  List.countP_append

theorem countChar_eq_zero {c : Char} {s : List Char} (h : c ∉ s) : countChar c s = 0 :=
  List.countP_eq_zero.mpr fun _ hd he => h (beq_iff_eq.mp he ▸ hd)

/-! ## Beginnings and ends -/

theorem after?_eq_none_iff {lead s : List Char} : after? lead s = none ↔ ¬lead <+: s := by
  constructor
  · rintro h ⟨rest, rfl⟩
    rw [after?_append] at h
    cases h
  · intro h
    cases ha : after? lead s with
    | none => rfl
    | some rest => exact absurd ⟨rest, (after?_eq_some_iff.mp ha).symm⟩ h

/-- No separator is found exactly when the text has none. -/
theorem eq_of_before? {tail s front : List Char} (h : before? tail s = some front) :
    s = front ++ tail := by
  rw [before?, Option.map_eq_some_iff] at h
  obtain ⟨t, ht, rfl⟩ := h
  rw [after?_eq_some_iff] at ht
  rw [← List.reverse_reverse s, ht, List.reverse_append, List.reverse_reverse]

/-! ## The first separator -/

theorem splitFirst?_eq_none_iff {sep s : List Char} :
    splitFirst? sep s = none ↔ ¬sep <:+: s := by
  induction s with
  | nil =>
    rw [splitFirst?, Option.map_eq_none_iff, after?_eq_none_iff, List.infix_nil, List.prefix_nil]
  | cons c s ih =>
    rw [splitFirst?, List.infix_cons_iff, not_or, ← after?_eq_none_iff]
    split
    · next rest h => simp [h]
    · next h => simp [h, ih]

/-- The first separator: no other one begins before it. -/
theorem splitFirst?_le {sep s front rest f r : List Char}
    (h : splitFirst? sep s = some (front, rest)) (hs : s = f ++ sep ++ r) :
    front.length ≤ f.length := by
  induction s generalizing front f with
  | nil =>
    simp only [splitFirst?, Option.map_eq_some_iff, Prod.mk.injEq] at h
    obtain ⟨_, _, rfl, _⟩ := h
    exact Nat.zero_le _
  | cons c s ih =>
    rw [splitFirst?] at h
    split at h
    · cases h
      exact Nat.zero_le _
    · next hnone =>
      obtain ⟨⟨front', rest'⟩, hfirst, hfront⟩ := Option.map_eq_some_iff.mp h
      cases hfront
      cases f with
      | nil => exact absurd ⟨r, hs.symm⟩ (after?_eq_none_iff.mp hnone)
      | cons d f =>
        have hs' : s = f ++ sep ++ r := (List.cons.inj hs).2
        exact Nat.succ_le_succ (ih hfirst hs')

/-- The cut at the first separator depends on nothing behind it. -/
theorem splitFirst?_append {sep front rest : List Char} (rest' : List Char)
    (h : splitFirst? sep (front ++ sep ++ rest) = some (front, rest)) :
    splitFirst? sep (front ++ sep ++ rest') = some (front, rest') := by
  cases hc : splitFirst? sep (front ++ sep ++ rest') with
  | none => exact absurd ⟨front, rest', rfl⟩ (splitFirst?_eq_none_iff.mp hc)
  | some cut =>
    obtain ⟨f, r⟩ := cut
    have heq : front ++ sep ++ rest' = f ++ sep ++ r := eq_of_splitFirst? hc
    have hle : f.length ≤ front.length := splitFirst?_le hc rfl
    -- what is found stands before `rest'`, so it would have been found before `rest` as well
    have hprefix : f ++ sep <+: front ++ sep := by
      refine List.prefix_of_prefix_length_le ⟨r, heq.symm⟩ ⟨rest', rfl⟩ ?_
      rw [List.length_append, List.length_append]
      omega
    obtain ⟨gap, hgap⟩ := hprefix
    have hge : front.length ≤ f.length := by
      refine splitFirst?_le h (r := gap ++ rest) ?_
      rw [← hgap]
      simp
    rw [List.append_assoc, List.append_assoc] at heq
    obtain ⟨rfl, htail⟩ := List.append_inj heq (Nat.le_antisymm hge hle)
    rw [List.append_cancel_left htail]

/-- A separator at the beginning is the first. -/
theorem splitFirst?_append_self (sep rest : List Char) :
    splitFirst? sep (sep ++ rest) = some ([], rest) := by
  cases hs : sep ++ rest with
  | nil =>
    obtain ⟨rfl, rfl⟩ := List.append_eq_nil_iff.mp hs
    rfl
  | cons c s => rw [splitFirst?, ← hs, after?_append]

/-- A character separates at its first occurrence. -/
theorem splitFirst?_singleton {c : Char} {front : List Char} (h : c ∉ front) (rest : List Char) :
    splitFirst? [c] (front ++ c :: rest) = some (front, rest) := by
  induction front with
  | nil => exact splitFirst?_append_self [c] rest
  | cons d front ih =>
    rw [List.mem_cons, not_or] at h
    have hnone : after? [c] (d :: (front ++ c :: rest)) = none := by simp [after?, h.1]
    rw [List.cons_append, splitFirst?, hnone, ih h.2]
    rfl

theorem splitFirst?_prefix {sep s start : List Char} (h : splitFirst? sep s = none)
    (hstart : start <+: s) : splitFirst? sep start = none := by
  rw [splitFirst?_eq_none_iff] at h ⊢
  exact fun hin => h (hin.trans hstart.isInfix)

/-- No separator stands before the first. -/
theorem splitFirst?_front {sep s front rest start : List Char} (hsep : sep ≠ [])
    (h : splitFirst? sep s = some (front, rest)) (hstart : start <+: front) :
    splitFirst? sep start = none := by
  rw [splitFirst?_eq_none_iff]
  rintro ⟨f, r, hfr⟩
  obtain ⟨gap, hgap⟩ := hstart
  have hle : front.length ≤ f.length := by
    refine splitFirst?_le h (r := r ++ gap ++ sep ++ rest) ?_
    rw [eq_of_splitFirst? h, ← hgap, ← hfr]
    simp
  have hpos := List.length_pos_iff.mpr hsep
  rw [← hgap, ← hfr] at hle
  simp only [List.length_append] at hle
  omega

/-! ## The last separator -/

/-- No last separator is found exactly when the text has none. -/
theorem splitLast?_eq_none_iff {sep s : List Char} : splitLast? sep s = none ↔ ¬sep <:+: s := by
  induction s with
  | nil =>
    rw [splitLast?, Option.map_eq_none_iff, after?_eq_none_iff, List.infix_nil, List.prefix_nil]
  | cons c s ih =>
    rw [splitLast?, List.infix_cons_iff, not_or, ← after?_eq_none_iff, ← ih]
    split
    · next hlater => simp [hlater]
    · next hlater => simp [hlater]

/-- The cut at the last separator depends on nothing before it. -/
theorem splitLast?_append_left {sep s f r : List Char} (front : List Char)
    (h : splitLast? sep s = some (f, r)) : splitLast? sep (front ++ s) = some (front ++ f, r) := by
  induction front with
  | nil => exact h
  | cons c front ih => rw [List.cons_append, splitLast?, ih]; rfl

/-- The last separator: no other one begins behind its first character. -/
theorem splitLast?_append {a : Char} {sep rest : List Char} (front : List Char)
    (h : ¬(a :: sep) <:+: sep ++ rest) :
    splitLast? (a :: sep) (front ++ (a :: sep) ++ rest) = some (front, rest) := by
  have hhere : splitLast? (a :: sep) (a :: sep ++ rest) = some ([], rest) := by
    rw [List.cons_append, splitLast?, splitLast?_eq_none_iff.mpr h, ← List.cons_append, after?_append]
    rfl
  simpa using splitLast?_append_left front hhere

/-! ## All pieces -/

/-- Joined pieces: the first, and the others each behind the separator. -/
theorem intercalate_cons (sep first : List Char) (rest : List (List Char)) :
    sep.intercalate (first :: rest) = first ++ rest.flatMap (sep ++ ·) := by
  induction rest generalizing first with
  | nil => simp
  | cons next rest ih => rw [List.intercalate_cons_cons, ih, List.flatMap_cons]; simp

theorem splitOn_ne_nil (sep s : List Char) : splitOn sep s ≠ [] := by
  rw [splitOn]
  split
  · simp
  · split <;> simp

/-- Cutting loses nothing but the separators. -/
theorem intercalate_splitOn (sep s : List Char) : sep.intercalate (splitOn sep s) = s := by
  fun_induction splitOn sep s with
  | case1 s h => simp
  | case2 s front rest h hlt ih =>
    rw [List.intercalate_cons_of_ne_nil (splitOn_ne_nil sep rest), ih]
    rw [eq_of_splitFirst? h, List.append_assoc]
  | case3 s front rest h hlt => simp

/-! ## Replacement -/

theorem splitOn_of_none {sep s : List Char} (h : splitFirst? sep s = none) : splitOn sep s = [s] := by
  rw [splitOn]
  split
  · rfl
  · next hc => rw [h] at hc; cases hc

theorem splitOn_of_some {sep s front rest : List Char} (hsep : sep ≠ [])
    (h : splitFirst? sep s = some (front, rest)) : splitOn sep s = front :: splitOn sep rest := by
  have hshorter : rest.length < s.length := by
    have hpos := List.length_pos_iff.mpr hsep
    rw [eq_of_splitFirst? h, List.length_append, List.length_append]
    omega
  rw [splitOn]
  split
  · next hc => rw [h] at hc; cases hc
  · next hc =>
    rw [h] at hc
    cases hc
    rw [if_pos hshorter]

/-- A text without the separator stays as it is. -/
theorem replace_of_none {sep s : List Char} (sub : List Char) (h : splitFirst? sep s = none) :
    replace sep sub s = s := by
  rw [replace, splitOn_of_none h, List.intercalate_singleton]

/-- The first separator is replaced, and then the others. -/
theorem replace_of_some {sep s front rest : List Char} (hsep : sep ≠ []) (sub : List Char)
    (h : splitFirst? sep s = some (front, rest)) :
    replace sep sub s = front ++ sub ++ replace sep sub rest := by
  rw [replace, splitOn_of_some hsep h, List.intercalate_cons_of_ne_nil (splitOn_ne_nil sep rest),
    replace]

/-- Induction along the separators of a text. -/
theorem separator_induction {sep : List Char} (hsep : sep ≠ []) {motive : List Char → Prop}
    (none : ∀ s, splitFirst? sep s = none → motive s)
    (some : ∀ front rest, splitFirst? sep (front ++ sep ++ rest) = some (front, rest) →
      motive rest → motive (front ++ sep ++ rest)) (s : List Char) : motive s := by
  fun_induction splitOn sep s with
  | case1 s h => exact none s h
  | case2 s front rest h _ ih =>
    obtain rfl := eq_of_splitFirst? h
    exact some front rest h ih
  | case3 s front rest h hlong =>
    refine absurd ?_ hlong
    have hpos := List.length_pos_iff.mpr hsep
    rw [eq_of_splitFirst? h, List.length_append, List.length_append]
    omega

/-- How often a character occurs is not changed by replacing one text by another that has the character
as often. -/
theorem countChar_replace {sep sub : List Char} (hsep : sep ≠ []) (c : Char)
    (hc : countChar c sub = countChar c sep) (s : List Char) :
    countChar c (replace sep sub s) = countChar c s := by
  induction s using separator_induction hsep with
  | none s h => rw [replace_of_none sub h]
  | some front rest h ih =>
    rw [replace_of_some hsep sub h]
    rw [countChar_append, countChar_append, countChar_append, countChar_append, hc, ih]

end DocWeave.Text
