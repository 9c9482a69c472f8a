import DocWeave.Outline.Scan
import DocWeave.Proofs.Site.Comment
import DocWeave.Proofs.Text.Layout

/-!
# The outline of lines that were joined again

A text that is cut into lines and joined again has lost its carriage returns, and a last line without
any text. Neither matters to the outline: a scan looks at the text of a line without the blanks around
it, and at the indentation of lines that have a text (`ofSource_joinLines`).
-/

namespace DocWeave.Outline

open DocWeave.Text

/-- Lines that a scan does not tell apart: the same text on the same level, line by line. The first may
have one more line, without any text, at the end. -/
inductive SameLines : List (List Char) → List (List Char) → Prop
  | nil : SameLines [] []
  | lost : SameLines [[]] []
  | cons {l l' : List Char} {ls ls' : List (List Char)} : trim l' = trim l →
      (trim l ≠ [] → indentation l' = indentation l) → SameLines ls ls' →
      SameLines (l :: ls) (l' :: ls')

theorem SameLines.refl (ls : List (List Char)) : SameLines ls ls := by
  induction ls with
  | nil => exact .nil
  | cons l ls ih => exact .cons rfl (fun _ => rfl) ih

theorem sameLines_reread (ls : List (List Char)) : SameLines ls (reread ls) := by
  fun_induction reread ls with
  | case1 => exact .nil
  | case2 => exact .lost
  | case3 line _ => exact .refl _
  | case4 line ls _ ih => exact .cons (trim_dropReturn line) indentation_dropReturn ih

theorem sameLines_dropReturn (ls : List (List Char)) : SameLines ls (ls.map dropReturn) := by
  induction ls with
  | nil => exact .nil
  | cons l ls ih => exact .cons (trim_dropReturn l) indentation_dropReturn ih

theorem SameLines.drop {ls ls' : List (List Char)} (h : SameLines ls ls') (k : Nat) :
    SameLines (ls.drop k) (ls'.drop k) := by
  induction h generalizing k with
  | nil => simpa using SameLines.nil
  | lost =>
    cases k with
    | zero => exact .lost
    | succ k => simpa using SameLines.nil
  | cons htrim hindent hrest ih =>
    cases k with
    | zero => exact .cons htrim hindent hrest
    | succ k => exact ih k

/-! ## Lines that are passed over -/

/-- As many lines are passed over in both, or all of them are. -/
def PassAlike (ls ls' : List (List Char)) (k k' : Nat) : Prop :=
  k = k' ∨ (ls.drop k = [] ∧ ls'.drop k' = [])

theorem PassAlike.cons {ls ls' : List (List Char)} {k k' : Nat} (h : PassAlike ls ls' k k')
    (l l' : List Char) : PassAlike (l :: ls) (l' :: ls') (k + 1) (k' + 1) :=
  h.imp (congrArg (· + 1)) id

theorem SameLines.blockLength {ls ls' : List (List Char)} (h : SameLines ls ls') (indent : Nat) :
    PassAlike ls ls' (blockLength indent ls) (blockLength indent ls') := by
  induction h with
  | nil => exact .inl rfl
  | lost => right; simp [Outline.blockLength, trim, trimStart, trimEnd, isEnd, after?]
  | @cons l l' ls ls' htrim hindent hrest ih =>
    have hcond : (indentation l' = indent && isEnd (trim l')) =
        (indentation l = indent && isEnd (trim l)) := by
      rw [htrim]
      by_cases hblank : trim l = []
      · rw [hblank]
        simp [isEnd, after?]
      · rw [hindent hblank]
    rw [Outline.blockLength, Outline.blockLength, hcond]
    split
    · exact .inl rfl
    · rw [Nat.add_comm 1, Nat.add_comm 1]
      exact ih.cons l l'

theorem SameLines.blockExtent {ls ls' : List (List Char)} (h : SameLines ls ls') {l l' : List Char}
    (htrim : trim l' = trim l) (hindent : indentation l' = indentation l) :
    PassAlike ls ls' (blockExtent l ls) (blockExtent l' ls') := by
  rw [Outline.blockExtent, Outline.blockExtent, htrim, hindent]
  split
  · exact .inl rfl
  · exact h.blockLength _

/-- A statement is the same, but for a line end. -/
theorem SameLines.gather {ls ls' : List (List Char)} (h : SameLines ls ls') (text : List Char) :
    PassAlike ls ls' (gather text ls).2 (gather text ls').2 ∧
      ((gather text ls).1 = (gather text ls').1 ∨
        (gather text ls).1 = (gather text ls').1 ++ ['\n']) := by
  induction h generalizing text with
  | nil => exact ⟨.inl rfl, .inl rfl⟩
  | lost =>
    by_cases hopen : 0 < bracketDepth text
    · have hgather : Outline.gather text [[]] = (text ++ ['\n'], 1) := by
        simp [Outline.gather, hopen, trim, trimStart, trimEnd]
      rw [hgather]
      exact ⟨.inr ⟨rfl, rfl⟩, .inr rfl⟩
    · have hgather : Outline.gather text [[]] = (text, 0) := by
        simp [Outline.gather, hopen]
      rw [hgather]
      exact ⟨.inl rfl, .inl rfl⟩
  | @cons l l' ls ls' htrim _ _ ih =>
    rw [Outline.gather, Outline.gather, htrim]
    split
    · obtain ⟨hpass, htext⟩ := ih (text ++ '\n' :: trim l)
      exact ⟨hpass.cons l l', htext⟩
    · exact ⟨.inl rfl, .inl rfl⟩

theorem literalValue_append_newline (text : List Char) :
    literalValue (String.ofList (text ++ ['\n'])) = literalValue (String.ofList text) := by
  unfold literalValue
  rw [String.toList_ofList, String.toList_ofList, trim_append_blank text (by decide)]

theorem SameLines.literalValue_gather {ls ls' : List (List Char)} (h : SameLines ls ls')
    (text : List Char) : literalValue (String.ofList (Outline.gather text ls).1) =
      literalValue (String.ofList (Outline.gather text ls').1) := by
  rcases (h.gather text).2 with htext | htext
  · rw [htext]
  · rw [htext, literalValue_append_newline]

/-! ## The scan -/

theorem scanLines_of_blank {l : List Char} (h : trim l = []) (s : Scan) (n : Nat)
    (rest : List (List Char)) : scanLines s n (l :: rest) = scanLines s (n + 1) rest := by
  rw [scanLines]
  dsimp only
  rw [h]
  rfl

theorem scanLines_congr {ls ls' : List (List Char)} (h : SameLines ls ls') (s : Scan) (n : Nat) :
    scanLines s n ls = scanLines s n ls' := by
  generalize hlength : ls.length = length
  induction length using Nat.strongRecOn generalizing ls ls' s n with
  | ind length ih =>
    cases h with
    | nil => rfl
    | lost => rw [scanLines_of_blank (l := []) rfl, scanLines, scanLines]
    | @cons l l' ls ls' htrim hindent hrest =>
      have hgo : ∀ (s : Scan) (k k' : Nat), PassAlike ls ls' k k' →
          scanLines s (n + 1 + k) (ls.drop k) = scanLines s (n + 1 + k') (ls'.drop k') := by
        rintro s k k' (rfl | ⟨hk, hk'⟩)
        · refine ih _ ?_ (hrest.drop k) s _ rfl
          rw [← hlength, List.length_cons, List.length_drop]
          omega
        · rw [hk, hk', scanLines, scanLines]
      have hnext : ∀ s : Scan, scanLines s (n + 1) ls = scanLines s (n + 1) ls' := fun s =>
        hgo s 0 0 (.inl rfl)
      by_cases hblank : trim l = []
      · rw [scanLines_of_blank hblank, scanLines_of_blank (htrim.trans hblank)]
        exact hnext s
      · -- both lines take the same branch
        rw [scanLines, scanLines]
        dsimp only
        rw [htrim, hindent hblank]
        split
        · exact hnext s
        split
        · exact hnext _
        split
        · exact hnext _
        cases subjectHead? (trim l) with
        | some head => exact hnext _
        | none =>
          cases s.current? with
          | none => exact hnext s
          | some owner =>
            cases methodHead? (trim l) with
            | some head => exact hgo _ _ _ (hrest.blockExtent htrim (hindent hblank))
            | none =>
              cases constantHead? (trim l) with
              | some constant =>
                dsimp only
                rw [hrest.literalValue_gather]
                exact hgo _ _ _ (hrest.gather _).1
              | none =>
                cases includedNames? (trim l) with
                | some names => exact hnext _
                | none =>
                  cases declaration? (trim l) with
                  | some line => exact hnext _
                  | none => exact hnext s

theorem ofLines_congr {ls ls' : List (List Char)} (h : SameLines ls ls') : ofLines ls = ofLines ls' := by
  rw [ofLines, ofLines, scanLines_congr h]

/-- The outline of the lines of a text, joined again, is that of the text. -/
theorem ofSource_joinLines (text : String) :
    ofSource (String.ofList (joinLines (lines text.toList))) = ofSource text := by
  rw [ofSource, ofSource, String.toList_ofList, lines_joinLines fun l hl => newline_not_mem_lines hl,
    ← ofLines_congr (sameLines_reread _)]

end DocWeave.Outline
