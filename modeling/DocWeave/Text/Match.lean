/-!
# Matches from left to right

A recogniser looks at the text from one place on, knowing the character before it, and answers how
many characters it takes there. `substitute` replaces what is taken, `collect` lists it. Both go from
left to right, never look at a taken character again, and take a place where nothing (or nothing but
the empty text) is recognised as it stands.
-/

namespace DocWeave.Text

/-- A recogniser: from the character before a place and the text from there on, the number of
characters taken and what they mean. -/
abbrev Recogniser (α : Type) := Option Char → List Char → Option (Nat × α)

/-- Replaces every taken piece by its meaning. -/
def substitute (find : Recogniser (List Char)) (prev : Option Char) (s : List Char) : List Char :=
  match s with
  | [] => []
  | c :: rest =>
    match find prev (c :: rest) with
    | some (n + 1, out) => out ++ substitute find (c :: rest)[n]? (rest.drop n)
    | _ => c :: substitute find (some c) rest
termination_by s.length
decreasing_by all_goals simp_wf; try omega

/-- A step of a substitution: a piece is taken, or a character is copied. -/
theorem substitute_cons (find : Recogniser (List Char)) (prev : Option Char) (c : Char)
    (rest : List Char) :
    (∃ n out, find prev (c :: rest) = some (n + 1, out) ∧ substitute find prev (c :: rest) =
      out ++ substitute find (c :: rest)[n]? (rest.drop n)) ∨
    (∀ n out, find prev (c :: rest) ≠ some (n + 1, out)) ∧
      substitute find prev (c :: rest) = c :: substitute find (some c) rest := by
  rw [substitute]
  split
  · next n out hfind => exact .inl ⟨n, out, hfind, rfl⟩
  · next hnone => exact .inr ⟨fun n out hfind => hnone n out hfind, rfl⟩

/-- Lists the meanings of the taken pieces. -/
def collect {α : Type} (find : Recogniser α) (prev : Option Char) (s : List Char) : List α :=
  match s with
  | [] => []
  | c :: rest =>
    match find prev (c :: rest) with
    | some (n + 1, a) => a :: collect find (c :: rest)[n]? (rest.drop n)
    | _ => collect find (some c) rest
termination_by s.length
decreasing_by all_goals simp_wf; try omega

end DocWeave.Text
