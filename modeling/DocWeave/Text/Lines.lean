/-!
# Lines

A line ends at a line feed; one carriage return directly before the line feed belongs to the line
end. A text that ends in a line feed has no empty last line, and a last line without a line feed
keeps its carriage return.
-/

namespace DocWeave.Text

/-- The text up to the first line feed, and what follows it if there is one. -/
def cutLine : List Char → List Char × Option (List Char)
  | [] => ([], none)
  | c :: s =>
    if c = '\n' then ([], some s)
    else let (line, rest) := cutLine s; (c :: line, rest)

/-- Drops one carriage return at the end. -/
def dropReturn (line : List Char) : List Char :=
  if line.getLast? = some '\r' then line.dropLast else line

theorem cutLine_rest_length {s line rest : List Char} (h : cutLine s = (line, some rest)) :
    rest.length < s.length := by
  induction s generalizing line with
  | nil => simp [cutLine] at h
  | cons c s ih =>
    simp only [cutLine] at h
    split at h
    · simp only [Prod.mk.injEq, Option.some.injEq] at h; simp [h.2]
    · cases hc : cutLine s with
      | mk l r =>
        simp only [hc, Prod.mk.injEq] at h
        obtain ⟨_, rfl⟩ := h
        have := ih hc
        simp only [List.length_cons]; omega

/-- The lines of a text, without their ends. -/
def lines (s : List Char) : List (List Char) :=
  match s with
  | [] => []
  | c :: t =>
    match _h : cutLine (c :: t) with
    | (line, none) => [line]
    | (line, some rest) => dropReturn line :: lines rest
termination_by s.length
decreasing_by exact cutLine_rest_length _h

/-- The lines with a line feed between each two. -/
def joinLines (ls : List (List Char)) : List Char := ['\n'].intercalate ls

end DocWeave.Text
