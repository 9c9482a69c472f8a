/-!
# Finding and cutting text

Plain searches over a list of characters: what follows a given beginning, the first and the last
place where a separator stands, and replacement of every occurrence.
-/

namespace DocWeave.Text

/-! ## Beginnings and ends -/

/-- What follows `lead` in the text, if the text begins with it. -/
def after? : (lead text : List Char) → Option (List Char)
  | [], s => some s
  | _ :: _, [] => none
  | a :: p, c :: s => if a = c then after? p s else none

@[simp] theorem after?_append (lead rest : List Char) : after? lead (lead ++ rest) = some rest := by
  induction lead with
  | nil => rfl
  | cons a p ih => simp [after?, ih]

/-- A text has a beginning exactly when it is that beginning with something behind it. -/
theorem after?_eq_some_iff {lead s rest : List Char} :
    after? lead s = some rest ↔ s = lead ++ rest := by
  induction lead generalizing s with
  | nil => simp [after?, eq_comm]
  | cons a p ih =>
    cases s with
    | nil => simp [after?]
    | cons c s =>
      by_cases h : a = c
      · simp [after?, h, ih]
      · simp [after?, h, Ne.symm h]

/-- The text begins with `lead`. -/
def startsWith (lead s : List Char) : Bool := (after? lead s).isSome

/-- What precedes `tail` in the text, if the text ends with it. -/
def before? (tail s : List Char) : Option (List Char) :=
  (after? tail.reverse s.reverse).map List.reverse

/-- The text ends with `tail`. -/
def endsWith (tail s : List Char) : Bool := (before? tail s).isSome

/-! ## Separators -/

/-- The parts before and after the first occurrence of `sep`. -/
def splitFirst? (sep : List Char) : List Char → Option (List Char × List Char)
  | [] => (after? sep []).map fun rest => ([], rest)
  | c :: s =>
    match after? sep (c :: s) with
    | some rest => some ([], rest)
    | none => (splitFirst? sep s).map fun (front, rest) => (c :: front, rest)

/-- The parts before and after the last occurrence of `sep`. -/
def splitLast? (sep : List Char) : List Char → Option (List Char × List Char)
  | [] => (after? sep []).map fun rest => ([], rest)
  | c :: s =>
    match splitLast? sep s with
    | some (front, rest) => some (c :: front, rest)
    | none => (after? sep (c :: s)).map fun rest => ([], rest)

/-- A cut at the first separator loses nothing. -/
theorem eq_of_splitFirst? {sep s front rest : List Char}
    (h : splitFirst? sep s = some (front, rest)) : s = front ++ sep ++ rest := by
  induction s generalizing front with
  | nil =>
    simp only [splitFirst?, Option.map_eq_some_iff, Prod.mk.injEq] at h
    obtain ⟨r, hr, rfl, rfl⟩ := h
    simpa using after?_eq_some_iff.1 hr
  | cons c s ih =>
    simp only [splitFirst?] at h
    split at h
    · next r hr =>
      simp only [Option.some.injEq, Prod.mk.injEq] at h
      obtain ⟨rfl, rfl⟩ := h
      simpa using after?_eq_some_iff.1 hr
    · simp only [Option.map_eq_some_iff, Prod.mk.injEq, Prod.exists] at h
      obtain ⟨f, r, hs, rfl, rfl⟩ := h
      simp [ih hs]

/-- A cut at the last separator loses nothing. -/
theorem eq_of_splitLast? {sep s front rest : List Char}
    (h : splitLast? sep s = some (front, rest)) : s = front ++ sep ++ rest := by
  induction s generalizing front rest with
  | nil =>
    simp only [splitLast?, Option.map_eq_some_iff, Prod.mk.injEq] at h
    obtain ⟨r, hr, rfl, rfl⟩ := h
    simpa using after?_eq_some_iff.1 hr
  | cons c s ih =>
    simp only [splitLast?] at h
    split at h
    · next f r hs =>
      simp only [Option.some.injEq, Prod.mk.injEq] at h
      obtain ⟨rfl, rfl⟩ := h
      simp [ih hs]
    · simp only [Option.map_eq_some_iff, Prod.mk.injEq] at h
      obtain ⟨r, hr, rfl, rfl⟩ := h
      simpa using after?_eq_some_iff.1 hr

/-- What stands behind the last `sep`, or the whole text when there is none. -/
def afterLast (sep s : List Char) : List Char :=
  match splitLast? sep s with
  | some (_, rest) => rest
  | none => s

/-- The pieces between the occurrences of `sep`, taken from the left without overlap. -/
def splitOn (sep : List Char) (s : List Char) : List (List Char) :=
  match _h : splitFirst? sep s with
  | none => [s]
  | some (front, rest) =>
    if rest.length < s.length then front :: splitOn sep rest else [s]
termination_by s.length

/-- Every occurrence of `sep`, taken from the left without overlap, replaced by `sub`. -/
def replace (sep sub s : List Char) : List Char :=
  sub.intercalate (splitOn sep s)

/-- Every character `a` replaced by `b`. -/
def replaceChar (a b : Char) (s : List Char) : List Char :=
  s.map fun c => if c = a then b else c

/-- How often the character stands in the text. -/
def countChar (a : Char) (s : List Char) : Nat := s.countP (· == a)

end DocWeave.Text
