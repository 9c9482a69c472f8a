/-!
# Patterns for file names

A pattern is text with `?` for one character, `*` for any number of them, a bracket for one character
of a set, and `**` for any number of folders. `**` must be a whole component. A fault is reported with
the place of the offending character.
-/

namespace DocWeave.Glob

/-- Characters that a bracket stands for. -/
inductive CharSet where
  | single (c : Char)
  | range (low high : Char)
deriving DecidableEq, Repr

/-- The character is in the set. -/
def CharSet.holds (s : CharSet) (c : Char) : Bool :=
  match s with
  | .single d => c == d
  | .range low high => low ≤ c && c ≤ high

/-- A piece of a pattern. -/
inductive Piece where
  | char (c : Char)
  | anyChar
  | anyText
  | anyFolders
  | oneOf (sets : List CharSet)
  | noneOf (sets : List CharSet)
deriving DecidableEq, Repr

/-- Why a text is no pattern. -/
inductive Complaint where
  /-- More than two stars in a row. -/
  | manyStars
  /-- Two stars that are not a whole component. -/
  | looseStars
  /-- A bracket that is not closed. -/
  | openBracket
deriving DecidableEq, Repr

/-- A complaint about the character at a place, counted from zero. -/
structure PatternFault where
  position : Nat
  complaint : Complaint
deriving DecidableEq, Repr

/-- The wording of a complaint. -/
def Complaint.message : Complaint → String
  | .manyStars => "wildcards are either regular `*` or recursive `**`"
  | .looseStars => "recursive wildcards must form a single path component"
  | .openBracket => "invalid range pattern"

/-- The wording of a fault. -/
def PatternFault.message (f : PatternFault) : String :=
  s!"Pattern syntax error near position {f.position}: {f.complaint.message}"

/-! ## Reading -/

/-- The sets in a bracket: ranges `a-z` and single characters. -/
def charSets : List Char → List CharSet
  | a :: '-' :: b :: s => .range a b :: charSets s
  | a :: s => .single a :: charSets s
  | [] => []

/-- The text up to the closing bracket and what follows it. The first character is never the closing
one. -/
def cutBracket? : List Char → Option (List Char × List Char)
  | [] => none
  | first :: s =>
    match s.dropWhile (· != ']') with
    | [] => none
    | _ :: rest => some (first :: s.takeWhile (· != ']'), rest)

theorem cutBracket?_length {s inner rest : List Char} (h : cutBracket? s = some (inner, rest)) :
    rest.length < s.length := by
  cases s with
  | nil => simp [cutBracket?] at h
  | cons first s =>
    have hle := (List.dropWhile_sublist (· != ']') (l := s)).length_le
    simp only [cutBracket?] at h
    split at h
    · simp at h
    · next c r hd =>
      simp only [Option.some.injEq, Prod.mk.injEq] at h
      obtain ⟨_, rfl⟩ := h
      rw [hd, List.length_cons] at hle
      simp only [List.length_cons]; omega

/-- The bracket that opens here, without its opening mark. -/
def takeBracket? : List Char → Option (Piece × List Char)
  | '!' :: s => (cutBracket? s).map fun (inner, rest) => (.noneOf (charSets inner), rest)
  | s => (cutBracket? s).map fun (inner, rest) => (.oneOf (charSets inner), rest)

theorem takeBracket?_length {s rest : List Char} {p : Piece}
    (h : takeBracket? s = some (p, rest)) : rest.length < s.length := by
  unfold takeBracket? at h
  split at h <;> simp only [Option.map_eq_some_iff, Prod.mk.injEq, Prod.exists] at h
  · obtain ⟨inner, r, hc, _, rfl⟩ := h
    have := cutBracket?_length hc
    simp only [List.length_cons]; omega
  · obtain ⟨inner, r, hc, _, rfl⟩ := h
    exact cutBracket?_length hc

/-- Two stars that reach to `position` begin at the start or behind a slash, and end at a slash, which
they take, or at the end. -/
def takeFolders (prev : Option Char) (position : Nat) (rest : List Char) :
    Except PatternFault (List Char × Nat) :=
  if prev.all (· == '/') then
    match rest with
    | [] => .ok ([], position)
    | c :: s => if c = '/' then .ok (s, position + 1) else .error ⟨position, .looseStars⟩
  else .error ⟨position - 3, .looseStars⟩

theorem takeFolders_length {prev : Option Char} {position next : Nat} {rest s : List Char}
    (h : takeFolders prev position rest = .ok (s, next)) : s.length ≤ rest.length := by
  fun_cases takeFolders prev position rest <;> simp_all [takeFolders]

/-- The pieces of a pattern from a place on; `prev` is the character before it. -/
def piecesFrom (prev : Option Char) (position : Nat) (s : List Char) :
    Except PatternFault (List Piece) :=
  match s with
  | [] => .ok []
  | '?' :: s => do return .anyChar :: (← piecesFrom (some '?') (position + 1) s)
  | '*' :: '*' :: '*' :: _ => .error ⟨position + 2, .manyStars⟩
  | '*' :: '*' :: s =>
    match _h : takeFolders prev (position + 2) s with
    | .error fault => .error fault
    | .ok (rest, next) => do
      let last := if rest.length < s.length then '/' else '*'
      return .anyFolders :: (← piecesFrom (some last) next rest)
  | '*' :: s => do return .anyText :: (← piecesFrom (some '*') (position + 1) s)
  | '[' :: s =>
    match _h : takeBracket? s with
    | none => .error ⟨position, .openBracket⟩
    | some (piece, rest) => do
      return piece :: (← piecesFrom (some ']') (position + 1 + (s.length - rest.length)) rest)
  | c :: s => do return .char c :: (← piecesFrom (some c) (position + 1) s)
termination_by s.length
decreasing_by
  · simp
  · have := takeFolders_length _h; simp only [List.length_cons]; omega
  · simp
  · have := takeBracket?_length _h; simp only [List.length_cons]; omega
  · simp

/-- The pieces of a pattern. -/
def pieces (pattern : List Char) : Except PatternFault (List Piece) := piecesFrom none 0 pattern

/-! ## Matching -/

/-- The test passes at some end of the text. -/
def anyTail (test : List Char → Bool) : List Char → Bool
  | [] => test []
  | c :: s => test (c :: s) || anyTail test s

/-- A name matches the pieces. -/
def isMatch : List Piece → List Char → Bool
  | [], s => s.isEmpty
  | .anyText :: ps, s => anyTail (isMatch ps) s
  | .anyFolders :: ps, s => anyTail (isMatch ps) s
  | _ :: _, [] => false
  | .char d :: ps, c :: s => c == d && isMatch ps s
  | .anyChar :: ps, _ :: s => isMatch ps s
  | .oneOf sets :: ps, c :: s => sets.any (·.holds c) && isMatch ps s
  | .noneOf sets :: ps, c :: s => !sets.any (·.holds c) && isMatch ps s

/-- The text that pieces without wildcards stand for. -/
def literal? : List Piece → Option (List Char)
  | [] => some []
  | .char c :: ps => (literal? ps).map (c :: ·)
  | _ :: _ => none

end DocWeave.Glob
