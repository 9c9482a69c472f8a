import DocWeave.Proofs.Outline.Steps
import DocWeave.Proofs.Site.Body
import Mathlib.Logic.Function.Iterate

/-!
# Where blocks and statements end

A search for the end of a block or of a statement goes down from its first line and stops at the first
line that is an end, or else at the last line of the file (`EndsAt`). There is one such line only, so what
`blockEnd` and `statementEnd` give is described in full by what they look for (`blockEnd_eq_iff`,
`statementEnd_eq_iff`). The scan of a file takes these extents in one turn: each turn leads to a later
line, behind the line itself or behind the extent that begins there (`Scan.goesOn_turn`), and the last
turn leads exactly behind the file (`Scan.exists_turns`).
-/

namespace DocWeave.Outline

open DocWeave.Text

/-! ## The first line that is an end -/

/-- Of `count` lines, line `e` is the first one from `start` on for which `p` holds, or else the last
one. -/
structure EndsAt (p : Nat → Prop) (start count e : Nat) : Prop where
  start_le : start ≤ e
  lt_count : e < count
  before : ∀ k, start ≤ k → k < e → ¬ p k
  stops : p e ∨ e + 1 = count

namespace EndsAt

variable {p : Nat → Prop} {start count e e' : Nat}

theorem not_lt (h : EndsAt p start count e) (h' : EndsAt p start count e') : ¬ e < e' := by
  intro hlt
  rcases h.stops with hstop | hlast
  · exact h'.before e h.start_le hlt hstop
  · have hinside := h'.lt_count
    omega

theorem unique (h : EndsAt p start count e) (h' : EndsAt p start count e') : e = e' :=
  Nat.le_antisymm (Nat.not_lt.mp (h'.not_lt h)) (Nat.not_lt.mp (h.not_lt h'))

theorem eq_iff (h : EndsAt p start count e) : e = e' ↔ EndsAt p start count e' :=
  ⟨fun heq => heq ▸ h, h.unique⟩

end EndsAt

/-! ## Blocks -/

/-- The block that `first` opens on line `start` is closed on line `k`: on its own line, if it closes
itself there, and else on a line below, with the same indentation. -/
def ClosesBlock (lines : List (List Char)) (start : Nat) (first : List Char) (k : Nat) : Prop :=
  if isOneLiner (trim first) then k = start
  else start < k ∧ ∃ l ∈ lines[k]?, indentation l = indentation first ∧ isEnd (trim l) = true

/-- The lines of a block before its last one do not close it, and the last one does, unless no line is
left. -/
theorem blockLength_spec (indent : Nat) (rest : List (List Char)) :
    (∀ j, j + 1 < blockLength indent rest →
        ¬ ∃ l ∈ rest[j]?, indentation l = indent ∧ isEnd (trim l) = true) ∧
      ((∃ j, blockLength indent rest = j + 1 ∧
          ∃ l ∈ rest[j]?, indentation l = indent ∧ isEnd (trim l) = true) ∨
        blockLength indent rest = rest.length) := by
  induction rest with
  | nil => exact ⟨fun j hj => absurd hj (Nat.not_lt_zero _), .inr rfl⟩
  | cons l ls ih =>
    obtain ⟨hbefore, hstop⟩ := ih
    rw [blockLength]
    split
    · next hcloses =>
      rw [Bool.and_eq_true, decide_eq_true_eq] at hcloses
      exact ⟨fun j hj => absurd hj (by omega), .inl ⟨0, rfl, l, rfl, hcloses⟩⟩
    · next hopen =>
      rw [Bool.and_eq_true, decide_eq_true_eq] at hopen
      refine ⟨fun j hj => ?_, ?_⟩
      · cases j with
        | zero =>
          rintro ⟨l', hl', hcloses⟩
          exact hopen (Option.some.inj hl' ▸ hcloses)
        | succ j => exact hbefore j (by omega)
      · rcases hstop with ⟨j, hlength, hcloses⟩ | hlength
        · exact .inl ⟨j + 1, by omega, hcloses⟩
        · exact .inr (by rw [List.length_cons]; omega)

variable {lines rest : List (List Char)} {start : Nat} {first : List Char}

theorem getElem?_behind (h : lines.drop start = first :: rest) (j : Nat) :
    lines[start + 1 + j]? = rest[j]? := by
  rw [← List.getElem?_drop, ← drop_behind h 0, List.drop_zero]

theorem endsAt_blockEnd (h : lines.drop start = first :: rest) :
    EndsAt (ClosesBlock lines start first) start lines.length (blockEnd lines start) := by
  have hlength := length_eq_of_drop h
  have hle := blockExtent_le first rest
  have hend : blockEnd lines start = start + blockExtent first rest := by rw [blockEnd, h]
  rw [hend]
  unfold ClosesBlock
  unfold blockExtent at hle ⊢
  split
  · next hself => exact ⟨Nat.le_refl _, by omega, fun k hk hlt => absurd hlt (by omega), .inl rfl⟩
  · next hblock =>
    rw [if_neg hblock] at hle
    obtain ⟨hbefore, hstop⟩ := blockLength_spec (indentation first) rest
    refine ⟨Nat.le_add_right _ _, by omega, ?_, ?_⟩
    · rintro k - hlt ⟨hbelow, hcloses⟩
      obtain ⟨j, rfl⟩ := Nat.exists_eq_add_of_le (Nat.succ_le_of_lt hbelow)
      rw [getElem?_behind h] at hcloses
      exact hbefore j (by omega) hcloses
    · rcases hstop with ⟨j, hlast, hcloses⟩ | hlast
      · left
        rw [hlast, show start + (j + 1) = start + 1 + j by omega, getElem?_behind h]
        exact ⟨by omega, hcloses⟩
      · right
        omega

/-- **Ends of blocks.** A block ends on the first line that closes it, or else on the last line. -/
theorem blockEnd_eq_iff (h : start < lines.length) (e : Nat) :
    blockEnd lines start = e ↔
      EndsAt (ClosesBlock lines start lines[start]) start lines.length e :=
  (endsAt_blockEnd (List.drop_eq_getElem_cons h)).eq_iff

/-! ## Statements -/

/-! ### Brackets -/

/-- An opening bracket. -/
def isOpening (c : Char) : Bool := c == '(' || c == '[' || c == '\x7b'

/-- A closing bracket. -/
def isClosing (c : Char) : Bool := c == ')' || c == ']' || c == '\x7d'

/-- What stands outside quotes. A quote that is not closed goes on to the end. -/
def unquoted : List Char → List Char
  | [] => []
  | c :: s =>
    if c = '"' ∨ c = '\'' then unquoted ((s.dropWhile (· != c)).drop 1) else c :: unquoted s
termination_by s => s.length
decreasing_by
  · have hle := (List.dropWhile_sublist (l := s) (· != c)).length_le
    simp only [List.length_drop, List.length_cons]
    omega
  · exact Nat.lt_succ_self _

theorem isOpening_iff {c : Char} : isOpening c = true ↔ c = '(' ∨ c = '[' ∨ c = '\x7b' := by
  simp [isOpening, or_assoc]

theorem isClosing_iff {c : Char} : isClosing c = true ↔ c = ')' ∨ c = ']' ∨ c = '\x7d' := by
  simp [isClosing, or_assoc]

theorem step_quoted (d : Int) (q c : Char) :
    Nesting.step ⟨d, some q⟩ c = if c = q then ⟨d, none⟩ else ⟨d, some q⟩ := rfl

/-- Outside quotes a character opens a quote, or it changes the depth if it is a bracket. -/
theorem step_unquoted (d : Int) (c : Char) :
    Nesting.step ⟨d, none⟩ c =
      if c = '"' ∨ c = '\'' then ⟨d, some c⟩
      else ⟨d + (if isOpening c then 1 else 0 : Nat) - (if isClosing c then 1 else 0 : Nat), none⟩ := by
  unfold Nesting.step
  dsimp only
  split
  · rfl
  simp only [← isOpening_iff, ← isClosing_iff]
  by_cases hopening : isOpening c = true
  · have hclosing : isClosing c = false := by
      rcases isOpening_iff.mp hopening with rfl | rfl | rfl <;> rfl
    simp [hopening, hclosing]
  · by_cases hclosing : isClosing c = true
    · simp [hopening, hclosing]
    · simp [hopening, hclosing]

/-- Inside a quote nothing counts until it is closed. -/
theorem depth_quoted (q : Char) (d : Int) (s : List Char) :
    (s.foldl Nesting.step ⟨d, some q⟩).depth =
      (((s.dropWhile (· != q)).drop 1).foldl Nesting.step ⟨d, none⟩).depth := by
  induction s with
  | nil => rfl
  | cons c s ih =>
    rw [List.foldl_cons, step_quoted]
    by_cases hc : c = q
    · rw [if_pos hc, List.dropWhile_cons_of_neg (by simp [hc])]
      rfl
    · rw [if_neg hc, List.dropWhile_cons_of_pos (by simp [hc]), ih]

theorem depth_unquoted (d : Int) (s : List Char) :
    (s.foldl Nesting.step ⟨d, none⟩).depth =
      d + (unquoted s).countP isOpening - (unquoted s).countP isClosing := by
  fun_induction unquoted s generalizing d with
  | case1 => simp
  | case2 c s hquote ih => rw [List.foldl_cons, step_unquoted, if_pos hquote, depth_quoted, ih]
  | case3 c s hquote ih =>
    rw [List.foldl_cons, step_unquoted, if_neg hquote, ih, List.countP_cons, List.countP_cons]
    omega

/-- The depth of a text is the number of its opening brackets less that of its closing ones, as far as
they stand outside quotes. -/
theorem bracketDepth_eq (s : List Char) :
    bracketDepth s = (unquoted s).countP isOpening - (unquoted s).countP isClosing := by
  rw [bracketDepth, depth_unquoted, Int.zero_add]

/-! ### Lines of a statement -/

/-- From `first`, which stands on line `start`, to the end of line `k` no more brackets are opened than
closed; brackets in quotes do not count, nor do blanks around a line. -/
def Balanced (lines : List (List Char)) (start : Nat) (first : List Char) (k : Nat) : Prop :=
  let text := joinLines ((first :: (lines.drop (start + 1)).take (k - start)).map trim)
  (unquoted text).countP isOpening ≤ (unquoted text).countP isClosing

theorem joinLines_trim_cons (first : List Char) (rest : List (List Char)) :
    joinLines ((first :: rest).map trim) = trim first ++ rest.flatMap fun l => '\n' :: trim l := by
  rw [List.map_cons, joinLines, intercalate_cons, List.flatMap_map]
  rfl

/-- Brackets are open as long as a statement goes on, and at its end they are not, unless no line is
left. -/
theorem gather_spec (text : List Char) (rest : List (List Char)) :
    (∀ j, j < (gather text rest).2 →
        0 < bracketDepth (text ++ (rest.take j).flatMap fun l => '\n' :: trim l)) ∧
      (bracketDepth (text ++ (rest.take (gather text rest).2).flatMap fun l => '\n' :: trim l) ≤ 0 ∨
        (gather text rest).2 = rest.length) := by
  induction rest generalizing text with
  | nil => exact ⟨fun j hj => absurd hj (Nat.not_lt_zero _), .inr rfl⟩
  | cons l ls ih =>
    rw [gather]
    split
    · next hopen =>
      obtain ⟨hbefore, hstop⟩ := ih (text ++ '\n' :: trim l)
      simp only [List.append_assoc] at hbefore hstop
      refine ⟨fun j hj => ?_, hstop.imp_right (congrArg (· + 1))⟩
      cases j with
      | zero => rwa [List.take_zero, List.flatMap_nil, List.append_nil]
      | succ j => exact hbefore j (Nat.lt_of_succ_lt_succ hj)
    · next hbalanced =>
      refine ⟨fun j hj => absurd hj (Nat.not_lt_zero _), .inl ?_⟩
      rw [List.take_zero, List.flatMap_nil, List.append_nil]
      exact Int.not_lt.mp hbalanced

/-- The statement may begin inside its first line. -/
theorem endsAt_gather {raw : List Char} (h : lines.drop start = raw :: rest) (first : List Char) :
    EndsAt (Balanced lines start first) start lines.length
      (start + (gather (trim first) rest).2) := by
  have hlength := length_eq_of_drop h
  have hle := gather_le (trim first) rest
  have hrest : lines.drop (start + 1) = rest := by rw [← List.tail_drop, h, List.tail_cons]
  obtain ⟨hbefore, hstop⟩ := gather_spec (trim first) rest
  have hbalanced : ∀ j, Balanced lines start first (start + j) ↔
      bracketDepth (trim first ++ (rest.take j).flatMap fun l => '\n' :: trim l) ≤ 0 := by
    intro j
    rw [Balanced, Nat.add_sub_cancel_left, hrest, joinLines_trim_cons, bracketDepth_eq]
    omega
  refine ⟨Nat.le_add_right _ _, by omega, ?_, ?_⟩
  · intro k hk hlt
    obtain ⟨j, rfl⟩ := Nat.exists_eq_add_of_le hk
    rw [hbalanced]
    exact Int.not_le.mpr (hbefore j (by omega))
  · rw [hbalanced]
    exact hstop.imp_right fun hlast => by omega

/-- **Ends of statements.** A statement ends on the first line at which its brackets are balanced, or else
on the last line. -/
theorem statementEnd_eq_iff (h : start < lines.length) (e : Nat) :
    statementEnd lines start = e ↔
      EndsAt (Balanced lines start lines[start]) start lines.length e := by
  have hdrop := List.drop_eq_getElem_cons h
  have hend : statementEnd lines start =
      start + (gather (trim lines[start]) (lines.drop (start + 1))).2 := by
    rw [statementEnd, hdrop]
  rw [hend]
  exact (endsAt_gather hdrop lines[start]).eq_iff

/-- A bracket in quotes opens nothing. -/
example : statementEnd (["K = [1, \"[\",", "  2]", "L = 3"].map String.toList) 0 = 1 := by
  decide +kernel

/-! ## Turns of the scan -/

/-- How a scan goes on from line `i`, which is `raw`: with the next line, behind the block that a method
begins there, or behind the statement that a constant begins there. -/
inductive GoesOn (lines : List (List Char)) (i : Nat) (raw : List Char) : Nat → Prop
  | line : GoesOn lines i raw (i + 1)
  | block (head : MethodHead) : methodHead? (trim raw) = some head →
      GoesOn lines i raw (blockEnd lines i + 1)
  | statement (name text : List Char) (e : Nat) : constantHead? (trim raw) = some (name, text) →
      EndsAt (Balanced lines i text) i lines.length e → GoesOn lines i raw (e + 1)

theorem GoesOn.range {raw : List Char} {i j : Nat} (h : GoesOn lines i raw j) (hi : i < lines.length) :
    i < j ∧ j ≤ lines.length := by
  cases h with
  | line => omega
  | block _ _ =>
    have hend := endsAt_blockEnd (List.drop_eq_getElem_cons hi)
    exact ⟨Nat.lt_succ_of_le hend.start_le, hend.lt_count⟩
  | statement _ _ e _ hend => exact ⟨Nat.lt_succ_of_le hend.start_le, hend.lt_count⟩

namespace Scan

/-- One turn of the scan of some lines: what becomes of it on the line of index `i`, and the index of the
line that it comes to next. Behind the last line nothing happens. -/
def turn (lines : List (List Char)) : Scan × Nat → Scan × Nat
  | (s, i) =>
    match lines.drop i with
    | [] => (s, i)
    | raw :: rest =>
      ((s.next (i + 1) raw rest).1, i + 1 + (s.next (i + 1) raw rest).2)

theorem turn_of_drop {s : Scan} {i : Nat} {raw : List Char} (h : lines.drop i = raw :: rest) :
    turn lines (s, i) = ((s.next (i + 1) raw rest).1, i + 1 + (s.next (i + 1) raw rest).2) := by
  rw [turn, h]

theorem goesOn_turn (s : Scan) {i : Nat} (hi : i < lines.length) :
    GoesOn lines i lines[i] (turn lines (s, i)).2 := by
  have hdrop := List.drop_eq_getElem_cons hi
  rw [turn_of_drop hdrop]
  dsimp only
  rw [next]
  dsimp only
  split
  · exact .line
  split
  · exact .line
  split
  · exact .line
  split
  · exact .line
  split
  · exact .line
  split
  · next head hhead =>
    have hend : i + 1 + blockExtent lines[i] (lines.drop (i + 1)) = blockEnd lines i + 1 := by
      rw [blockEnd, hdrop]
      dsimp only
      omega
    exact hend ▸ .block head hhead
  split
  · next name text hconstant =>
    have hend := endsAt_gather hdrop text
    rw [Nat.add_right_comm]
    exact .statement name text _ hconstant hend
  split
  · exact .line
  split
  · exact .line
  · exact .line

/-- The scan of the lines that are left takes at most as many turns as these are, and the last turn leads
exactly behind them. -/
theorem exists_turns (s : Scan) {i : Nat} (hi : i ≤ lines.length) :
    ∃ turns, turns ≤ lines.length - i ∧
      (turn lines)^[turns] (s, i) = (scanLines s i (lines.drop i), lines.length) := by
  generalize hleft : lines.length - i = left
  induction left using Nat.strongRecOn generalizing s i with
  | ind left ih =>
    rcases Nat.lt_or_eq_of_le hi with hlt | rfl
    · have hdrop := List.drop_eq_getElem_cons hlt
      obtain ⟨hlater, hinside⟩ := (goesOn_turn s hlt).range hlt
      rw [turn_of_drop hdrop] at hlater hinside
      obtain ⟨turns, hturns, hrun⟩ := ih _ (by omega) (s.next (i + 1) lines[i] _).1 hinside rfl
      refine ⟨turns + 1, by omega, ?_⟩
      rw [Function.iterate_succ_apply, turn_of_drop hdrop, hrun, hdrop, scanLines_next,
        drop_behind hdrop]
    · refine ⟨0, Nat.zero_le _, ?_⟩
      rw [List.drop_length, scanLines]
      rfl

end Scan

end DocWeave.Outline
