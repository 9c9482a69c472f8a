import DocWeave.Proofs.Locator.Outcomes
import DocWeave.Proofs.Outline.Extents
import DocWeave.Proofs.Site.Comment

/-!
# Slices of a file

A site is two slices of the lines of its file: the comment up to the line of the definition, and the body
from there through the last line of its block or statement. Cutting a slice with ends that are not in the
file, or in the wrong order, fails (`slice?`); neither slice of a site does (`Site.ofLines?_slices`). So
the place of a definition is found or it is missing, and nothing else can happen (`siteAt_slices`).
-/

namespace DocWeave

open DocWeave.Text

namespace Text

/-- The lines from index `i` to before index `j`, if these are places in the file, in this order. -/
def slice? (found : List (List Char)) (i j : Nat) : Option (List (List Char)) :=
  if i ≤ j ∧ j ≤ found.length then some ((found.drop i).take (j - i)) else none

theorem slice?_of_append {found before lines behind : List (List Char)}
    (h : found = before ++ lines ++ behind) {i j : Nat} (hi : i = before.length)
    (hj : j = before.length + lines.length) : slice? found i j = some lines := by
  subst h hi hj
  rw [slice?, if_pos ⟨Nat.le_add_right _ _, by simp⟩, Nat.add_sub_cancel_left, List.append_assoc,
    List.drop_left, List.take_left]

end Text

namespace Site

variable {file : String} {found : List (List Char)} {line : Nat} {shape : Shape} {s : Site}

/-- The comment and the body of a site are slices of the lines of its file. The comment ends before the
line of the site, and the body goes from there through the line of index `last`. -/
structure SlicedFrom (s : Site) (found : List (List Char)) (last : Nat) : Prop where
  comment : ∃ lines, slice? found (s.commentLine - 1) (s.line - 1) = some lines ∧
    (∀ l ∈ lines, isCommentLine l = true) ∧ s.comment = String.ofList (lines.flatMap commentText)
  body : ∃ lines, slice? found (s.line - 1) (last + 1) = some lines ∧
    s.body = String.ofList (joinLines lines)

theorem isCommentLine_of_mem {above : List (List Char)} {l : List Char} (h : l ∈ commentAbove above) :
    isCommentLine l = true := by
  rw [commentAbove, List.mem_reverse] at h
  exact List.mem_takeWhile_imp h

/-- Both slices of a site are in the file. -/
theorem ofLines?_slices (h : ofLines? file found line shape = some s) :
    s.SlicedFrom found (shape.lastLine found (line - 1)) := by
  obtain ⟨start, first, rest, more, rfl, hlines, hmore, hlast, rfl⟩ := ofLines?_cases h
  obtain ⟨head, hhead⟩ := append_commentAbove (found.take start)
  have hlength := Outline.length_eq_of_drop hlines
  have hstart : (found.take start).length = start := by
    rw [List.length_take]
    omega
  have habove : start = head.length + (commentAbove (found.take start)).length := by
    rw [← List.length_append, hhead, hstart]
  constructor
  · have hfound : found = head ++ commentAbove (found.take start) ++ found.drop start := by
      rw [hhead, List.take_append_drop]
    refine ⟨_, slice?_of_append hfound ?_ habove, fun l hl => isCommentLine_of_mem hl, rfl⟩
    show start - _ + 1 - 1 = _
    omega
  · have hfound : found =
        found.take start ++ (first :: rest).take (more + 1) ++ (first :: rest).drop (more + 1) := by
      rw [List.append_assoc, List.take_append_drop, ← hlines, List.take_append_drop]
    refine ⟨_, slice?_of_append hfound hstart.symm ?_, rfl⟩
    rw [hstart, List.length_take, List.length_cons, Nat.add_sub_cancel, hlast]
    omega

end Site

namespace Locator

open DocWeave.Outline

variable {root : String} {σ : Session} {file : String}

theorem outcome_siteAt_unreadable {fault : LocateFault} (h : linesIn root σ file = .error fault)
    (line : Nat) (shape : Shape) : outcome σ (siteAt root file line shape) = .error fault := by
  obtain ⟨τ, hrun, -⟩ := linesOf_spec root file σ
  rw [outcome, siteAt, Stateful.run_bind, hrun, h]

/-- A file has a site at each number from one to that of its last line, and no other one. -/
theorem outcome_siteAt_slices {found : List (List Char)} (h : linesIn root σ file = .ok found)
    (line : Nat) (shape : Shape) :
    if 1 ≤ line ∧ line ≤ found.length then
      ∃ s, outcome σ (siteAt root file line shape) = .ok s ∧ s.line = line ∧
        s.SlicedFrom found (shape.lastLine found (line - 1))
    else outcome σ (siteAt root file line shape) = .error (.noLine file line) := by
  have hresult : outcome σ (siteAt root file line shape) = _ := siteAt_result h line shape
  rw [hresult]
  split
  · next hline =>
    have hlt : line - 1 < found.length := by omega
    obtain ⟨s, hs⟩ := Site.exists_ofLines? file shape hlt
    rw [Nat.sub_add_cancel hline.1] at hs
    rw [hs]
    exact ⟨s, rfl, Site.ofLines?_line hs, Site.ofLines?_slices hs⟩
  · next hline =>
    cases hs : Site.ofLines? file found line shape with
    | none => rfl
    | some s =>
      obtain ⟨start, first, rest, more, rfl, hlines, -⟩ := Site.ofLines?_cases hs
      have hlength := length_eq_of_drop hlines
      omega

/-- **Extents in range.** In the lines of a file a block ends on the first line that closes it and a
statement on the first one at which its brackets are balanced, or else on the last line; so the end is a
line of the file and none above the beginning. Each turn of a scan leads to a later line, and the last one
exactly behind the file. A search for the definition on a line either fails, if the file cannot be read or
does not have the line, or it gives a site that is cut out with slices in range. -/
theorem extents_in_range (found : List (List Char)) :
    (∀ (start : Nat) (h : start < found.length) (e : Nat),
      (blockEnd found start = e ↔
        EndsAt (ClosesBlock found start found[start]) start found.length e) ∧
      (statementEnd found start = e ↔
        EndsAt (Balanced found start found[start]) start found.length e)) ∧
    (∀ (s : Scan) (i : Nat) (h : i < found.length),
      GoesOn found i found[i] (Scan.turn found (s, i)).2 ∧
        i < (Scan.turn found (s, i)).2 ∧ (Scan.turn found (s, i)).2 ≤ found.length) ∧
    (∃ turns, turns ≤ found.length ∧
      (Scan.turn found)^[turns] ({}, 0) = (scanLines {} 0 found, found.length)) ∧
    ∀ (root : String) (σ : Session) (file : String) (line : Nat) (shape : Shape),
      (∀ fault, linesIn root σ file = .error fault →
        outcome σ (siteAt root file line shape) = .error fault) ∧
      (linesIn root σ file = .ok found →
        if 1 ≤ line ∧ line ≤ found.length then
          ∃ s, outcome σ (siteAt root file line shape) = .ok s ∧ s.line = line ∧
            s.SlicedFrom found (shape.lastLine found (line - 1))
        else outcome σ (siteAt root file line shape) = .error (.noLine file line)) := by
  refine ⟨fun start h e => ⟨blockEnd_eq_iff h e, statementEnd_eq_iff h e⟩, fun s i h => ?_, ?_,
    fun root σ file line shape => ⟨fun fault hfault => ?_, fun hfound => ?_⟩⟩
  · exact ⟨Scan.goesOn_turn s h, (Scan.goesOn_turn s h).range h⟩
  · exact Scan.exists_turns {} (Nat.zero_le _)
  · exact outcome_siteAt_unreadable hfault line shape
  · exact outcome_siteAt_slices hfound line shape

/-- The lines of a file in which nothing is closed. -/
def unclosed : List (List Char) :=
  ["class A", "  # A list.", "  K = [1,", "  def x"].map String.toList

/-- A session with this file. -/
def unclosedSession : Session :=
  { files := { files := [(["a.rb"], "class A\n  # A list.\n  K = [1,\n  def x\n")] } }

/-- The method on the last line ends there, and so does the constant above it. -/
theorem extents_in_range_unclosed :
    3 < unclosed.length ∧ EndsAt (ClosesBlock unclosed 3 unclosed[3]) 3 unclosed.length 3 ∧
    2 < unclosed.length ∧ EndsAt (Balanced unclosed 2 unclosed[2]) 2 unclosed.length 3 ∧
    2 < (Scan.turn unclosed ({}, 2)).2 ∧
    (∃ turns, turns ≤ unclosed.length ∧
      (Scan.turn unclosed)^[turns] ({}, 0) = (scanLines {} 0 unclosed, unclosed.length)) ∧
    linesIn "." unclosedSession "a.rb" = .ok unclosed ∧
    (∃ s, outcome unclosedSession (siteAt "." "a.rb" 3 .statement) = .ok s ∧ s.line = 3 ∧
      s.SlicedFrom unclosed 3) ∧
    linesIn "." unclosedSession "b.rb" = .error (.unreadable "./b.rb" .missing) ∧
    outcome unclosedSession (siteAt "." "b.rb" 3 .statement) =
      .error (.unreadable "./b.rb" .missing) := by
  obtain ⟨hends, hturns, hrun, hsites⟩ := extents_in_range unclosed
  have hlines : linesIn "." unclosedSession "a.rb" = .ok unclosed :=
    Stateful.eq_ok_of_toOption (by decide +kernel)
  have hmissing : linesIn "." unclosedSession "b.rb" = .error (.unreadable "./b.rb" .missing) := by
    decide +kernel
  have hsite := (hsites "." unclosedSession "a.rb" 3 .statement).2 hlines
  rw [if_pos (by decide)] at hsite
  exact ⟨by decide, (hends 3 (by decide) 3).1.mp (by decide +kernel), by decide,
    (hends 2 (by decide) 3).2.mp (by decide +kernel), (hturns {} 2 (by decide)).2.1, hrun, hlines,
    hsite, hmissing, (hsites "." unclosedSession "b.rb" 3 .statement).1 _ hmissing⟩

end Locator

end DocWeave
