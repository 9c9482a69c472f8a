import DocWeave.Proofs.Text.Splitting
import DocWeave.Site

/-!
# The lines of a body

The body of a site is a stretch of lines of its file, which begins with the line of the site. The shape
decides where the stretch ends, and nothing else: two shapes give the same site exactly if they end on
the same line (`Site.ofLines?_reshape`).
-/

namespace DocWeave

open DocWeave.Text

/-! ## Joined lines -/

namespace Text

/-- A longer stretch of lines is a longer text. -/
theorem joinLines_take_inj {first : List Char} {rest : List (List Char)} {a b : Nat}
    (ha : a ≤ rest.length) (hb : b ≤ rest.length)
    (h : joinLines ((first :: rest).take (a + 1)) = joinLines ((first :: rest).take (b + 1))) :
    a = b := by
  have hlonger : ∀ {a b : Nat}, a < b → b ≤ rest.length →
      joinLines ((first :: rest).take (a + 1)) ≠ joinLines ((first :: rest).take (b + 1)) := by
    intro a b hab hb heq
    have hsplit : rest.take b = rest.take a ++ (rest.drop a).take (b - a) := by
      rw [← List.take_add, Nat.add_sub_cancel' (Nat.le_of_lt hab)]
    rw [joinLines, joinLines, List.take_succ_cons, List.take_succ_cons, intercalate_cons,
      intercalate_cons, hsplit, List.flatMap_append, ← List.append_assoc] at heq
    have hnone := List.self_eq_append_right.mp heq
    have hempty := List.flatMap_eq_nil_iff.mp hnone
    cases hmore : (rest.drop a).take (b - a) with
    | nil =>
      have := congrArg List.length hmore
      rw [List.length_take, List.length_drop, List.length_nil] at this
      omega
    | cons line more =>
      have := hempty line (by rw [hmore]; exact List.mem_cons_self)
      cases this
  rcases Nat.lt_trichotomy a b with hab | hab | hab
  · exact absurd h (hlonger hab hb)
  · exact hab
  · exact absurd h.symm (hlonger hab ha)

/-- Between any two lines there is one line end. -/
theorem countChar_joinLines {ls : List (List Char)} (hne : ls ≠ []) (h : ∀ l ∈ ls, '\n' ∉ l) :
    countChar '\n' (joinLines ls) + 1 = ls.length := by
  induction ls with
  | nil => exact absurd rfl hne
  | cons line rest ih =>
    have hline := countChar_eq_zero (h line List.mem_cons_self)
    cases rest with
    | nil =>
      rw [joinLines, List.intercalate_singleton, hline]
      rfl
    | cons next rest =>
      have hrest := ih (List.cons_ne_nil _ _) fun l hl => h l (List.mem_cons_of_mem _ hl)
      rw [joinLines] at hrest ⊢
      rw [List.intercalate_cons_cons, countChar_append, countChar_append, hline, List.length_cons,
        ← hrest]
      show 0 + 1 + _ + 1 = _
      omega

end Text

/-! ## Extents -/

namespace Outline

theorem gather_le (text : List Char) (rest : List (List Char)) :
    (gather text rest).2 ≤ rest.length := by
  induction rest generalizing text with
  | nil => exact Nat.le_refl 0
  | cons l ls ih =>
    rw [gather]
    split
    · exact Nat.succ_le_succ (ih _)
    · exact Nat.zero_le _

theorem blockExtent_le (first : List Char) (rest : List (List Char)) :
    blockExtent first rest ≤ rest.length := by
  unfold blockExtent
  split
  · exact Nat.zero_le _
  · exact blockLength_le _ rest

end Outline

/-- A definition ends inside its file, and not before it begins. -/
theorem Shape.lastLine_eq (shape : Shape) {found rest : List (List Char)} {start : Nat}
    {first : List Char} (h : found.drop start = first :: rest) :
    ∃ more, more ≤ rest.length ∧ shape.lastLine found start = start + more := by
  cases shape with
  | block =>
    refine ⟨Outline.blockExtent first rest, Outline.blockExtent_le first rest, ?_⟩
    rw [Shape.lastLine, Outline.blockEnd, h]
  | statement =>
    refine ⟨(Outline.gather (trim first) rest).2, Outline.gather_le _ rest, ?_⟩
    rw [Shape.lastLine, Outline.statementEnd, h]

namespace Site

variable {file : String} {found : List (List Char)} {line : Nat} {shape : Shape} {s : Site}

/-- The parts of a site: its first line, the lines behind it, and how many of them belong to it. -/
theorem ofLines?_cases (h : ofLines? file found line shape = some s) :
    ∃ start first rest more, line = start + 1 ∧ found.drop start = first :: rest ∧
      more ≤ rest.length ∧ shape.lastLine found start = start + more ∧
      s = {
        file, line
        comment := String.ofList ((commentAbove (found.take start)).flatMap commentText)
        commentLine := start - (commentAbove (found.take start)).length + 1
        body := String.ofList (joinLines ((first :: rest).take (more + 1))) } := by
  cases line with
  | zero => cases h
  | succ start =>
    rw [ofLines?] at h
    split at h
    · next hlt =>
      cases hlines : found.drop start with
      | nil => exact absurd (List.drop_eq_nil_iff.mp hlines) (Nat.not_le.mpr hlt)
      | cons first rest =>
        obtain ⟨more, hmore, hlast⟩ := shape.lastLine_eq hlines
        refine ⟨start, first, rest, more, rfl, hlines, hmore, hlast, ?_⟩
        rw [hlast, hlines, Nat.add_sub_cancel_left] at h
        exact (Option.some.inj h).symm
    · cases h

/-- A line that is there can be cut out. -/
theorem exists_ofLines? (file : String) (shape : Shape) {start : Nat} (h : start < found.length) :
    ∃ s, ofLines? file found (start + 1) shape = some s := by
  rw [ofLines?, if_pos h]
  exact ⟨_, rfl⟩

theorem ofLines?_file (h : ofLines? file found line shape = some s) : s.file = file := by
  obtain ⟨_, _, _, _, _, _, _, _, rfl⟩ := ofLines?_cases h
  rfl

theorem ofLines?_line (h : ofLines? file found line shape = some s) : s.line = line := by
  obtain ⟨_, _, _, _, _, _, _, _, rfl⟩ := ofLines?_cases h
  rfl

/-- Another shape at the same line changes nothing but the body, and that only if it ends elsewhere. -/
theorem ofLines?_reshape (h : ofLines? file found line shape = some s) (other : Shape) :
    ∃ t, ofLines? file found line other = some t ∧ t = { s with body := t.body } ∧
      (t = s ↔ other.lastLine found (line - 1) = shape.lastLine found (line - 1)) := by
  obtain ⟨start, first, rest, more, rfl, hlines, hmore, hlast, rfl⟩ := ofLines?_cases h
  obtain ⟨more', hmore', hlast'⟩ := other.lastLine_eq hlines
  have hlt : start < found.length := by
    have := congrArg List.length hlines
    rw [List.length_drop, List.length_cons] at this
    omega
  refine ⟨{
    file, line := start + 1
    comment := String.ofList ((commentAbove (found.take start)).flatMap commentText)
    commentLine := start - (commentAbove (found.take start)).length + 1
    body := String.ofList (joinLines ((first :: rest).take (more' + 1))) }, ?_, rfl, ?_⟩
  · rw [ofLines?, if_pos hlt, hlast', hlines, Nat.add_sub_cancel_left]
  · rw [Nat.add_sub_cancel, hlast, hlast']
    constructor
    · intro heq
      have hbody := String.ofList_injective (congrArg Site.body heq)
      rw [joinLines_take_inj hmore' hmore hbody]
    · intro heq
      rw [Nat.add_left_cancel heq]

/-- The body has the line of this number in it. -/
def Spans (s : Site) (number : Nat) : Prop :=
  s.line ≤ number ∧ number ≤ s.line + countChar '\n' s.body.toList

instance (s : Site) (number : Nat) : Decidable (s.Spans number) :=
  inferInstanceAs (Decidable (_ ∧ _))

/-- The body goes from the line of the site to the last line that its shape gives it. -/
theorem spans_iff (h : ofLines? file found line shape = some s) (hfound : ∀ l ∈ found, '\n' ∉ l)
    (number : Nat) :
    s.Spans number ↔ line ≤ number ∧ number ≤ shape.lastLine found (line - 1) + 1 := by
  obtain ⟨start, first, rest, more, rfl, hlines, hmore, hlast, rfl⟩ := ofLines?_cases h
  have hcount : countChar '\n' (joinLines ((first :: rest).take (more + 1))) = more := by
    have hmem : ∀ l ∈ (first :: rest).take (more + 1), '\n' ∉ l := by
      intro l hl
      refine hfound l (List.mem_of_mem_drop (i := start) ?_)
      rw [hlines]
      exact List.mem_of_mem_take hl
    have := countChar_joinLines (by simp) hmem
    rw [List.length_take, List.length_cons] at this
    omega
  rw [Spans, String.toList_ofList, hcount, Nat.add_sub_cancel, hlast, Nat.add_right_comm]

end Site

end DocWeave
