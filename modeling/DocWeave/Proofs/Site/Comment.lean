import DocWeave.Proofs.Text.Layout
import DocWeave.Proofs.Text.Splitting
import DocWeave.Site

/-!
# Where the text of a comment stands in its file

A site's comment is put together from the lines above the definition, each without its mark and with one
line end. So a place in the comment can be followed back to a line of the file: the line ends before the
place count the comment lines above it (`Site.markOnLine`). A doc block is one stretch of the comment, and
its line is that of its first character (`DocBlock.extract_mark`).
-/

namespace DocWeave

open DocWeave.Text

namespace Site

/-! ## Comment lines -/

theorem newline_not_mem_uncommentLine {s : List Char} (h : '\n' ∉ s) : '\n' ∉ uncommentLine s := by
  fun_cases uncommentLine s with
  | case1 s => exact fun hin => h (List.mem_cons_of_mem _ (List.mem_cons_of_mem _ hin))
  | case2 s => exact fun hin => h (List.mem_cons_of_mem _ (List.mem_cons_of_mem _ hin))
  | case3 s => exact fun hin => h (List.mem_cons_of_mem _ hin)
  | case4 => exact h

/-- The text of a line without line ends. -/
theorem commentText_eq {line : List Char} (h : '\n' ∉ line) :
    commentText line = uncommentLine (trimStart line) ++ ['\n'] := by
  have htrim : '\n' ∉ trimStart line := fun hin => h ((List.dropWhile_sublist _).mem hin)
  have hone : splitOn ['\n'] (trimStart line) = [trimStart line] := by
    refine splitOn_of_none (splitFirst?_eq_none_iff.mpr ?_)
    rintro ⟨front, rest, hin⟩
    exact htrim (hin ▸ by simp)
  rw [commentText, uncomment, hone, List.map_singleton, List.intercalate_singleton]

/-- The text of a comment line has one line end, the last character. -/
theorem commentText_spec {line : List Char} (h : '\n' ∉ line) :
    ∃ text, commentText line = text ++ ['\n'] ∧ '\n' ∉ text := by
  have htrim : '\n' ∉ trimStart line := fun hin => h ((List.dropWhile_sublist _).mem hin)
  exact ⟨_, commentText_eq h, newline_not_mem_uncommentLine htrim⟩

theorem countChar_commentText {line : List Char} (h : '\n' ∉ line) :
    countChar '\n' (commentText line) = 1 := by
  obtain ⟨text, htext, hnot⟩ := commentText_spec h
  rw [htext, countChar_append, countChar_eq_zero hnot]
  rfl

/-- Each comment line adds one line end. -/
theorem countChar_comment {comment : List (List Char)} (h : ∀ line ∈ comment, '\n' ∉ line) :
    countChar '\n' (comment.flatMap commentText) = comment.length := by
  induction comment with
  | nil => rfl
  | cons line rest ih =>
    rw [List.flatMap_cons, countChar_append, countChar_commentText (h line List.mem_cons_self),
      ih fun l hl => h l (List.mem_cons_of_mem _ hl), List.length_cons, Nat.add_comm]

/-- No line end stands before a mark of the same comment line. -/
theorem newline_not_mem_left {line left right : List Char} (h : '\n' ∉ line)
    (hmark : commentText line = left ++ '<' :: '%' :: right) : '\n' ∉ left := by
  obtain ⟨text, htext, hnot⟩ := commentText_spec h
  rcases List.append_eq_append_iff.mp (htext.symm.trans hmark) with ⟨gap, -, hgap⟩ | ⟨gap, rfl, -⟩
  · rcases gap with _ | ⟨c, gap⟩
    · exact absurd (List.cons.inj hgap).1 (by decide)
    · exact absurd (congrArg List.length hgap) (by simp)
  · exact fun hin => hnot (List.mem_append_left _ hin)

/-- An opening mark in the text of some comment lines stands on one of them. -/
theorem mark_in_comment {comment : List (List Char)} (h : ∀ line ∈ comment, '\n' ∉ line)
    {before after : List Char} (hmark : comment.flatMap commentText = before ++ '<' :: '%' :: after) :
    ∃ above line below left right, comment = above ++ line :: below ∧
      before = above.flatMap commentText ++ left ∧ commentText line = left ++ '<' :: '%' :: right := by
  induction comment generalizing before with
  | nil => exact absurd (congrArg List.length hmark) (by simp)
  | cons line rest ih =>
    have hrest : ∀ l ∈ rest, '\n' ∉ l := fun l hl => h l (List.mem_cons_of_mem _ hl)
    -- the mark is behind this line or on it
    have hbehind : ∀ gap, before = commentText line ++ gap →
        rest.flatMap commentText = gap ++ '<' :: '%' :: after →
        ∃ above l below left right, line :: rest = above ++ l :: below ∧
          before = above.flatMap commentText ++ left ∧
          commentText l = left ++ '<' :: '%' :: right := by
      rintro gap rfl hgap
      obtain ⟨above, l, below, left, right, rfl, rfl, hl⟩ := ih hrest hgap
      exact ⟨line :: above, l, below, left, right, rfl, by simp, hl⟩
    rw [List.flatMap_cons] at hmark
    rcases List.append_eq_append_iff.mp hmark with ⟨gap, hgap, hafter⟩ | ⟨gap, hgap, hafter⟩
    · exact hbehind gap hgap hafter
    · rcases gap with _ | ⟨c, _ | ⟨d, gap⟩⟩
      · exact hbehind [] (by rw [hgap]; simp) hafter.symm
      · -- the line would end with the first character of the mark
        exfalso
        obtain ⟨text, htext, -⟩ := commentText_spec (h line List.mem_cons_self)
        have hlast := htext.symm.trans hgap
        have hc := (List.append_inj' hlast rfl).2
        simp only [List.cons_append, List.nil_append, List.cons.injEq] at hafter hc
        rw [← hafter.1] at hc
        exact absurd hc.1 (by decide)
      · simp only [List.cons_append, List.cons.injEq] at hafter
        obtain ⟨rfl, rfl, -⟩ := hafter
        exact ⟨[], line, rest, before, gap, rfl, rfl, hgap⟩

/-! ## Back to the file -/

/-- The comment above some lines is their end. -/
theorem append_commentAbove (above : List (List Char)) :
    ∃ head, head ++ commentAbove above = above := by
  refine ⟨(above.reverse.dropWhile isCommentLine).reverse, ?_⟩
  rw [commentAbove, ← List.reverse_append, List.takeWhile_append_dropWhile, List.reverse_reverse]

/-- Behind `before` in the comment of a site an opening mark follows, and in the file this mark stands on
the line of this number: `before` is the text of the comment lines above this line, and of this line as
far as the mark. -/
def MarkOnLine (site : Site) (found : List (List Char)) (before : List Char) (number : Nat) : Prop :=
  ∃ head above line below left right, found = head ++ above ++ line :: below ∧
    head.length + 1 = site.commentLine ∧ number = (head ++ above).length + 1 ∧
    before = above.flatMap commentText ++ left ∧ commentText line = left ++ '<' :: '%' :: right

/-- The line ends before a mark, counted from the first line of the comment, give the mark's line. -/
theorem markOnLine {file : String} {found : List (List Char)} {number : Nat} {shape : Shape} {site : Site}
    (h : ofLines? file found number shape = some site) (hfound : ∀ line ∈ found, '\n' ∉ line)
    {before after : List Char} (hmark : site.comment.toList = before ++ '<' :: '%' :: after) :
    site.MarkOnLine found before (site.commentLine + countChar '\n' before) := by
  cases number with
  | zero => cases h
  | succ start =>
    rw [ofLines?] at h
    split at h
    · next hlt =>
      cases h
      obtain ⟨head, hhead⟩ := append_commentAbove (found.take start)
      have hlength : head.length = start - (commentAbove (found.take start)).length := by
        have := congrArg List.length hhead
        rw [List.length_append, List.length_take] at this
        omega
      have hcomment : ∀ line ∈ commentAbove (found.take start), '\n' ∉ line := by
        intro line hline
        refine hfound line (List.mem_of_mem_take (i := start) ?_)
        rw [← hhead]
        exact List.mem_append_right _ hline
      simp only [String.toList_ofList] at hmark
      obtain ⟨above, line, below, left, right, hsplit, rfl, hline⟩ := mark_in_comment hcomment hmark
      have hleft : '\n' ∉ left :=
        newline_not_mem_left (hcomment line (by rw [hsplit]; simp)) hline
      have habove : countChar '\n' (above.flatMap commentText) = above.length :=
        countChar_comment fun l hl => hcomment l (by rw [hsplit]; exact List.mem_append_left _ hl)
      refine ⟨head, above, line, below ++ found.drop start, left, right, ?_, ?_, ?_, rfl, hline⟩
      · have hfile : head ++ (above ++ line :: below) ++ found.drop start = found := by
          rw [← hsplit, hhead, List.take_append_drop]
        simpa using hfile.symm
      · rw [hlength]
      · rw [countChar_append, habove, countChar_eq_zero hleft, List.length_append, hlength]
        show start - _ + 1 + (above.length + 0) = _
        omega
    · cases h

end Site

/-! ## Doc blocks -/

namespace DocBlock

/-- What stands in a comment before its doc block. -/
def lead (tokens : BlockTokens) (comment : String) : List Char :=
  match splitFirst? (tokens.start.toList ++ ['\n']) comment.toList with
  | none => []
  | some (front, _) => front ++ (tokens.start.toList ++ ['\n'])

/-- No opening mark begins in what is put behind a block that has no end token. -/
theorem mark_before_marker {body before after : List Char}
    (h : body ++ noEndMarker.toList = before ++ '<' :: '%' :: after) :
    ∃ behind, body = before ++ '<' :: '%' :: behind := by
  have hmarker : '<' ∉ noEndMarker.toList ∧ '%' ∉ noEndMarker.toList := by decide
  rcases List.append_eq_append_iff.mp h with ⟨gap, -, hgap⟩ | ⟨gap, hbody, hgap⟩
  · exact absurd (hgap ▸ by simp) hmarker.1
  · rcases gap with _ | ⟨c, _ | ⟨d, gap⟩⟩
    · have hless : '<' :: '%' :: after = noEndMarker.toList := hgap
      exact absurd (hless ▸ List.mem_cons_self) hmarker.1
    · have hpercent : '%' :: after = noEndMarker.toList := (List.cons.inj hgap).2
      exact absurd (hpercent ▸ List.mem_cons_self) hmarker.2
    · simp only [List.cons_append, List.cons.injEq] at hgap
      obtain ⟨rfl, rfl, -⟩ := hgap
      exact ⟨gap, hbody⟩

/-- An opening mark of a doc block is one of the comment, and the block's line is the line of the comment
on which the block begins. -/
theorem extract_mark {tokens : BlockTokens} {comment : String} {firstLine : Nat}
    {before after : List Char}
    (h : (extract tokens comment firstLine).text.toList = before ++ '<' :: '%' :: after) :
    (∃ behind, comment.toList = lead tokens comment ++ before ++ '<' :: '%' :: behind) ∧
      (extract tokens comment firstLine).line =
        firstLine + countChar '\n' (lead tokens comment) := by
  unfold extract lead at *
  cases hs : splitFirst? (tokens.start.toList ++ ['\n']) comment.toList with
  | none =>
    simp only [hs] at h
    exact absurd (congrArg List.length h) (by simp)
  | some cut =>
    obtain ⟨front, body⟩ := cut
    simp only [hs] at h ⊢
    have hcomment : comment.toList = front ++ (tokens.start.toList ++ ['\n']) ++ body :=
      eq_of_splitFirst? hs
    cases hstop : splitLast? tokens.stop.toList body with
    | some cut =>
      obtain ⟨text, rest⟩ := cut
      simp only [hstop, String.toList_ofList] at h ⊢
      refine ⟨⟨after ++ tokens.stop.toList ++ rest, ?_⟩, trivial⟩
      rw [hcomment, eq_of_splitLast? hstop, h]
      simp
    | none =>
      simp only [hstop, String.toList_append, String.toList_ofList] at h ⊢
      obtain ⟨behind, hbody⟩ := mark_before_marker h
      refine ⟨⟨behind, ?_⟩, trivial⟩
      rw [hcomment, hbody]
      simp

end DocBlock

end DocWeave
