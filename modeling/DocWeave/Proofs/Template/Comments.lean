import DocWeave.Proofs.Template.Printing

/-!
# Comments in a template

The closing mark of a comment is found as that of any other tag, and quotes in the comment count. A
comment that leaves no quote open is passed over, and what follows it is scanned as if it stood alone,
some lines further down. A comment with an open quote takes the closing mark for a part of the quote, so
it ends later or not at all (`scan_comment_iff`).
-/

namespace DocWeave.Template

open DocWeave.Text

/-! ## Segments further down -/

/-- The segment, `amount` lines further down if it is a tag. -/
def Segment.shift (amount : Nat) : Segment → Segment
  | .text s => .text s
  | .output code line => .output code (line + amount)
  | .exec code line => .exec code (line + amount)

theorem map_shift_textSegment (amount : Nat) (s : List Char) :
    (textSegment s).map (Segment.shift amount) = textSegment s := by
  unfold textSegment
  split <;> rfl

theorem tagSegment_shift (amount : Nat) (code : List Char) (line : Nat) :
    tagSegment code (line + amount) = (tagSegment code line).map (Segment.shift amount) := by
  fun_cases tagSegment code line with
  | case1 c => rfl
  | case2 c => rfl
  | case3 houtput hcomment => simp only [tagSegment, List.map_cons, List.map_nil, Segment.shift]

/-- Where a template is scanned further down, its tags stand further down. -/
theorem scanFrom_shift (amount : Nat) {line : Nat} {text rest : List Char} {segments : List Segment}
    (h : scanFrom line text rest = .ok segments) :
    scanFrom (line + amount) text rest = .ok (segments.map (Segment.shift amount)) := by
  fun_induction scanFrom line text rest generalizing segments with
  | case1 line text rest h₀ =>
    cases h
    rw [scanFrom_none h₀, map_shift_textSegment]
  | case2 line text rest before behind h₀ ih =>
    rw [scanFrom_literal h₀, Nat.add_right_comm]
    exact ih h
  | case3 line text rest before after hne h₀ h₁ => cases h
  | case4 line text rest before after hne h₀ tag h₁ here waiting =>
    rename_i ih
    rcases hlater : scanFrom (here + tag.lineEnds) [] tag.rest with fault | later
    · rw [hlater] at h
      cases h
    · rw [hlater] at h
      cases h
      have hhere : line + amount + countChar '\n' before = here + amount := Nat.add_right_comm ..
      rw [scanFrom_tag h₀ hne h₁, hhere, Nat.add_right_comm here, ih hlater, tagSegment_shift,
        List.map_append, List.map_append, map_shift_textSegment]
      rfl

/-! ## Where a comment ends -/

/-- The closing mark behind a text that has none outside quotes is not found if a quote is open there. -/
theorem cutTag_of_open {quote : Option Char} {code : List Char} (hmark : ¬['%', '>'] <:+: code)
    (h : isTagCode quote code = false) : cutTag quote (code ++ ['%', '>']) = none := by
  have hlater : ∀ {c : Char} {s : List Char}, ¬['%', '>'] <:+: c :: s → ¬['%', '>'] <:+: s :=
    fun hmark hin => hmark (List.infix_cons hin)
  fun_induction isTagCode quote code with
  | case1 quote =>
    obtain ⟨q, rfl⟩ := Option.isSome_iff_exists.mp (Option.isNone_eq_false_iff.mp h)
    rw [List.nil_append, cutTag_quoted (by decide) (by decide)]
    split <;> rfl
  | case2 => rfl
  | case3 q d s ih =>
    rw [List.cons_append, List.cons_append, cutTag_escaped, ih (hlater (hlater hmark)) h]
    rfl
  | case4 c s q hc ih =>
    rw [List.cons_append, cutTag_quoted hc (by simp), ih (hlater hmark) h]
    rfl
  | case5 c s hc =>
    obtain ⟨rfl, hhead⟩ := hc
    obtain ⟨t, rfl⟩ := List.head?_eq_some_iff.mp hhead
    exact absurd ⟨[], t, rfl⟩ hmark
  | case6 c s hplain ih =>
    have hplain' : ¬(c = '%' ∧ (s ++ ['%', '>']).head? = some '>') := by
      rintro ⟨rfl, hhead⟩
      cases s with
      | nil => cases hhead
      | cons d s => exact hplain ⟨rfl, hhead⟩
    rw [List.cons_append, cutTag_plain hplain' (by simp), ih (hlater hmark) h]
    rfl

section

variable {c : List Char} {line : Nat} {text rest : List Char}

theorem cutDash_comment (hdash : c.getLast? ≠ some '-') : cutDash ('#' :: c) = ('#' :: c, false) := by
  have hnone : before? ['-'] ('#' :: c) = none := by
    refine Option.eq_none_iff_forall_ne_some.mpr fun front hfront => hdash ?_
    have htext := eq_of_before? hfront
    cases front with
    | nil => cases htext
    | cons d front =>
      obtain ⟨-, rfl⟩ := List.cons.inj htext
      exact List.getLast?_concat ..
  rw [cutDash, hnone]

/-- A comment that leaves no quote open ends the text before it, if there is one, and is passed over. -/
theorem scanFrom_comment (h : isTagCode none c = true) (hdash : c.getLast? ≠ some '-') :
    scanFrom line text ('<' :: '%' :: '#' :: (c ++ '%' :: '>' :: rest)) =
      (scanFrom (line + countChar '\n' c) [] rest).map (textSegment text ++ ·) := by
  have htail : cutTag none ('%' :: '>' :: rest) = some ([], rest) := rfl
  have hcode : isTagCode none ('#' :: c) = true := h
  have hcut : cutTag none ('#' :: (c ++ '%' :: '>' :: rest)) = some ('#' :: c, rest) := by
    rw [← List.cons_append, cutTag_isTagCode hcode htail (by simp), List.append_nil]
  have htag : cutWholeTag? ('#' :: (c ++ '%' :: '>' :: rest)) = some
      { code := '#' :: c, trimsLeft := false, lineEnds := countChar '\n' c, rest } := by
    have hopen : cutOpeningDash ('#' :: (c ++ '%' :: '>' :: rest)) =
        ('#' :: (c ++ '%' :: '>' :: rest), false) := rfl
    have hcount : countChar '\n' ('#' :: c) = countChar '\n' c := by simp [countChar]
    rw [cutWholeTag?, hopen]
    simp only [hcut, Option.map_some, cutDash_comment hdash, cutLineEnd, hcount, Bool.false_eq_true,
      if_false, Nat.add_zero]
  have hsplit : splitFirst? ['<', '%'] ('<' :: '%' :: '#' :: (c ++ '%' :: '>' :: rest)) =
      some ([], '#' :: (c ++ '%' :: '>' :: rest)) := rfl
  rw [scanFrom_tag hsplit (fun _ heq => by cases heq) htag]
  have hcomment : tagSegment ('#' :: c) (line + countChar '\n' []) = [] := rfl
  simp only [hcomment, Bool.false_eq_true, if_false, List.append_nil]
  rfl

/-- A comment that leaves a quote open takes the closing mark in, so that it is not closed where nothing
follows. -/
theorem scanFrom_comment_open (hmark : ¬['%', '>'] <:+: c) (h : isTagCode none c = false) :
    scanFrom line text ('<' :: '%' :: '#' :: (c ++ ['%', '>'])) =
      .error (.unterminatedTag (line + 1)) := by
  have hcut : cutTag none ('#' :: c ++ ['%', '>']) = none := by
    refine cutTag_of_open ?_ h
    rw [List.infix_cons_iff, not_or]
    refine ⟨?_, hmark⟩
    rintro ⟨_, heq⟩
    cases heq
  have htag : cutWholeTag? ('#' :: (c ++ ['%', '>'])) = none := by
    have hopen : cutOpeningDash ('#' :: (c ++ ['%', '>'])) = ('#' :: (c ++ ['%', '>']), false) := rfl
    rw [cutWholeTag?, hopen]
    exact Option.map_eq_none_iff.mpr hcut
  have hsplit : splitFirst? ['<', '%'] ('<' :: '%' :: '#' :: (c ++ ['%', '>'])) =
      some ([], '#' :: (c ++ ['%', '>'])) := rfl
  exact scanFrom_open hsplit (fun _ heq => by cases heq) htag

end

theorem toList_comment (c rest : String) : ("<%#" ++ c ++ "%>" ++ rest).toList =
    '<' :: '%' :: '#' :: (c.toList ++ '%' :: '>' :: rest.toList) := by
  simp [String.toList_append]

/-- **Comments.** A comment that neither holds a closing mark nor ends in a dash is passed over in front of
every template that can be scanned, whose tags stand further down by the line ends of the comment, if and
only if it leaves no quote open. -/
theorem scan_comment_iff (c : String) (hmark : ¬['%', '>'] <:+: c.toList)
    (hdash : c.toList.getLast? ≠ some '-') :
    (∀ rest segments, scan rest = .ok segments →
      scan ("<%#" ++ c ++ "%>" ++ rest) =
        .ok (segments.map (Segment.shift (countChar '\n' c.toList)))) ↔
      isTagCode none c.toList = true := by
  constructor
  · intro hinert
    by_contra hclosed
    have hopen : isTagCode none c.toList = false := Bool.not_eq_true _ ▸ hclosed
    have hempty : scan "" = .ok [] := scanFrom_none rfl
    have hscan := hinert "" [] hempty
    rw [scan, toList_comment, String.toList_empty, scanFrom_comment_open hmark hopen] at hscan
    cases hscan
  · intro hclosed rest segments hscan
    rw [scan] at hscan
    rw [scan, toList_comment, scanFrom_comment hclosed hdash, scanFrom_shift _ hscan]
    rfl

/-- An apostrophe inside another quote, and a line end. -/
theorem scan_comment_quoted :
    ¬['%', '>'] <:+: " says \"don't\"\n".toList ∧ " says \"don't\"\n".toList.getLast? ≠ some '-' ∧
      scan "<%= 1 %>" = .ok [.output "1" 0] ∧
      scan ("<%#" ++ " says \"don't\"\n" ++ "%>" ++ "<%= 1 %>") = .ok [.output "1" 1] := by
  have hmark : ¬['%', '>'] <:+: " says \"don't\"\n".toList := splitFirst?_eq_none_iff.mp rfl
  have hdash : " says \"don't\"\n".toList.getLast? ≠ some '-' := by decide
  have hprintable : Printable [.output "1" 0] := ⟨by decide, by simp⟩
  have hscan : scan "<%= 1 %>" = .ok [.output "1" 0] := scanFrom_printed hprintable 0 [] (.inl rfl)
  exact ⟨hmark, hdash, hscan, (scan_comment_iff _ hmark hdash).mpr (by decide +kernel) _ _ hscan⟩

/-- An apostrophe in a comment takes the closing mark in. -/
theorem not_scan_comment :
    ¬['%', '>'] <:+: " don't ".toList ∧ " don't ".toList.getLast? ≠ some '-' ∧ scan "" = .ok [] ∧
      scan ("<%#" ++ " don't " ++ "%>" ++ "") = .error (.unterminatedTag 1) := by
  have hmark : ¬['%', '>'] <:+: " don't ".toList := splitFirst?_eq_none_iff.mp rfl
  refine ⟨hmark, by decide, scanFrom_none rfl, ?_⟩
  rw [scan, toList_comment]
  exact scanFrom_comment_open hmark (by decide +kernel)

end DocWeave.Template
