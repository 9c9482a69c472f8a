import DocWeave.Proofs.Locator.Outcomes
import DocWeave.Proofs.Site.Comment

/-!
# Doc blocks that are written as comments

Lines of text are put into a file as a comment: each behind a comment mark and a blank, with the tokens on
lines of their own above and below. At a definition directly below, the block is read back line for line,
whatever the lines begin with or have in them, and its line is that of the first of them
(`docBlock_written`). The comment is bounded above by a line that is no comment; the block begins at the
first start token of the comment, which is that of its first line, and ends at the last end token, which is
that of its last line.
-/

namespace DocWeave

open DocWeave.Text

namespace DocBlock

/-- A line of text as a comment line. -/
def commented (indent text : List Char) : List Char := indent ++ '#' :: ' ' :: text

/-- Lines of text as the comment lines of a block. -/
def written (tokens : BlockTokens) (indent : List Char) (texts : List (List Char)) : List (List Char) :=
  (tokens.start.toList :: texts ++ [tokens.stop.toList]).map (commented indent)

section

variable {indent : List Char} (hindent : ∀ c ∈ indent, c = ' ' ∨ c = '\t')
include hindent

theorem trimStart_commented (text : List Char) : trimStart (commented indent text) = '#' :: ' ' :: text := by
  have hblank : ∀ c ∈ indent, isBlank c = true := by
    intro c hc
    rcases hindent c hc with rfl | rfl <;> decide
  rw [trimStart, commented, List.dropWhile_append_of_pos hblank]
  rfl

theorem isCommentLine_commented (text : List Char) : Site.isCommentLine (commented indent text) = true := by
  rw [Site.isCommentLine, trimStart_commented hindent]
  rfl

/-- A comment line shows the text that it was made of. -/
theorem commentText_commented {text : List Char} (h : '\n' ∉ text) :
    Site.commentText (commented indent text) = text ++ ['\n'] := by
  have hline : '\n' ∉ commented indent text := by
    intro hin
    rcases List.mem_append.mp hin with hin | hin
    · exact absurd (hindent '\n' hin) (by decide)
    · exact h (by simpa using hin)
  rw [Site.commentText_eq hline, trimStart_commented hindent]
  rfl

theorem flatMap_commentText_commented {texts : List (List Char)} (h : ∀ t ∈ texts, '\n' ∉ t) :
    (texts.map (commented indent)).flatMap Site.commentText = texts.flatMap (· ++ ['\n']) := by
  induction texts with
  | nil => rfl
  | cons t texts ih =>
    obtain ⟨ht, htexts⟩ := List.forall_mem_cons.mp h
    rw [List.map_cons, List.flatMap_cons, List.flatMap_cons, commentText_commented hindent ht, ih htexts]

end

/-- A comment that begins with the start token and ends with the end token: the block is all that stands
between them, even where it has tokens in it. -/
theorem extract_bounded {tokens : BlockTokens} {behind : List Char}
    (hstop : splitLast? tokens.stop.toList (tokens.stop.toList ++ behind) = some ([], behind))
    (text : List Char) (firstLine : Nat) :
    extract tokens (String.ofList
        (tokens.start.toList ++ ['\n'] ++ (text ++ (tokens.stop.toList ++ behind)))) firstLine =
      ⟨String.ofList text, firstLine + countChar '\n' (tokens.start.toList ++ ['\n'])⟩ := by
  have hlast := splitLast?_append_left text hstop
  rw [List.append_nil] at hlast
  simp only [extract, String.toList_ofList, splitFirst?_append_self, hlast, List.nil_append]

end DocBlock

namespace Site

/-- Comment lines below a line that is none are the comment. -/
theorem commentAbove_append {above comment : List (List Char)}
    (habove : ∀ l ∈ above.getLast?, isCommentLine l = false)
    (hcomment : ∀ l ∈ comment, isCommentLine l = true) : commentAbove (above ++ comment) = comment := by
  have hstop : above.reverse.takeWhile isCommentLine = [] := by
    cases hrev : above.reverse with
    | nil => rfl
    | cons l rest =>
      have hlast : l ∈ above.getLast? := by
        rw [← List.head?_reverse, hrev]
        rfl
      rw [List.takeWhile_cons_of_neg (by simp [habove l hlast])]
  have hall : ∀ l ∈ comment.reverse, isCommentLine l = true :=
    fun l hl => hcomment l (List.mem_reverse.mp hl)
  rw [commentAbove, List.reverse_append, List.takeWhile_append_of_pos hall, hstop, List.append_nil,
    List.reverse_reverse]

/-- The site of a definition below comment lines that a line above them bounds. -/
theorem ofLines?_below_comment {above comment : List (List Char)} (file : String)
    (definition : List Char) (below : List (List Char)) (shape : Shape)
    (habove : ∀ l ∈ above.getLast?, isCommentLine l = false)
    (hcomment : ∀ l ∈ comment, isCommentLine l = true) :
    ∃ site, ofLines? file (above ++ comment ++ definition :: below) ((above ++ comment).length + 1) shape =
        some site ∧
      site.comment = String.ofList (comment.flatMap commentText) ∧ site.commentLine = above.length + 1 := by
  have hlt : (above ++ comment).length < (above ++ comment ++ definition :: below).length := by
    simp only [List.length_append, List.length_cons]
    omega
  rw [ofLines?, if_pos hlt, List.take_left, commentAbove_append habove hcomment]
  refine ⟨_, rfl, rfl, ?_⟩
  show (above ++ comment).length - comment.length + 1 = above.length + 1
  rw [List.length_append, Nat.add_sub_cancel]

end Site

namespace Locator

open DocBlock

/-- A doc block that is written as a comment above a definition is read back: the text is the lines that
were written, each with its line end, and the line is that of the first of them. What the lines hold is of
no account, and what is above must only not end in a comment line. -/
theorem docBlock_written (root file content : String) (session : Session) (shape : Shape)
    (above below : List (List Char)) (indent definition : List Char) (texts : List (List Char))
    (hcontent : linesIn root session file = .ok (lines content.toList))
    (hlines : lines content.toList = above ++ written {} indent texts ++ definition :: below)
    (hindent : ∀ c ∈ indent, c = ' ' ∨ c = '\t')
    (habove : ∀ l ∈ above.getLast?, Site.isCommentLine l = false) :
    ∃ site, outcome session (siteAt root file ((above ++ written {} indent texts).length + 1) shape) =
        .ok site ∧
      site.docBlock {} = ⟨String.ofList (texts.flatMap (· ++ ['\n'])), above.length + 2⟩ := by
  -- a line of a file has no line end in it, so neither have the texts
  have hnewline : ∀ t ∈ "=mark_doc".toList :: texts ++ ["=mark_end".toList], '\n' ∉ t := by
    intro t ht hin
    have hmem : commented indent t ∈ lines content.toList := by
      rw [hlines]
      exact List.mem_append_left _ (List.mem_append_right _ (List.mem_map_of_mem ht))
    exact newline_not_mem_lines hmem (List.mem_append_right _ (by simp [hin]))
  have hcomment : ∀ l ∈ written {} indent texts, Site.isCommentLine l = true := by
    intro l hl
    obtain ⟨t, _, rfl⟩ := List.mem_map.mp hl
    exact isCommentLine_commented hindent t
  obtain ⟨site, hsite, htext, hfirst⟩ :=
    Site.ofLines?_below_comment file definition below shape habove hcomment
  rw [← hlines] at hsite
  refine ⟨site, outcome_siteAt.mpr ⟨_, hcontent, hsite⟩, ?_⟩
  have hshown : (written {} indent texts).flatMap Site.commentText =
      "=mark_doc".toList ++ ['\n'] ++ (texts.flatMap (· ++ ['\n']) ++ ("=mark_end".toList ++ ['\n'])) := by
    refine (flatMap_commentText_commented hindent hnewline).trans ?_
    simp only [List.flatMap_append, List.flatMap_cons, List.flatMap_nil, List.append_nil,
      List.append_assoc, List.cons_append]
  -- tokens in the texts change nothing: the last end token is the one on the last line
  have hstop : splitLast? "=mark_end".toList ("=mark_end".toList ++ ['\n']) = some ([], ['\n']) := by
    decide
  rw [Site.docBlock, htext, hshown, hfirst]
  exact extract_bounded hstop _ _

/-! ## A block with tokens in its text -/

/-- Behind a line with a carriage return, a block whose lines begin with a comment mark, blanks and nothing
and name both tokens. -/
def tabbedText : String :=
  "x = 1\r\n\t# =mark_doc\n\t# # =mark_end\n\t#   \ta\n\t# \n\t# =mark_doc\n\t# =mark_end\n\tdef a\n"

def tabbedFiles : FileTree := { files := [(["a.rb"], tabbedText)] }

theorem docBlock_written_tabbed :
    lines tabbedText.toList = ["x = 1".toList] ++ written {} ['\t'] (["# =mark_end", "  \ta", "",
        "=mark_doc"].map String.toList) ++ "\tdef a".toList :: [] ∧
    ∃ site, outcome { files := tabbedFiles } (siteAt "." "a.rb" 8 .block) = .ok site ∧
      site.docBlock {} = ⟨"# =mark_end\n  \ta\n\n=mark_doc\n", 3⟩ := by
  have hlines : lines tabbedText.toList = ["x = 1".toList] ++ written {} ['\t'] (["# =mark_end", "  \ta",
      "", "=mark_doc"].map String.toList) ++ "\tdef a".toList :: [] := by decide +kernel
  have hread : tabbedFiles.read (Path.join "." "a.rb") = .ok tabbedText :=
    Stateful.eq_ok_of_toOption (by decide +kernel)
  have hcontent : linesIn "." { files := tabbedFiles } "a.rb" = .ok (lines tabbedText.toList) := by
    simp only [linesIn, OrderedMap.get?, hread]
  refine ⟨hlines, ?_⟩
  exact docBlock_written "." "a.rb" tabbedText { files := tabbedFiles } .block _ _ ['\t'] _ _ hcontent
    hlines (by simp) (by decide)

end Locator

end DocWeave
