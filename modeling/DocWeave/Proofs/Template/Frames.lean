import DocWeave.Proofs.Locator.Views
import DocWeave.Proofs.Site.Comment
import DocWeave.Proofs.Template.Placeholder
import DocWeave.Proofs.Template.Tags

/-!
# Frames name the line of the failing tag

The line in the frame of a failure is a sum: the first line of the comment, the line ends before the doc
block in the comment, and the line ends before the tag in the template. All three are line ends of the
comment's text before the tag's opening mark, and so the sum is the number of the line in the file on
which this mark stands.
-/

namespace DocWeave

open DocWeave.Text

namespace Template

open Locator

/-- A template that fails has a tag that is not closed, or it fails at one of its tags, with the number of
line ends before the tag in the frame. -/
theorem render_fails {σ : Type} {origin : Origin} {env : Env (ExceptT Error (StateM σ))}
    {template : String} {s s' : σ} {e : Error}
    (h : (render origin env template).run.run s = (.error e, s')) :
    (∃ fault, scan (fillPlaceholder template origin.reference) = .error fault ∧
      e = (Error.ofEval fault).withFrame (origin.frame 0)) ∨
    ∃ front t back locals s₁ cause,
      tagsOf (fillPlaceholder template origin.reference) = front ++ t :: back ∧
      (front.foldlM (runTag env) []).run.run s = (.ok locals, s₁) ∧
      (runTag env locals t).run.run s₁ = (.error cause, s') ∧
      e = cause.withFrame (origin.frame (countChar '\n' t.before)) := by
  rw [render] at h
  cases hscan : scan (fillPlaceholder template origin.reference) with
  | error fault =>
    left
    rw [hscan] at h
    cases h
    exact ⟨fault, rfl, rfl⟩
  | ok segments =>
    right
    rw [hscan] at h
    exact expand_fails hscan h

/-- The line of a tag of a doc block: the block's line and the line ends before the tag. -/
theorem block_markOnLine {file : String} {found : List (List Char)} {line : Nat} {shape : Shape}
    {site : Site} (hsite : Site.ofLines? file found line shape = some site)
    (hfound : ∀ l ∈ found, '\n' ∉ l) (tokens : BlockTokens) {before after : List Char}
    (hmark : (site.docBlock tokens).text.toList = before ++ '<' :: '%' :: after) :
    site.MarkOnLine found (DocBlock.lead tokens site.comment ++ before)
      ((site.docBlock tokens).line + countChar '\n' before) := by
  obtain ⟨⟨behind, hcomment⟩, hline⟩ := DocBlock.extract_mark hmark
  have hplace := Site.markOnLine hsite hfound hcomment
  rw [countChar_append, ← Nat.add_assoc, ← hline] at hplace
  exact hplace

/-- The frame of a failing tag names the line of the file on which the tag's opening mark stands. Where
the doc block of a definition fails to render, some of its tags have been evaluated one after the other,
and the next one, `t`, fails; its opening mark stands in the block behind the text that becomes `t.before`
when the placeholder is filled in, and in the file it stands on the line that the frame names. Only a tag
that is never closed is reported otherwise, before any tag is evaluated. -/
theorem render_frame {σ : Type} (root file : String) (session : Session) (content : String)
    (line : Nat) (shape : Shape) (site : Site) (tokens : BlockTokens) (origin : Origin)
    (env : Env (ExceptT Error (StateM σ))) (s s' : σ) (e : Error)
    (hcontent : linesIn root session file = .ok (lines content.toList))
    (hsite : ((siteAt root file line shape).run.run session).1 = .ok site)
    (hline : origin.line = (site.docBlock tokens).line)
    (hnewline : '\n' ∉ origin.reference.toList)
    (hmark : ¬['<', '%'] <:+: origin.reference.toList)
    (hfails : (render origin env (site.docBlock tokens).text).run.run s = (.error e, s')) :
    (∃ fault, scan (fillPlaceholder (site.docBlock tokens).text origin.reference) = .error fault ∧
      e = (Error.ofEval fault).withFrame (origin.frame 0)) ∨
    ∃ front t back locals s₁ cause before behind number,
      tagsOf (fillPlaceholder (site.docBlock tokens).text origin.reference) = front ++ t :: back ∧
      (front.foldlM (runTag env) []).run.run s = (.ok locals, s₁) ∧
      (runTag env locals t).run.run s₁ = (.error cause, s') ∧
      (site.docBlock tokens).text.toList = before ++ '<' :: '%' :: behind ∧
      fill origin.reference before = t.before ∧
      site.MarkOnLine (lines content.toList) (DocBlock.lead tokens site.comment ++ before) number ∧
      e = cause.withFrame s!"{origin.file}:{number}:in `{origin.member}'" := by
  have hofLines : Site.ofLines? file (lines content.toList) line shape = some site := by
    rw [siteAt_result hcontent] at hsite
    split at hsite
    · next hfound => rw [hfound, Except.ok.inj hsite]
    · cases hsite
  rcases render_fails hfails with hopen | ⟨front, t, back, locals, s₁, cause, htags, hfront, ht, he⟩
  · exact Or.inl hopen
  · right
    have hmem : t ∈ tagsOf (fillPlaceholder (site.docBlock tokens).text origin.reference) := by
      rw [htags]
      exact List.mem_append_right _ List.mem_cons_self
    -- from the filled template back to the doc block: filling in adds no line end and no mark
    obtain ⟨after, hafter⟩ := mark_of_mem_tagsFrom hmem
    rw [List.nil_append, fillPlaceholder_eq, String.toList_ofList] at hafter
    obtain ⟨before, behind, hbefore, hfill⟩ := fill_mark hmark hafter
    have hcount : countChar '\n' t.before = countChar '\n' before := by
      rw [← hfill, countChar_fill hnewline]
    refine ⟨front, t, back, locals, s₁, cause, before, behind,
      (site.docBlock tokens).line + countChar '\n' before, htags, hfront, ht, hbefore, hfill, ?_, ?_⟩
    · exact block_markOnLine hofLines (fun l hl => newline_not_mem_lines hl) tokens hbefore
    · rw [he, hcount, Origin.frame, hline]

/-! ## A comment with tags of every kind -/

/-- A comment tag over two lines that takes the line end behind it, below a literal mark and the
placeholder and above a tag that is no expression. -/
def sampleText : String :=
  "#=mark_doc\n#  __method__ <%% \n  # <%# two\n# lines -%>\n# <%= ~ %>\n#=mark_end\ndef a\nend\n"

def sampleSession : Session :=
  { files := {}, cache := { lines := [("a.rb", lines sampleText.toList)] } }

def sampleSite : Site where
  file := "a.rb"
  line := 7
  comment := "=mark_doc\n __method__ <%% \n<%# two\nlines -%>\n<%= ~ %>\n=mark_end\n"
  commentLine := 1
  body := "def a\nend"

def sampleOrigin : Origin where
  file := "a.rb"
  line := 2
  member := "a"
  reference := "A#a"

/-- An environment in which nothing has a meaning. -/
def sampleEnv : Env (ExceptT Error (StateM Unit)) where
  call name _ := throw (.ofEval (.undefinedName name "A"))
  constant path := throw (.ofEval (.uninitializedConstant path))
  callOnConstant path _ _ := throw (.ofEval (.uninitializedConstant path))
  settle outcome := ExceptT.mk (pure (outcome.mapError Error.ofEval))

theorem render_frame_sample :
    ∃ e before number, (render sampleOrigin sampleEnv (sampleSite.docBlock {}).text).run.run () =
        (.error e, ()) ∧ e.trace = ["a.rb:5:in `a'"] ∧
      sampleSite.MarkOnLine (lines sampleText.toList) before number ∧
      e.trace = [s!"{sampleOrigin.file}:{number}:in `{sampleOrigin.member}'"] := by
  have hlines : Site.ofLines? "a.rb" (lines sampleText.toList) 7 .block = some sampleSite := by
    decide +kernel
  have hcontent : linesIn "." sampleSession "a.rb" = .ok (lines sampleText.toList) := rfl
  have hsite : ((siteAt "." "a.rb" 7 .block).run.run sampleSession).1 = .ok sampleSite := by
    rw [siteAt_result hcontent, hlines]
  have htrace : (match ((render sampleOrigin sampleEnv (sampleSite.docBlock {}).text).run.run ()).1 with
      | .error e => some e.trace
      | .ok _ => none) = some ["a.rb:5:in `a'"] := by
    decide +kernel
  have hscan : (scan (fillPlaceholder (sampleSite.docBlock {}).text sampleOrigin.reference)).isOk = true := by
    decide +kernel
  rcases hrun : (render sampleOrigin sampleEnv (sampleSite.docBlock {}).text).run.run () with ⟨o, u⟩
  rw [hrun] at htrace
  cases o with
  | ok text => cases htrace
  | error e =>
    have hlast : e.trace = ["a.rb:5:in `a'"] := Option.some.inj htrace
    rcases render_frame "." "a.rb" sampleSession sampleText 7 .block sampleSite {} sampleOrigin sampleEnv
        () u e hcontent hsite (by decide +kernel) (by decide +kernel) (by decide +kernel) hrun with
      ⟨fault, hfault, -⟩ | ⟨_, _, _, _, _, cause, before, _, number, _, _, _, _, _, hmark, he⟩
    · rw [hfault] at hscan
      cases hscan
    · refine ⟨e, _, number, rfl, hlast, hmark, ?_⟩
      rw [he, Error.trace_withFrame] at hlast ⊢
      rw [(List.cons.inj hlast).2]

end Template

end DocWeave
