import DocWeave.Proofs.Stateful
import DocWeave.Proofs.Text.Splitting
import DocWeave.Template.Render

/-!
# The tags of a template and where they stand

The scanner counts line ends while it cuts a template into segments. Here the tags of a template are
listed with all the text that stands before each of them (`tagsOf`), and a template that fails is shown
to fail at one of its tags, those before it having been evaluated one after the other; the number in the
frame of the failure counts the line ends in the text before the tag (`expand_fails`).
-/

namespace DocWeave.Template

open DocWeave.Text

/-! ## What a tag takes off the template -/

/-- The code of a tag ends at its closing mark. -/
theorem eq_of_cutTag {quote : Option Char} {s code rest : List Char}
    (h : cutTag quote s = some (code, rest)) : s = code ++ '%' :: '>' :: rest := by
  fun_induction cutTag quote s generalizing code with
  | case1 => cases h
  | case2 => cases h
  | case3 d s q ih =>
    obtain ⟨⟨code', rest'⟩, hcut, heq⟩ := Option.map_eq_some_iff.mp h
    cases heq
    rw [ih hcut]
    rfl
  | case4 c d s q _ ih =>
    obtain ⟨⟨code', rest'⟩, hcut, heq⟩ := Option.map_eq_some_iff.mp h
    cases heq
    rw [ih hcut]
    rfl
  | case5 c d s hc =>
    obtain ⟨rfl, rfl⟩ := hc
    cases h
    rfl
  | case6 c d s _ ih =>
    obtain ⟨⟨code', rest'⟩, hcut, heq⟩ := Option.map_eq_some_iff.mp h
    cases heq
    rw [ih hcut]
    rfl

/-- A tag counts the line ends of all that it takes off the template. -/
theorem cutWholeTag?_spec {after : List Char} {tag : Tag} (h : cutWholeTag? after = some tag) :
    ∃ taken, after = taken ++ tag.rest ∧ countChar '\n' taken = tag.lineEnds := by
  obtain ⟨⟨raw, behind⟩, hcut, rfl⟩ := Option.map_eq_some_iff.mp h
  have hopen : ∃ dash, after = dash ++ (cutOpeningDash after).1 ∧ countChar '\n' dash = 0 := by
    fun_cases cutOpeningDash after with
    | case1 s => exact ⟨['-'], rfl, by decide⟩
    | case2 => exact ⟨[], rfl, rfl⟩
  have hclose : ∃ line, behind = line ++ (cutLineEnd (cutDash raw).2 behind).1 ∧
      countChar '\n' line = if (cutLineEnd (cutDash raw).2 behind).2 then 1 else 0 := by
    fun_cases cutLineEnd (cutDash raw).2 behind with
    | case1 s => exact ⟨['\n'], rfl, rfl⟩
    | case2 => exact ⟨[], rfl, rfl⟩
  obtain ⟨dash, hdash, hdash0⟩ := hopen
  obtain ⟨line, hline, hline1⟩ := hclose
  refine ⟨dash ++ (raw ++ ['%', '>'] ++ line), ?_, ?_⟩
  · show after = dash ++ (raw ++ ['%', '>'] ++ line) ++ (cutLineEnd (cutDash raw).2 behind).1
    have hrest : raw ++ ['%', '>'] ++ line ++ (cutLineEnd (cutDash raw).2 behind).1 =
        (cutOpeningDash after).1 := by
      rw [eq_of_cutTag hcut, List.append_assoc, ← hline, List.append_assoc]
      rfl
    rw [List.append_assoc dash, hrest, ← hdash]
  · simp only [countChar_append, hdash0, hline1]
    show 0 + (countChar '\n' raw + countChar '\n' ['%', '>'] + _) = _
    rw [show countChar '\n' ['%', '>'] = 0 from by decide]
    omega

/-- What a tag takes off the text behind its opening mark. -/
def taken (after : List Char) (tag : Tag) : List Char := after.take (after.length - tag.rest.length)

theorem taken_append_rest {after : List Char} {tag : Tag} (h : cutWholeTag? after = some tag) :
    taken after tag ++ tag.rest = after := by
  obtain ⟨s, hs, -⟩ := cutWholeTag?_spec h
  have htaken : taken after tag = s := by
    rw [taken, hs, List.length_append, Nat.add_sub_cancel, List.take_left]
  rw [htaken, ← hs]

theorem countChar_taken {after : List Char} {tag : Tag} (h : cutWholeTag? after = some tag) :
    countChar '\n' (taken after tag) = tag.lineEnds := by
  obtain ⟨s, hs, hcount⟩ := cutWholeTag?_spec h
  rw [taken_append_rest h |>.symm] at hs
  rw [← hcount, List.append_cancel_right hs]

/-! ## Tags with their places -/

/-- A tag of a template: what stands before its opening mark, and the text between its marks. -/
structure PlacedTag where
  before : List Char
  code : List Char
deriving DecidableEq, Repr

/-- The tags of a template from some place on; `passed` is what stands before the place. -/
def tagsFrom (passed rest : List Char) : List PlacedTag :=
  match _h₀ : splitFirst? ['<', '%'] rest with
  | none => []
  | some (before, '%' :: s) => tagsFrom (passed ++ before ++ ['<', '%', '%']) s
  | some (before, after) =>
    match _h₁ : cutWholeTag? after with
    | none => []
    | some tag =>
      ⟨passed ++ before, tag.code⟩ ::
        tagsFrom (passed ++ before ++ ['<', '%'] ++ taken after tag) tag.rest
termination_by rest.length
decreasing_by
  · have := congrArg List.length (eq_of_splitFirst? _h₀)
    simp only [List.length_append, List.length_cons] at this; omega
  · have h0 := congrArg List.length (eq_of_splitFirst? _h₀)
    have h1 := cutWholeTag?_length _h₁
    simp only [List.length_append, List.length_cons] at h0
    omega

/-- The tags of a template. -/
def tagsOf (template : String) : List PlacedTag := tagsFrom [] template.toList

/-- Every tag stands behind an opening mark of the template. -/
theorem mark_of_mem_tagsFrom {passed rest : List Char} {t : PlacedTag} (h : t ∈ tagsFrom passed rest) :
    ∃ after, passed ++ rest = t.before ++ '<' :: '%' :: after := by
  fun_induction tagsFrom passed rest with
  | case1 => cases h
  | case2 passed rest before s h₀ ih =>
    obtain ⟨after, hafter⟩ := ih h
    refine ⟨after, ?_⟩
    rw [← hafter, eq_of_splitFirst? h₀]
    simp
  | case3 => cases h
  | case4 passed rest before after _ h₀ tag h₁ ih =>
    have hrest := eq_of_splitFirst? h₀
    rcases List.mem_cons.mp h with rfl | h
    · exact ⟨after, by rw [hrest]; simp⟩
    · obtain ⟨behind, hbehind⟩ := ih h
      refine ⟨behind, ?_⟩
      rw [← hbehind, hrest, List.append_assoc _ (taken after tag), taken_append_rest h₁]
      simp

/-! ## What the scanner does -/

section

variable {line : Nat} {text rest before after : List Char}

theorem scanFrom_none (h₀ : splitFirst? ['<', '%'] rest = none) :
    scanFrom line text rest = .ok (textSegment (text ++ rest)) := by
  rw [scanFrom]
  split
  · rfl
  · next hc => rw [h₀] at hc; cases hc
  · next hc => rw [h₀] at hc; cases hc

theorem scanFrom_literal {behind : List Char}
    (h₀ : splitFirst? ['<', '%'] rest = some (before, '%' :: behind)) :
    scanFrom line text rest =
      scanFrom (line + countChar '\n' before) (text ++ before ++ ['<', '%']) behind := by
  rw [scanFrom]
  split
  · next hc => rw [h₀] at hc; cases hc
  · next hc => rw [h₀] at hc; cases hc; rfl
  · next hne hc => rw [h₀] at hc; cases hc; exact absurd rfl (hne _)

theorem scanFrom_open (h₀ : splitFirst? ['<', '%'] rest = some (before, after))
    (hne : ∀ s, after ≠ '%' :: s) (h₁ : cutWholeTag? after = none) :
    scanFrom line text rest = .error (.unterminatedTag (line + countChar '\n' before + 1)) := by
  rw [scanFrom]
  split
  · next hc => rw [h₀] at hc; cases hc
  · next hc => rw [h₀] at hc; cases hc; exact absurd rfl (hne _)
  · next hc =>
    rw [h₀] at hc
    cases hc
    split
    · rfl
    · next hc => rw [h₁] at hc; cases hc

theorem scanFrom_tag {tag : Tag} (h₀ : splitFirst? ['<', '%'] rest = some (before, after))
    (hne : ∀ s, after ≠ '%' :: s) (h₁ : cutWholeTag? after = some tag) :
    scanFrom line text rest =
      (scanFrom (line + countChar '\n' before + tag.lineEnds) [] tag.rest).map fun later =>
        textSegment (if tag.trimsLeft then dropIndent (text ++ before) else text ++ before) ++
          tagSegment tag.code (line + countChar '\n' before) ++ later := by
  rw [scanFrom]
  split
  · next hc => rw [h₀] at hc; cases hc
  · next hc => rw [h₀] at hc; cases hc; exact absurd rfl (hne _)
  · next hc =>
    rw [h₀] at hc
    cases hc
    split
    · next hc => rw [h₁] at hc; cases hc
    · next hc => rw [h₁] at hc; cases hc; rfl

end

/-! ## Evaluating the tags -/

section

variable {m : Type → Type} [Monad m]

/-- The local variables behind a tag: its expression is evaluated or its statements are run. -/
def runTag (env : Env (ExceptT Error m)) (locals : Bindings) (t : PlacedTag) :
    ExceptT Error m Bindings :=
  match t.code with
  | '=' :: code => do
    let _ ← output env locals (String.ofList (trim code))
    return locals
  | '#' :: _ => return locals
  | code => execute env locals (String.ofList (trim code))

theorem runTag_output {env : Env (ExceptT Error m)} {t : PlacedTag} {code : List Char}
    (h : t.code = '=' :: code) (locals : Bindings) :
    runTag env locals t = (do
      let _ ← output env locals (String.ofList (trim code))
      return locals) := by
  simp only [runTag, h]

theorem runTag_comment {env : Env (ExceptT Error m)} {t : PlacedTag} {code : List Char}
    (h : t.code = '#' :: code) (locals : Bindings) : runTag env locals t = pure locals := by
  simp only [runTag, h]

theorem runTag_code {env : Env (ExceptT Error m)} {t : PlacedTag}
    (houtput : ∀ code, t.code ≠ '=' :: code) (hcomment : ∀ code, t.code ≠ '#' :: code)
    (locals : Bindings) :
    runTag env locals t = execute env locals (String.ofList (trim t.code)) := by
  unfold runTag
  split
  · next hcode => exact absurd hcode (houtput _)
  · next hcode => exact absurd hcode (hcomment _)
  · rfl

end

section

variable {σ : Type} {origin : Origin} {env : Env (ExceptT Error (StateM σ))} {locals : Bindings}
  {s s' : σ} {e : Error}

/-- Text in front of what fails changes nothing. -/
theorem append_fails {text : String} {step : ExceptT Error (StateM σ) String}
    (h : (do return text ++ (← step) : ExceptT Error (StateM σ) String).run.run s = (.error e, s')) :
    step.run.run s = (.error e, s') := by
  rw [Stateful.run_bind] at h
  rcases hstep : step.run.run s with ⟨o, s₁⟩
  rw [hstep] at h
  cases o with
  | ok text => cases h
  | error e' => exact h

theorem expand_text_fails {text : List Char} {rest : List Segment}
    (h : (expand origin env locals (textSegment text ++ rest)).run.run s = (.error e, s')) :
    (expand origin env locals rest).run.run s = (.error e, s') := by
  unfold textSegment at h
  split at h
  · exact h
  · rw [List.cons_append, List.nil_append, expand] at h
    exact append_fails h

/-- A failure at a tag or behind it: the tag fails, and its frame is put on the failure, or it is passed
with new local variables. -/
theorem expand_tag_fails {t : PlacedTag} {line : Nat} {rest : List Segment}
    (h : (expand origin env locals (tagSegment t.code line ++ rest)).run.run s = (.error e, s')) :
    (∃ cause, (runTag env locals t).run.run s = (.error cause, s') ∧
      e = cause.withFrame (origin.frame line)) ∨
    (∃ locals₁ s₁, (runTag env locals t).run.run s = (.ok locals₁, s₁) ∧
      (expand origin env locals₁ rest).run.run s₁ = (.error e, s')) := by
  unfold tagSegment at h
  split at h
  · next code hcode =>
    rw [List.cons_append, List.nil_append, expand, Stateful.run_bind, framed,
      Stateful.run_adapt] at h
    rw [runTag_output hcode, Stateful.run_bind]
    rcases hout : (output env locals (String.ofList (trim code))).run.run s with ⟨o, s₁⟩
    rw [hout] at h
    cases o with
    | error cause =>
      left
      cases h
      exact ⟨cause, rfl, rfl⟩
    | ok v =>
      right
      exact ⟨locals, s₁, rfl, append_fails h⟩
  · next hcode =>
    right
    exact ⟨locals, s, by rw [runTag_comment hcode, Stateful.run_pure], h⟩
  · next houtput hcomment =>
    rw [List.cons_append, List.nil_append, expand, Stateful.run_bind, framed,
      Stateful.run_adapt] at h
    rw [runTag_code houtput hcomment]
    rcases hout : (execute env locals (String.ofList (trim t.code))).run.run s with ⟨o, s₁⟩
    rw [hout] at h
    cases o with
    | error cause =>
      left
      cases h
      exact ⟨cause, rfl, rfl⟩
    | ok locals₁ =>
      right
      exact ⟨locals₁, s₁, rfl, h⟩

/-- A template that fails has passed some of its tags and fails at the next. The frame of the failure has
the number of line ends before this tag. -/
theorem expand_fails {passed text rest : List Char} {segments : List Segment}
    (hscan : scanFrom (countChar '\n' passed) text rest = .ok segments)
    (h : (expand origin env locals segments).run.run s = (.error e, s')) :
    ∃ front t back locals₁ s₁ cause, tagsFrom passed rest = front ++ t :: back ∧
      (front.foldlM (runTag env) locals).run.run s = (.ok locals₁, s₁) ∧
      (runTag env locals₁ t).run.run s₁ = (.error cause, s') ∧
      e = cause.withFrame (origin.frame (countChar '\n' t.before)) := by
  fun_induction tagsFrom passed rest generalizing text segments locals s with
  | case1 passed rest h₀ =>
    -- there is only text
    rw [scanFrom_none h₀] at hscan
    cases hscan
    rw [← List.append_nil (textSegment _)] at h
    exact absurd (expand_text_fails h) nofun
  | case2 passed rest before behind h₀ ih =>
    have hpassed : countChar '\n' (passed ++ before ++ ['<', '%', '%']) =
        countChar '\n' passed + countChar '\n' before := by
      rw [countChar_append, countChar_append]
      rfl
    rw [scanFrom_literal h₀, ← hpassed] at hscan
    exact ih hscan h
  | case3 passed rest before after hne h₀ h₁ =>
    rw [scanFrom_open h₀ hne h₁] at hscan
    cases hscan
  | case4 passed rest before after hne h₀ tag h₁ ih =>
    have hhere : countChar '\n' passed + countChar '\n' before = countChar '\n' (passed ++ before) :=
      (countChar_append _ _ _).symm
    have hpassed : countChar '\n' (passed ++ before) + tag.lineEnds =
        countChar '\n' (passed ++ before ++ ['<', '%'] ++ taken after tag) := by
      rw [countChar_append _ _ (taken after tag), countChar_append _ (passed ++ before) ['<', '%'],
        countChar_taken h₁]
      rfl
    rw [scanFrom_tag h₀ hne h₁, hhere, hpassed] at hscan
    rcases hlater : scanFrom (countChar '\n' (passed ++ before ++ ['<', '%'] ++ taken after tag)) []
        tag.rest with fault | later
    · rw [hlater] at hscan
      cases hscan
    · rw [hlater] at hscan
      cases hscan
      simp only [List.append_assoc (textSegment _)] at h
      rcases expand_tag_fails (t := ⟨passed ++ before, tag.code⟩) (expand_text_fails h) with
        ⟨cause, hfails, he⟩ | ⟨locals₁, s₁, hpasses, hrest⟩
      · exact ⟨[], _, _, locals, s, cause, rfl, rfl, hfails, he⟩
      · obtain ⟨front, t, back, locals₂, s₂, cause, htags, hfront, hfails, he⟩ := ih hlater hrest
        refine ⟨⟨passed ++ before, tag.code⟩ :: front, t, back, locals₂, s₂, cause, ?_, ?_, hfails, he⟩
        · rw [htags]
          rfl
        · rw [List.foldlM_cons, Stateful.run_bind, hpasses]
          exact hfront

end

end DocWeave.Template
