import DocWeave.Proofs.Locator.Searches
import DocWeave.Proofs.Stateful

/-!
# What a search sees

A search reads sources through the cache of its session. What it can learn of a file is the file's
*view*: the lines read before, or else those the file holds now, and likewise the outline. Reading fills
the cache and leaves every view as it was. So a search is *settled*: its result depends on the views
alone, and it changes none of them. Searches are put together from settled steps, hence all of them are
settled, and a search can be repeated at any time with the same result (`locate_settled`).
-/

namespace DocWeave

open DocWeave.Text

namespace Locator

/-! ## Views -/

/-- The lines of a source as a session gives them. -/
def linesIn (root : String) (σ : Session) (file : String) :
    Except LocateFault (List (List Char)) :=
  match σ.cache.lines.get? file with
  | some found => .ok found
  | none =>
    match σ.files.read (Path.join root file) with
    | .error fault => .error (.unreadable (Path.join root file) fault)
    | .ok text => .ok (lines text.toList)

/-- The outline of a source as a session gives it. -/
def outlineIn (root : String) (σ : Session) (file : String) :
    Except LocateFault (List Outline.Declaration) :=
  match σ.cache.outlines.get? file with
  | some outline => .ok outline
  | none => (linesIn root σ file).map fun found => Outline.ofSource (String.ofList (joinLines found))

/-- Two sessions give the same lines and outlines. -/
structure Alike (root : String) (σ τ : Session) : Prop where
  lines : ∀ file, linesIn root σ file = linesIn root τ file
  outlines : ∀ file, outlineIn root σ file = outlineIn root τ file

theorem Alike.refl (root : String) (σ : Session) : Alike root σ σ :=
  ⟨fun _ => rfl, fun _ => rfl⟩

theorem Alike.symm {root : String} {σ τ : Session} (h : Alike root σ τ) : Alike root τ σ :=
  ⟨fun file => (h.lines file).symm, fun file => (h.outlines file).symm⟩

theorem Alike.trans {root : String} {ρ σ τ : Session} (h₁ : Alike root ρ σ)
    (h₂ : Alike root σ τ) : Alike root ρ τ :=
  ⟨fun file => (h₁.lines file).trans (h₂.lines file),
    fun file => (h₁.outlines file).trans (h₂.outlines file)⟩

/-- A session that has read some lines of a file. -/
def withLines (σ : Session) (file : String) (found : List (List Char)) : Session :=
  { σ with cache := { σ.cache with lines := σ.cache.lines.insert file found } }

/-- A session that has made the outline of a file. -/
def withOutline (σ : Session) (file : String) (outline : List Outline.Declaration) : Session :=
  { σ with cache := { σ.cache with outlines := σ.cache.outlines.insert file outline } }

/-- Keeping the lines that a session gives anyway changes no view. -/
theorem alike_withLines {root : String} {σ : Session} {file : String} {found : List (List Char)}
    (h : linesIn root σ file = .ok found) : Alike root σ (withLines σ file found) := by
  have hlines : ∀ other, linesIn root σ other = linesIn root (withLines σ file found) other := by
    intro other
    by_cases ho : other = file
    · subst ho
      rw [h]
      simp only [linesIn, withLines, OrderedMap.get?_insert_self]
    · simp only [linesIn, withLines, OrderedMap.get?_insert_of_ne _ _ ho]
  refine ⟨hlines, fun other => ?_⟩
  unfold outlineIn
  rw [hlines other]
  rfl

/-- Keeping the outline that a session gives anyway changes no view. -/
theorem alike_withOutline {root : String} {σ : Session} {file : String}
    {outline : List Outline.Declaration} (h : outlineIn root σ file = .ok outline) :
    Alike root σ (withOutline σ file outline) := by
  refine ⟨fun _ => rfl, fun other => ?_⟩
  by_cases ho : other = file
  · subst ho
    rw [h]
    simp only [outlineIn, withOutline, OrderedMap.get?_insert_self]
  · simp only [outlineIn, withOutline, OrderedMap.get?_insert_of_ne _ _ ho]
    rfl

/-! ## Settled steps -/

/-- The result of a step depends on the views alone, and the step leaves the views as they are. -/
structure Settled (root : String) {ε α : Type} (step : SessionT ε α) : Prop where
  keeps : ∀ σ, Alike root σ (step.run.run σ).2
  agrees : ∀ σ τ, Alike root σ τ → (step.run.run σ).1 = (step.run.run τ).1

namespace Settled

variable {root : String} {ε ε' α β : Type}

theorem pure (a : α) : Settled root (pure a : SessionT ε α) :=
  ⟨fun σ => Alike.refl root σ, fun _ _ _ => rfl⟩

theorem throw (e : ε) : Settled root (throw e : SessionT ε α) :=
  ⟨fun σ => Alike.refl root σ, fun _ _ _ => rfl⟩

/-- In alike sessions a settled step gives the same, and leaves them alike. -/
theorem runs {step : SessionT ε α} (h : Settled root step) {σ τ : Session} (hστ : Alike root σ τ) :
    ∃ o σ' τ', step.run.run σ = (o, σ') ∧ step.run.run τ = (o, τ') ∧ Alike root σ' τ' :=
  ⟨(step.run.run σ).1, (step.run.run σ).2, (step.run.run τ).2, rfl,
    Prod.ext (h.agrees σ τ hστ).symm rfl, ((h.keeps σ).symm.trans hστ).trans (h.keeps τ)⟩

/-- Settled steps one after the other are settled. -/
theorem bind {step : SessionT ε α} {next : α → SessionT ε β} (h : Settled root step)
    (hnext : ∀ a, Settled root (next a)) : Settled root (step >>= next) := by
  constructor
  · intro σ
    rw [Stateful.run_bind]
    have hkeeps := h.keeps σ
    rcases hs : step.run.run σ with ⟨o, τ⟩
    rw [hs] at hkeeps
    cases o with
    | error e => exact hkeeps
    | ok a => exact hkeeps.trans ((hnext a).keeps τ)
  · intro σ τ hστ
    obtain ⟨o, σ', τ', hσ, hτ, halike⟩ := h.runs hστ
    rw [Stateful.run_bind, Stateful.run_bind, hσ, hτ]
    cases o with
    | error e => rfl
    | ok a => exact (hnext a).agrees σ' τ' halike

/-- A step whose failure is no failure any more. -/
theorem attempt {step : SessionT ε α} (h : Settled root step) : Settled root step.attempt :=
  ⟨h.keeps, fun σ τ hστ => congrArg (fun o => Except.ok (Except.toOption o)) (h.agrees σ τ hστ)⟩

theorem isStepProperty (root : String) : IsStepProperty (@Settled root) :=
  ⟨Settled.pure, Settled.throw, Settled.bind, Settled.attempt⟩

end Settled

/-! ## Searches -/

/-- Reading gives the lines of the view, and at most keeps them. -/
theorem linesOf_run (root file : String) (σ : Session) :
    (linesOf root file).run.run σ = (linesIn root σ file, σ) ∨
      ∃ found, linesIn root σ file = .ok found ∧
        (linesOf root file).run.run σ = (.ok found, withLines σ file found) := by
  rw [linesOf, Stateful.run_bind, Stateful.run_get]
  unfold linesIn
  cases hc : σ.cache.lines.get? file with
  | some found =>
    left
    simp only [hc]
    rfl
  | none =>
    simp only [hc]
    cases hr : σ.files.read (Path.join root file) with
    | error fault =>
      left
      rfl
    | ok text =>
      right
      exact ⟨lines text.toList, rfl, rfl⟩

/-- Reading a source gives its lines and changes no view. -/
theorem linesOf_spec (root file : String) (σ : Session) :
    ∃ τ, (linesOf root file).run.run σ = (linesIn root σ file, τ) ∧ Alike root σ τ := by
  rcases linesOf_run root file σ with h | ⟨found, hfound, h⟩
  · exact ⟨σ, h, Alike.refl root σ⟩
  · exact ⟨withLines σ file found, by rw [h, hfound], alike_withLines hfound⟩

/-- Outlining a source gives its outline and changes no view. -/
theorem outlineOf_spec (root file : String) (σ : Session) :
    ∃ τ, (outlineOf root file).run.run σ = (outlineIn root σ file, τ) ∧ Alike root σ τ := by
  rw [outlineOf, Stateful.run_bind, Stateful.run_get]
  cases hc : σ.cache.outlines.get? file with
  | some outline =>
    simp only [hc, outlineIn]
    exact ⟨σ, rfl, Alike.refl root σ⟩
  | none =>
    obtain ⟨τ, hrun, halike⟩ := linesOf_spec root file σ
    have hview : outlineIn root σ file = (linesIn root σ file).map fun found =>
        Outline.ofSource (String.ofList (joinLines found)) := by
      simp only [outlineIn, hc]
    simp only [hc]
    rw [Stateful.run_bind, hrun]
    cases hl : linesIn root σ file with
    | error fault => exact ⟨τ, by rw [hview, hl]; rfl, halike⟩
    | ok found =>
      rw [hl] at hview
      refine ⟨withOutline τ file (Outline.ofSource (String.ofList (joinLines found))), ?_, ?_⟩
      · rw [hview]
        rfl
      · -- the outline is that of the lines that were just read
        exact halike.trans (alike_withOutline ((halike.outlines file).symm.trans hview))

theorem linesOf_settled (root file : String) : Settled root (linesOf root file) := by
  constructor
  · intro σ
    obtain ⟨τ, h, halike⟩ := linesOf_spec root file σ
    rw [h]
    exact halike
  · intro σ τ hστ
    obtain ⟨σ', hσ, -⟩ := linesOf_spec root file σ
    obtain ⟨τ', hτ, -⟩ := linesOf_spec root file τ
    rw [hσ, hτ, hστ.lines]

theorem outlineOf_settled (root file : String) : Settled root (outlineOf root file) := by
  constructor
  · intro σ
    obtain ⟨τ, h, halike⟩ := outlineOf_spec root file σ
    rw [h]
    exact halike
  · intro σ τ hστ
    obtain ⟨σ', hσ, -⟩ := outlineOf_spec root file σ
    obtain ⟨τ', hτ, -⟩ := outlineOf_spec root file τ
    rw [hσ, hτ, hστ.outlines]

theorem siteAt_settled (root file : String) (line : Nat) (shape : Shape) :
    Settled root (siteAt root file line shape) :=
  (Settled.isStepProperty root).siteAt (linesOf_settled root) file line shape

/-- A site is made from the lines that the session gives. -/
theorem siteAt_result {root file : String} {σ : Session} {found : List (List Char)}
    (h : linesIn root σ file = .ok found) (line : Nat) (shape : Shape) :
    ((siteAt root file line shape).run.run σ).1 =
      match Site.ofLines? file found line shape with
      | some site => .ok site
      | none => .error (.noLine file line) := by
  obtain ⟨τ, hrun, -⟩ := linesOf_spec root file σ
  rw [siteAt, Stateful.run_bind, hrun, h]
  simp only
  cases Site.ofLines? file found line shape <;> rfl

theorem definitionLine_settled (root : String) (s : Subject) (file name : String)
    (kind : MemberKind) : Settled root (definitionLine root s file name kind) :=
  (Settled.isStepProperty root).definitionLine (outlineOf_settled root) s file name kind

theorem declarativeLine_settled (root file name : String) :
    Settled root (declarativeLine root file name) :=
  (Settled.isStepProperty root).declarativeLine (linesOf_settled root) file name

theorem findDefinition_settled (root name : String) (kind : MemberKind) (lineage : List Subject) :
    Settled root (findDefinition root name kind lineage) :=
  (Settled.isStepProperty root).findDefinition (linesOf_settled root) (outlineOf_settled root) name
    kind lineage

theorem findDeclarative_settled (root name : String) (lineage : List Subject) :
    Settled root (findDeclarative root name lineage) :=
  (Settled.isStepProperty root).findDeclarative (linesOf_settled root) name lineage

/-- A search for a definition gives the same in all sessions that are alike, and leaves them alike. -/
theorem locate_settled (root : String) (registry : Registry) (r : Reference) (context : Subject) :
    Settled root (locate root registry r context) :=
  (Settled.isStepProperty root).locate (linesOf_settled root) (outlineOf_settled root) registry r
    context

end Locator

end DocWeave
