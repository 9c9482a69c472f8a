import DocWeave.Proofs.Locator.Views
import DocWeave.Workspace

/-!
# What a search gives

Settled steps leave every view as it is, so the outcome of two of them one after the other is that of
both in the same session (`outcome_bind`). By this the outcome of a search is read off the views: a
definition is cut out of its file at the line that is recorded or outlined for it, and a site that is no
definition stands on the first line of a file that declares the member by name (`locate_cases`).
-/

namespace DocWeave

open DocWeave.Text

namespace Locator

/-! ## Outcomes of settled steps -/

/-- What a step gives in a session. -/
def outcome {ε α : Type} (σ : Session) (step : SessionT ε α) : Except ε α := (step.run.run σ).1

section

variable {root : String} {ε α β : Type} {σ τ : Session}

@[simp] theorem outcome_pure (a : α) : outcome σ (pure a : SessionT ε α) = .ok a := rfl

@[simp] theorem outcome_throw (e : ε) : outcome σ (throw e : SessionT ε α) = .error e := rfl

@[simp] theorem outcome_attempt (step : SessionT ε α) :
    outcome σ step.attempt = .ok (outcome σ step).toOption := rfl

/-- The second of two settled steps gives what it gives in the session of the first. -/
theorem outcome_bind {step : SessionT ε α} {next : α → SessionT ε β} (h : Settled root step)
    (hnext : ∀ a, Settled root (next a)) :
    outcome σ (step >>= next) =
      match outcome σ step with
      | .ok a => outcome σ (next a)
      | .error e => .error e := by
  have hkeeps := h.keeps σ
  unfold outcome
  rw [Stateful.run_bind]
  rcases hs : step.run.run σ with ⟨o, τ⟩
  rw [hs] at hkeeps
  cases o with
  | error e => rfl
  | ok a => exact ((hnext a).agrees σ τ hkeeps).symm

end

variable {root : String} {σ : Session}

theorem outcome_linesOf (file : String) : outcome σ (linesOf root file) = linesIn root σ file := by
  obtain ⟨τ, h, -⟩ := linesOf_spec root file σ
  rw [outcome, h]

theorem outcome_outlineOf (file : String) : outcome σ (outlineOf root file) = outlineIn root σ file := by
  obtain ⟨τ, h, -⟩ := outlineOf_spec root file σ
  rw [outcome, h]

/-! ## Sites and lines -/

/-- A site is cut out of the lines of its file. -/
theorem outcome_siteAt {file : String} {line : Nat} {shape : Shape} {s : Site} :
    outcome σ (siteAt root file line shape) = .ok s ↔
      ∃ found, linesIn root σ file = .ok found ∧ Site.ofLines? file found line shape = some s := by
  rw [siteAt, outcome_bind (linesOf_settled root file) (fun found => by
    split
    · exact .pure _
    · exact .throw _), outcome_linesOf]
  cases hfound : linesIn root σ file with
  | error e => simp
  | ok found =>
    cases hsite : Site.ofLines? file found line shape with
    | none => simp [hsite]
    | some site => simp [hsite]

/-- The line that is recorded for a member, or else outlined in the file. -/
def definedLine (root : String) (σ : Session) (s : Subject) (file name : String) (kind : MemberKind) :
    Option Nat :=
  recordedLine? s name kind <|>
    (outlineIn root σ file).toOption.bind fun outline =>
      (declarationOf? outline s.name).bind fun d => declaredLine? d name kind

/-- The first line of a file that declares a member by name. -/
def namedLine (root : String) (σ : Session) (file name : String) : Option Nat :=
  (linesIn root σ file).toOption.bind fun found =>
    (found.findIdx? fun l => (Outline.declarativeNames l).contains name).map (· + 1)

theorem outcome_definitionLine (s : Subject) (file name : String) (kind : MemberKind) :
    outcome σ (definitionLine root s file name kind) =
      .ok (definedLine root σ s file name kind) := by
  unfold definitionLine definedLine
  cases recordedLine? s name kind with
  | some line => rfl
  | none =>
    rw [outcome_bind (outlineOf_settled root file).attempt
      (fun o => by split <;> exact .pure _), outcome_attempt, outcome_outlineOf]
    cases outlineIn root σ file <;> rfl

theorem outcome_declarativeLine (file name : String) :
    outcome σ (declarativeLine root file name) = .ok (namedLine root σ file name) := by
  unfold declarativeLine namedLine
  rw [outcome_bind (linesOf_settled root file).attempt
    (fun o => by split <;> exact .pure _), outcome_attempt, outcome_linesOf]
  cases linesIn root σ file <;> rfl

/-! ## Along a lineage -/

variable {name : String} {kind : MemberKind} {subject : Subject} {lineage : List Subject} {s : Site}

theorem outcome_findDefinition_cons (subject : Subject) (lineage : List Subject) :
    outcome σ (findDefinition root name kind (subject :: lineage)) =
      match subject.file with
      | none => outcome σ (findDefinition root name kind lineage)
      | some file =>
        match definedLine root σ subject file name kind with
        | none => outcome σ (findDefinition root name kind lineage)
        | some line => (outcome σ (siteAt root file line (shapeOf kind))).map some := by
  rw [findDefinition]
  cases subject.file with
  | none => rfl
  | some file =>
    dsimp only
    rw [outcome_bind (definitionLine_settled root subject file name kind) (fun o => by
      split
      · exact (siteAt_settled root file _ _).bind fun site => .pure _
      · exact findDefinition_settled root name kind lineage), outcome_definitionLine]
    cases definedLine root σ subject file name kind with
    | none => rfl
    | some line =>
      dsimp only
      rw [outcome_bind (siteAt_settled root file line _) (fun site => .pure _)]
      cases outcome σ (siteAt root file line (shapeOf kind)) <;> rfl

theorem outcome_findDeclarative_cons (subject : Subject) (lineage : List Subject) :
    outcome σ (findDeclarative root name (subject :: lineage)) =
      match subject.file with
      | none => outcome σ (findDeclarative root name lineage)
      | some file =>
        match namedLine root σ file name with
        | none => outcome σ (findDeclarative root name lineage)
        | some line =>
          match outcome σ (siteAt root file line .statement) with
          | .error e => .error e
          | .ok site =>
            if site.hasComment then .ok (some site)
            else outcome σ (findDeclarative root name lineage) := by
  rw [findDeclarative]
  cases subject.file with
  | none => rfl
  | some file =>
    have hfind := findDeclarative_settled root name lineage
    have hchoice : ∀ site : Site, Settled root (if site.hasComment then pure (some site)
        else findDeclarative root name lineage : LocateM (Option Site)) := by
      intro site
      split
      · exact .pure _
      · exact hfind
    dsimp only
    rw [outcome_bind (declarativeLine_settled root file name) (fun o => by
      split
      · exact hfind
      · exact (siteAt_settled root file _ .statement).bind hchoice), outcome_declarativeLine]
    cases namedLine root σ file name with
    | none => rfl
    | some line =>
      dsimp only
      rw [outcome_bind (siteAt_settled root file line .statement) hchoice]
      cases outcome σ (siteAt root file line .statement) with
      | error e => rfl
      | ok site =>
        dsimp only
        split <;> rfl

/-- A definition is cut out of the file of a subject of the lineage, at the line defined there. -/
theorem findDefinition_some (h : outcome σ (findDefinition root name kind lineage) = .ok (some s)) :
    ∃ subject ∈ lineage, ∃ file line found, subject.file = some file ∧
      definedLine root σ subject file name kind = some line ∧ linesIn root σ file = .ok found ∧
      Site.ofLines? file found line (shapeOf kind) = some s := by
  induction lineage with
  | nil => cases h
  | cons subject lineage ih =>
    rw [outcome_findDefinition_cons] at h
    cases hfile : subject.file with
    | none =>
      rw [hfile] at h
      obtain ⟨other, hmem, hother⟩ := ih h
      exact ⟨other, List.mem_cons_of_mem _ hmem, hother⟩
    | some file =>
      rw [hfile] at h
      dsimp only at h
      cases hline : definedLine root σ subject file name kind with
      | none =>
        rw [hline] at h
        obtain ⟨other, hmem, hother⟩ := ih h
        exact ⟨other, List.mem_cons_of_mem _ hmem, hother⟩
      | some line =>
        rw [hline] at h
        dsimp only at h
        cases hsite : outcome σ (siteAt root file line (shapeOf kind)) with
        | error e =>
          rw [hsite] at h
          cases h
        | ok site =>
          rw [hsite] at h
          cases h
          obtain ⟨found, hfound, hcut⟩ := outcome_siteAt.mp hsite
          exact ⟨subject, List.mem_cons_self, file, line, found, hfile, hline, hfound, hcut⟩

/-- The line that declares a name is there to be cut out. -/
theorem siteAt_namedLine {file : String} {line : Nat} (h : namedLine root σ file name = some line)
    (shape : Shape) : ∃ site, outcome σ (siteAt root file line shape) = .ok site := by
  obtain ⟨found, hfound, hline⟩ := Option.bind_eq_some_iff.mp h
  obtain ⟨start, hstart, rfl⟩ := Option.map_eq_some_iff.mp hline
  have hlines : linesIn root σ file = .ok found := Stateful.eq_ok_of_toOption hfound
  have hlt : start < found.length := (List.findIdx?_eq_some_iff_getElem.mp hstart).1
  cases hsite : Site.ofLines? file found (start + 1) shape with
  | none => simp [Site.ofLines?, hlt] at hsite
  | some site => exact ⟨site, outcome_siteAt.mpr ⟨found, hlines, hsite⟩⟩

/-- The search for a declarative line does not fail. -/
theorem findDeclarative_ok (root : String) (σ : Session) (name : String) (lineage : List Subject) :
    ∃ declarative, outcome σ (findDeclarative root name lineage) = .ok declarative := by
  induction lineage with
  | nil => exact ⟨none, rfl⟩
  | cons subject lineage ih =>
    rw [outcome_findDeclarative_cons]
    cases subject.file with
    | none => exact ih
    | some file =>
      dsimp only
      cases hline : namedLine root σ file name with
      | none => exact ih
      | some line =>
        obtain ⟨site, hsite⟩ := siteAt_namedLine hline .statement
        simp only [hsite]
        split
        · exact ⟨some site, rfl⟩
        · exact ih

/-- A site that a search for declarative lines gives stands in the file of a subject of the lineage, on
the first line that declares the name, and has a comment. -/
theorem findDeclarative_some (h : outcome σ (findDeclarative root name lineage) = .ok (some s)) :
    s.hasComment = true ∧ ∃ subject ∈ lineage, ∃ file line found, subject.file = some file ∧
      namedLine root σ file name = some line ∧ linesIn root σ file = .ok found ∧
      Site.ofLines? file found line .statement = some s := by
  induction lineage with
  | nil => cases h
  | cons subject lineage ih =>
    rw [outcome_findDeclarative_cons] at h
    cases hfile : subject.file with
    | none =>
      rw [hfile] at h
      obtain ⟨hcomment, other, hmem, hother⟩ := ih h
      exact ⟨hcomment, other, List.mem_cons_of_mem _ hmem, hother⟩
    | some file =>
      rw [hfile] at h
      dsimp only at h
      cases hline : namedLine root σ file name with
      | none =>
        rw [hline] at h
        obtain ⟨hcomment, other, hmem, hother⟩ := ih h
        exact ⟨hcomment, other, List.mem_cons_of_mem _ hmem, hother⟩
      | some line =>
        obtain ⟨site, hsite⟩ := siteAt_namedLine hline .statement
        simp only [hline, hsite] at h
        split at h
        · next hcomment =>
          cases h
          obtain ⟨found, hfound, hcut⟩ := outcome_siteAt.mp hsite
          exact ⟨hcomment, subject, List.mem_cons_self, file, line, found, hfile, hline, hfound, hcut⟩
        · obtain ⟨hcomment, other, hmem, hother⟩ := ih h
          exact ⟨hcomment, other, List.mem_cons_of_mem _ hmem, hother⟩

/-! ## The whole search -/

variable {registry : Registry} {r : Reference} {context : Subject}

/-- The definition is given if it has a comment, or else a declarative line with one, or else the
definition after all. -/
theorem outcome_locate (hline : r.line = none) :
    outcome σ (locate root registry r context) =
      match outcome σ (findDefinition root r.name r.kind (registry.lineage context.name)) with
      | .error e => .error e
      | .ok definition =>
        match definition.filter Site.hasComment with
        | some site => .ok site
        | none =>
          match if r.kind = .onInstance then
              outcome σ (findDeclarative root r.name (registry.lineage context.name))
            else .ok none with
          | .error e => .error e
          | .ok declarative =>
            match declarative <|> definition with
            | some site => .ok site
            | none => .error (.undefined r.name context.name) := by
  have hfind := findDeclarative_settled root r.name (registry.lineage context.name)
  have hchoice : ∀ definition declarative : Option Site, Settled root
      (match declarative <|> definition with
        | some site => pure site
        | none => throw (.undefined r.name context.name) : LocateM Site) := by
    intro definition declarative
    split
    · exact .pure _
    · exact .throw _
  have hlast : ∀ definition : Option Site, Settled root (do
      let declarative ← if r.kind = .onInstance then
        findDeclarative root r.name (registry.lineage context.name) else pure none
      match declarative <|> definition with
        | some site => pure site
        | none => throw (.undefined r.name context.name) : LocateM Site) := by
    intro definition
    split
    · exact hfind.bind (hchoice definition)
    · exact (Settled.pure none).bind (hchoice definition)
  unfold locate
  rw [hline]
  dsimp only
  rw [outcome_bind (findDefinition_settled root r.name r.kind _)
    (fun definition => by
      split
      · exact .pure _
      · exact hlast definition)]
  cases outcome σ (findDefinition root r.name r.kind (registry.lineage context.name)) with
  | error e => rfl
  | ok definition =>
    dsimp only
    cases definition.filter Site.hasComment with
    | some site => rfl
    | none =>
      dsimp only
      split
      · refine (outcome_bind hfind (hchoice definition)).trans ?_
        cases outcome σ (findDeclarative root r.name (registry.lineage context.name)) with
        | error e => rfl
        | ok declarative =>
          dsimp only
          cases declarative <|> definition <;> rfl
      · cases definition <;> rfl

/-- A definition is given if it has a comment, or if no declarative line with one can replace it. -/
theorem outcome_locate_definition (hline : r.line = none)
    (hdef : outcome σ (findDefinition root r.name r.kind (registry.lineage context.name)) =
      .ok (some s))
    (hkept : s.hasComment = true ∨ r.kind ≠ .onInstance ∨
      outcome σ (findDeclarative root r.name (registry.lineage context.name)) = .ok none) :
    outcome σ (locate root registry r context) = .ok s := by
  rw [outcome_locate hline, hdef]
  cases hcomment : s.hasComment with
  | true =>
    have hfilter : (some s).filter Site.hasComment = some s := by simp [Option.filter, hcomment]
    simp only [hfilter]
  | false =>
    have hfilter : (some s).filter Site.hasComment = none := by simp [Option.filter, hcomment]
    rw [hcomment] at hkept
    rcases hkept with hkept | hkind | hnone
    · cases hkept
    · simp [hfilter, hkind]
    · simp [hfilter, hnone]

/-- A declarative line with a comment replaces a definition without one. -/
theorem outcome_locate_declarative (hline : r.line = none) (hkind : r.kind = .onInstance)
    (definition : Option Site)
    (hdef : outcome σ (findDefinition root r.name r.kind (registry.lineage context.name)) =
      .ok definition)
    (hbare : definition.filter Site.hasComment = none)
    (hdecl : outcome σ (findDeclarative root r.name (registry.lineage context.name)) =
      .ok (some s)) :
    outcome σ (locate root registry r context) = .ok s := by
  rw [outcome_locate hline, hdef]
  simp [hbare, hkind, hdecl]

/-- A member with a definition is located, if not there then on a declarative line. -/
theorem exists_locate (hline : r.line = none)
    (hdef : outcome σ (findDefinition root r.name r.kind (registry.lineage context.name)) =
      .ok (some s)) :
    outcome σ (locate root registry r context) = .ok s ∨
      (r.kind = .onInstance ∧
        ∃ t, outcome σ (findDeclarative root r.name (registry.lineage context.name)) = .ok (some t) ∧
          outcome σ (locate root registry r context) = .ok t) := by
  by_cases hkept : s.hasComment = true ∨ r.kind ≠ .onInstance
  · exact .inl (outcome_locate_definition hline hdef (hkept.imp_right .inl))
  · obtain ⟨hcomment, hinstance⟩ := not_or.mp hkept
    have hkind : r.kind = .onInstance := Decidable.not_not.mp hinstance
    obtain ⟨declarative, hdecl⟩ := findDeclarative_ok root σ r.name (registry.lineage context.name)
    cases declarative with
    | none => exact .inl (outcome_locate_definition hline hdef (.inr (.inr hdecl)))
    | some t =>
      have hbare : (some s).filter Site.hasComment = none := by simp [Option.filter, hcomment]
      exact .inr ⟨hkind, t, hdecl, outcome_locate_declarative hline hkind _ hdef hbare hdecl⟩

/-- The two ways in which a search ends with a site: it is the definition, or the definition has no
comment and a declarative line with one is taken in its place. -/
theorem locate_cases (hline : r.line = none)
    (h : outcome σ (locate root registry r context) = .ok s) :
    outcome σ (findDefinition root r.name r.kind (registry.lineage context.name)) = .ok (some s) ∨
      (r.kind = .onInstance ∧
        outcome σ (findDeclarative root r.name (registry.lineage context.name)) = .ok (some s) ∧
        ∃ definition : Option Site,
          outcome σ (findDefinition root r.name r.kind (registry.lineage context.name)) =
            .ok definition ∧
          definition.filter Site.hasComment = none) := by
  rw [outcome_locate hline] at h
  cases hdef : outcome σ (findDefinition root r.name r.kind (registry.lineage context.name)) with
  | error e =>
    rw [hdef] at h
    cases h
  | ok definition =>
    rw [hdef] at h
    dsimp only at h
    cases hcomment : definition.filter Site.hasComment with
    | some site =>
      rw [hcomment] at h
      cases h
      left
      rw [(Option.filter_eq_some_iff.mp hcomment).1]
    | none =>
      rw [hcomment] at h
      dsimp only at h
      by_cases hkind : r.kind = .onInstance
      · rw [if_pos hkind] at h
        obtain ⟨declarative, hdecl⟩ :=
          findDeclarative_ok root σ r.name (registry.lineage context.name)
        rw [hdecl] at h
        cases declarative with
        | some site =>
          cases h
          exact .inr ⟨hkind, hdecl, definition, rfl, hcomment⟩
        | none =>
          cases definition with
          | none => cases h
          | some site =>
            cases h
            exact .inl rfl
      · rw [if_neg hkind] at h
        cases definition with
        | none => cases h
        | some site =>
          cases h
          exact .inl rfl

end Locator

/-- The owner is looked up first, then its lineage is searched. -/
theorem Workspace.outcome_locate (w : Workspace) (σ : Session) (r : Reference) :
    Locator.outcome σ (w.locate r) =
      (w.registry.ownerOf r).bind fun owner =>
        (Locator.outcome σ (Locator.locate w.root w.registry r owner)).mapError
          fun fault => .of (.sourceNotFound r.raw fault.message) := by
  unfold Workspace.locate Workspace.ownerOf
  cases w.registry.ownerOf r with
  | error e => rfl
  | ok owner => rfl

end DocWeave
