import DocWeave.Proofs.Locator.Outcomes
import DocWeave.Proofs.Page.Steps
import DocWeave.Proofs.Template.Frames

/-!
# What the steps of a page give

Making a page reads sources and changes no view of them, so all its steps are settled
(`Settled.isPageProperty`), and what each of them gives can be told in the session in which the page is
begun. For the doc block of a member there are five ways (`Attempt`): its owner is not known, its source
is missing, it has no doc block, the block fails to expand, or it is expanded. Only the second is a
failure that is absorbed.
-/

namespace DocWeave

open DocWeave.Text

namespace Locator

/-! ## Settled steps -/

namespace Settled

variable {root : String} {ε ε' α : Type}

theorem tryCatch {step : SessionT ε α} {handle : ε → SessionT ε α} (h : Settled root step)
    (hhandle : ∀ e, Settled root (handle e)) : Settled root (tryCatch step handle) := by
  constructor
  · intro σ
    rw [Stateful.run_tryCatch]
    have hkeeps := h.keeps σ
    rcases hs : step.run.run σ with ⟨o, τ⟩
    rw [hs] at hkeeps
    cases o with
    | error e => exact hkeeps.trans ((hhandle e).keeps τ)
    | ok a => exact hkeeps
  · intro σ τ hστ
    obtain ⟨o, σ', τ', hσ, hτ, halike⟩ := h.runs hστ
    rw [Stateful.run_tryCatch, Stateful.run_tryCatch, hσ, hτ]
    cases o with
    | error e => exact (hhandle e).agrees σ' τ' halike
    | ok a => rfl

theorem outcome (o : Except ε α) : Settled root (ExceptT.mk (Pure.pure o) : SessionT ε α) :=
  ⟨fun σ => Alike.refl root σ, fun _ _ _ => rfl⟩

theorem looked {step : SessionT ε α} (h : Settled root step) :
    Settled root (liftM step.run : SessionT ε' (Except ε α)) :=
  ⟨h.keeps, fun σ τ hστ => congrArg Except.ok (h.agrees σ τ hστ)⟩

theorem isPageProperty (root : String) :
    IsPageProperty fun {ε α} (_ : ε → Prop) (step : SessionT ε α) => Settled root step where
  pure := Settled.pure
  bind := Settled.bind
  outcome o _ := outcome o
  adapt rename _ h := ⟨h.keeps, fun σ τ hστ => congrArg (Except.mapError rename) (h.agrees σ τ hστ)⟩
  looked := looked
  attempt := Settled.attempt
  cause _ := trivial
  tryCatch := tryCatch

theorem readsWith (root : String) :
    ReadsWith (fun {ε α} (_ : ε → Prop) (step : SessionT ε α) => Settled root step) root :=
  ⟨linesOf_settled root, outlineOf_settled root⟩

end Settled

section

variable {root : String} {ε ε' α β : Type} {σ : Session}

/-- `outcome_bind` as an equation between outcomes. -/
theorem outcome_bind_eq {step : SessionT ε α} {next : α → SessionT ε β} (h : Settled root step)
    (hnext : ∀ a, Settled root (next a)) :
    outcome σ (step >>= next) = outcome σ step >>= fun a => outcome σ (next a) := by
  rw [outcome_bind h hnext]
  cases outcome σ step <;> rfl

/-- Nothing is done after a failure. -/
theorem outcome_bind_error {step : SessionT ε α} {e : ε} (h : outcome σ step = .error e)
    (next : α → SessionT ε β) : outcome σ (step >>= next) = .error e := by
  unfold outcome at h ⊢
  rw [Stateful.run_bind]
  rcases hs : step.run.run σ with ⟨o, τ⟩
  rw [hs] at h
  obtain rfl : o = .error e := h
  rfl

theorem outcome_tryCatch {step : SessionT ε α} {handle : ε → SessionT ε α} (h : Settled root step)
    (hhandle : ∀ e, Settled root (handle e)) :
    outcome σ (tryCatch step handle) =
      match outcome σ step with
      | .ok a => .ok a
      | .error e => outcome σ (handle e) := by
  have hkeeps := h.keeps σ
  unfold outcome
  rw [Stateful.run_tryCatch]
  rcases hs : step.run.run σ with ⟨o, τ⟩
  rw [hs] at hkeeps
  cases o with
  | error e => exact ((hhandle e).agrees σ τ hkeeps).symm
  | ok a => rfl

end

end Locator

/-! ## Entries -/

namespace Page.Maker

open Locator

variable {p : Maker} {σ : Session} {r : Reference} {s : Subject}

/-- The standard directives are at hand. -/
def Standard (p : Maker) : Prop := p.catalogue = Directive.standard

theorem Standard.settled (h : p.Standard) :
    Catalogue.Has (fun {ε α} (_ : ε → Prop) (step : SessionT ε α) => Settled p.workspace.root step)
      anyFailure p.catalogue := by
  rw [h]
  exact (Settled.isPageProperty _).standard

/-- The expansion of the doc block at the site of a member. -/
def expansion (p : Maker) (r : Reference) (owner : Subject) (site : Site) : RunM String :=
  Template.render (blockOrigin site (site.docBlock p.workspace.tokens) r)
    ((p.workspace.context p.catalogue owner (some (r.placed (some site.file) (some site.line)))).env
      p.catalogue)
    (site.docBlock p.workspace.tokens).text

/-- The member is located and has a doc block, whose expansion ends as `o` says. -/
def Expands (p : Maker) (σ : Session) (r : Reference) (o : Except Error String) : Prop :=
  ∃ owner site, p.workspace.registry.ownerOf r = .ok owner ∧
    outcome σ (p.workspace.locate r) = .ok site ∧
    (site.docBlock p.workspace.tokens).isEmpty = false ∧
    outcome σ (p.expansion r owner site) = o

/-- The ways in which the attempt to make an entry can end. -/
inductive Attempt (p : Maker) (σ : Session) (r : Reference) : Except Error (Option Entry) → Prop
  | unknown (e : Error) : p.workspace.registry.ownerOf r = .error e → Attempt p σ r (.error e)
  | missing (e : Error) : outcome σ (p.workspace.locate r) = .error e → e.isRecoverable = true →
      Attempt p σ r (.ok none)
  | undocumented (site : Site) : outcome σ (p.workspace.locate r) = .ok site →
      (site.docBlock p.workspace.tokens).isEmpty = true → Attempt p σ r (.ok none)
  | failed (e : Error) : p.Expands σ r (.error e) → e.isTraced = true → Attempt p σ r (.error e)
  | documented (text : String) (reference : Reference) : p.Expands σ r (.ok text) →
      Attempt p σ r (.ok (some { text, reference }))

theorem outcome_entry (h : p.Standard) (σ : Session) (r : Reference) :
    outcome σ (p.entry r) = (do
      let owner ← p.workspace.registry.ownerOf r
      let site ← outcome σ (p.workspace.locate r)
      if (site.docBlock p.workspace.tokens).isEmpty then .ok none
      else (outcome σ (p.expansion r owner site)).map fun text =>
        some { text, reference := r.placed (some site.file) (some site.line) }) := by
  have hP := Settled.isPageProperty p.workspace.root
  have hread := Settled.readsWith p.workspace.root
  have hblock : ∀ owner site, Settled p.workspace.root (p.expansion r owner site) := fun owner site =>
    hP.block hread h.settled _ _ _ _
  have hrest : ∀ owner (site : Site), Settled p.workspace.root (do
      if (site.docBlock p.workspace.tokens).isEmpty then return none
      let text ← p.expansion r owner site
      return some { text, reference := r.placed (some site.file) (some site.line) } : RunM (Option Entry)) := by
    intro owner site
    split
    · exact .pure _
    · exact (hblock owner site).bind fun text => .pure _
  refine (outcome_bind_eq (hP.ownerOf r) fun owner =>
    (hP.locate hread r).bind (hrest owner)).trans ?_
  refine bind_congr fun owner => ?_
  refine (outcome_bind_eq (hP.locate hread r) (hrest owner)).trans ?_
  refine bind_congr fun site => ?_
  split
  · rfl
  · refine (outcome_bind_eq (hblock owner site) fun text => .pure _).trans ?_
    cases outcome σ (p.expansion r owner site) <;> rfl

theorem outcome_entryIfFound (h : p.Standard) (σ : Session) (r : Reference) :
    outcome σ (p.entryIfFound r) =
      match outcome σ (p.entry r) with
      | .ok o => .ok o
      | .error e => if e.isRecoverable then .ok none else .error e := by
  have hP := Settled.isPageProperty p.workspace.root
  rw [entryIfFound, outcome_tryCatch (hP.entry (Settled.readsWith _) h.settled r) fun e => by
    split
    · exact .pure _
    · exact .throw _]
  cases outcome σ (p.entry r) with
  | ok o => rfl
  | error e =>
    dsimp only
    split <;> rfl

/-- A doc block that fails has its place in the trace. -/
theorem isTraced_render {origin : Template.Origin} {env : Env RunM} {template : String} {e : Error}
    (h : outcome σ (Template.render origin env template) = .error e) : e.isTraced = true := by
  rcases hrun : (Template.render origin env template).run.run σ with ⟨o, τ⟩
  have ho : o = .error e := by
    rw [outcome, hrun] at h
    exact h
  subst ho
  rcases Template.render_fails hrun with ⟨_, _, rfl⟩ | ⟨_, _, _, _, _, _, _, _, _, rfl⟩ <;> rfl

theorem isRecoverable_of_isTraced {e : Error} (h : e.isTraced = true) : e.isRecoverable = false := by
  unfold Error.isRecoverable
  split
  · rw [h]
    rfl
  · rfl

/-- The attempt to make an entry ends in one of the five ways. -/
theorem attempt (h : p.Standard) (σ : Session) (r : Reference) :
    p.Attempt σ r (outcome σ (p.entryIfFound r)) := by
  rw [outcome_entryIfFound h, outcome_entry h]
  cases howner : p.workspace.registry.ownerOf r with
  | error e =>
    have hfatal : e.isRecoverable = false := by
      obtain ⟨name, context, rfl⟩ := Registry.ownerOf_error howner
      rfl
    simp only [bind, Except.bind, hfatal, Bool.false_eq_true, if_false]
    exact .unknown e howner
  | ok owner =>
    cases hsite : outcome σ (p.workspace.locate r) with
    | error e =>
      have hmissing : e.isRecoverable = true := by
        rw [Workspace.outcome_locate, howner] at hsite
        dsimp only [Except.bind] at hsite
        cases hfound : outcome σ (Locator.locate p.workspace.root p.workspace.registry r owner) with
        | ok site =>
          rw [hfound] at hsite
          cases hsite
        | error fault =>
          rw [hfound] at hsite
          cases hsite
          rfl
      simp only [bind, Except.bind, hmissing, if_true]
      exact .missing e hsite hmissing
    | ok site =>
      simp only [bind, Except.bind]
      cases hblock : (site.docBlock p.workspace.tokens).isEmpty with
      | true => exact .undocumented site hsite hblock
      | false =>
        cases htext : outcome σ (p.expansion r owner site) with
        | error e =>
          have htraced := isTraced_render htext
          have hfatal := isRecoverable_of_isTraced htraced
          simp only [Bool.false_eq_true, if_false, Except.map, hfatal]
          exact .failed e ⟨owner, site, howner, hsite, hblock, htext⟩ htraced
        | ok text =>
          simp only [Bool.false_eq_true, if_false, Except.map]
          exact .documented text _ ⟨owner, site, howner, hsite, hblock, htext⟩

/-- A doc block that is expanded makes an entry. -/
theorem Expands.found (h : p.Standard) {text : String} (htext : p.Expands σ r (.ok text)) :
    ∃ reference, outcome σ (p.entryIfFound r) = .ok (some { text, reference }) := by
  obtain ⟨owner, site, howner, hsite, hblock, htext⟩ := htext
  rw [outcome_entryIfFound h, outcome_entry h, howner]
  simp only [bind, Except.bind, hsite, hblock, htext, Bool.false_eq_true, if_false, Except.map]
  exact ⟨_, rfl⟩

/-- A doc block that fails to expand is not absorbed, whatever the cause. -/
theorem Expands.fails (h : p.Standard) {e : Error} (hfails : p.Expands σ r (.error e)) :
    outcome σ (p.entryIfFound r) = .error e ∧ e.isTraced = true := by
  obtain ⟨owner, site, howner, hsite, hblock, htext⟩ := hfails
  have htraced := isTraced_render htext
  have hfatal := isRecoverable_of_isTraced htraced
  rw [outcome_entryIfFound h, outcome_entry h, howner]
  simp only [bind, Except.bind, hsite, hblock, htext, Bool.false_eq_true, if_false, Except.map, hfatal]
  exact ⟨trivial, htraced⟩

/-! ## All entries -/

/-- The failure with which the attempt to make an entry ends, if it fails. -/
def failure? (p : Maker) (σ : Session) (r : Reference) : Option Error :=
  match outcome σ (p.entryIfFound r) with
  | .error e => some e
  | .ok _ => none

/-- The entry that is made for a reference, if one is. -/
def entryOf? (p : Maker) (σ : Session) (r : Reference) : Option Entry :=
  match outcome σ (p.entryIfFound r) with
  | .error _ => none
  | .ok o => o

/-- The entries with that of one more reference. -/
def put (p : Maker) (σ : Session) (entries : Entries) (r : Reference) : Entries :=
  match p.entryOf? σ r with
  | some e => entries.insert (EntryKey.of r) e
  | none => entries

/-- The entries of members are made one after the other up to the first failure. -/
theorem outcome_memberEntries (h : p.Standard) (σ : Session) (rs : List Reference) (entries : Entries) :
    outcome σ (p.memberEntries entries rs) =
      match rs.findSome? (p.failure? σ) with
      | some e => .error e
      | none => .ok (rs.foldl (p.put σ) entries) := by
  have hP := Settled.isPageProperty p.workspace.root
  have hread := Settled.readsWith p.workspace.root
  induction rs generalizing entries with
  | nil => rfl
  | cons r rest ih =>
    rw [memberEntries, outcome_bind (hP.entryIfFound hread h.settled r) fun o => by
      split <;> exact hP.memberEntries hread h.settled rest _]
    rw [List.findSome?_cons, List.foldl_cons, failure?, put, entryOf?]
    cases outcome σ (p.entryIfFound r) with
    | error e => rfl
    | ok o =>
      cases o with
      | none => exact ih entries
      | some e => exact ih _

/-- The reference by which a page of a subject names a constant. -/
def constantReference (s : Subject) (owned : Subject × Constant) : Reference :=
  .member s.name owned.2.name .constant (if owned.1.name == s.name then .native else .inherited)

/-- The entries with that of one more constant. -/
def putConstant (p : Maker) (σ : Session) (s : Subject) (entries : Entries)
    (owned : Subject × Constant) : Entries :=
  entries.insert (EntryKey.of (constantReference s owned))
    { text := constantText (p.entryOf? σ (constantReference s owned)) owned.2.value.present,
      reference := constantReference s owned }

theorem outcome_constantEntries (h : p.Standard) (σ : Session) (s : Subject)
    (constants : List (Subject × Constant)) (entries : Entries) :
    outcome σ (p.constantEntries s entries constants) =
      match (constants.map (constantReference s)).findSome? (p.failure? σ) with
      | some e => .error e
      | none => .ok (constants.foldl (p.putConstant σ s) entries) := by
  have hP := Settled.isPageProperty p.workspace.root
  have hread := Settled.readsWith p.workspace.root
  induction constants generalizing entries with
  | nil => rfl
  | cons owned rest ih =>
    refine (outcome_bind (hP.entryIfFound hread h.settled (constantReference s owned))
      fun o => hP.constantEntries hread h.settled s rest _).trans ?_
    rw [List.map_cons, List.findSome?_cons, List.foldl_cons, failure?, putConstant, entryOf?]
    cases outcome σ (p.entryIfFound (constantReference s owned)) with
    | error e => rfl
    | ok o => exact ih _

/-- The entries of members that are shown: those that say something, with links to their sources. -/
def shown (p : Maker) (members : Entries) : Entries :=
  let members := members.filter fun (_, e) => !e.isBlank
  if p.options.sourceLinks then members.map fun (key, e) => (key, p.withSourceLink e) else members

/-- The references of all doc blocks below the heading of a page, in the order in which they are
expanded. -/
def blockReferences (p : Maker) (s : Subject) (rs : List Reference) : List Reference :=
  rs ++ (p.workspace.registry.constants s.name).map (constantReference s)

/-- All entries of a page. -/
def allEntries (p : Maker) (σ : Session) (s : Subject) (rs : List Reference) : Entries :=
  (p.workspace.registry.constants s.name).foldl (p.putConstant σ s) (p.shown (rs.foldl (p.put σ) []))

theorem outcome_entries (h : p.Standard) {rs : List Reference}
    (hrs : outcome σ (p.references s) = .ok rs) :
    outcome σ (p.entries s) =
      match (p.blockReferences s rs).findSome? (p.failure? σ) with
      | some e => .error e
      | none => .ok (p.allEntries σ s rs) := by
  have hP := Settled.isPageProperty p.workspace.root
  have hread := Settled.readsWith p.workspace.root
  rw [entries, outcome_bind (hP.references s) fun rs => (hP.memberEntries hread h.settled rs []).bind
    fun members => hP.constantEntries hread h.settled s _ _, hrs]
  dsimp only
  rw [outcome_bind (hP.memberEntries hread h.settled rs []) fun members =>
    hP.constantEntries hread h.settled s _ _, outcome_memberEntries h, blockReferences,
    List.findSome?_append]
  cases rs.findSome? (p.failure? σ) with
  | some e => rfl
  | none => exact outcome_constantEntries h σ s _ _

/-! ## The head of a page -/

/-- The expansion of the doc block above the declaration of a subject. -/
def subjectExpansion (p : Maker) (s : Subject) (site : Site) : RunM String :=
  Template.render
    { file := site.file, line := (site.docBlock p.workspace.tokens).line, member := s.leafName,
      reference := s.name }
    ((p.workspace.context p.catalogue s none).env p.catalogue) (site.docBlock p.workspace.tokens).text

/-- The declaration of the subject has a doc block, whose expansion ends as `o` says. -/
def SubjectExpands (p : Maker) (σ : Session) (s : Subject) (o : Except Error String) : Prop :=
  ∃ site, outcome σ (Locator.locateSubject p.workspace.root s) = .ok site ∧
    (site.docBlock p.workspace.tokens).isEmpty = false ∧ outcome σ (p.subjectExpansion s site) = o

/-- The comment of a subject, as looking for its declaration ended. -/
def subjectCommentFrom (p : Maker) (s : Subject) : Except LocateFault Site → RunM (Option String)
  | .error _ => pure none
  | .ok site => do
    if (site.docBlock p.workspace.tokens).isEmpty then return none
    let text := trimEnd (← p.subjectExpansion s site).toList
    return if text.isEmpty then none else some (String.ofList text)

/-- The comment of a subject fails only with its doc block. -/
theorem outcome_subjectComment_error (h : p.Standard) {e : Error} :
    outcome σ (p.subjectComment s) = .error e ↔ p.SubjectExpands σ s (.error e) := by
  have hP := Settled.isPageProperty p.workspace.root
  have hread := Settled.readsWith p.workspace.root
  have hblock : ∀ site, Settled p.workspace.root (p.subjectExpansion s site) := fun site =>
    hP.block hread h.settled _ _ _ _
  have hrest : ∀ found, Settled p.workspace.root (p.subjectCommentFrom s found) := by
    intro found
    unfold subjectCommentFrom
    split
    · exact .pure _
    · split
      · exact .pure _
      · exact (hblock _).bind fun text => .pure _
  have hlooked : outcome σ (p.subjectComment s) =
      outcome σ (p.subjectCommentFrom s (outcome σ (Locator.locateSubject p.workspace.root s))) :=
    outcome_bind (Settled.looked (hP.searchSubject hread s)) hrest
  rw [hlooked, SubjectExpands]
  cases outcome σ (Locator.locateSubject p.workspace.root s) with
  | error fault => simp [subjectCommentFrom]
  | ok site =>
    rw [subjectCommentFrom]
    cases hempty : (site.docBlock p.workspace.tokens).isEmpty with
    | true => simp [hempty]
    | false =>
      simp only [Bool.false_eq_true, if_false, Except.ok.injEq, exists_eq_left', hempty, true_and]
      rw [outcome_bind (hblock site) fun text => .pure _]
      cases outcome σ (p.subjectExpansion s site) <;> simp

theorem exists_mapM_ok {α β : Type} {f : α → RunM β} {root : String} (hf : ∀ a, Settled root (f a))
    (hok : ∀ a, ∃ b, outcome σ (f a) = .ok b) (items : List α) :
    ∃ bs, outcome σ (items.mapM f) = .ok bs := by
  have hmapM (items : List α) : Settled root (items.mapM f) :=
    (Settled.isPageProperty root).mapM (F := anyFailure) items hf
  induction items with
  | nil => exact ⟨[], rfl⟩
  | cons a rest ih =>
    obtain ⟨b, hb⟩ := hok a
    obtain ⟨bs, hbs⟩ := ih
    refine ⟨b :: bs, ?_⟩
    rw [List.mapM_cons, outcome_bind (hf a) fun b => (hmapM rest).bind fun bs => .pure _, hb]
    dsimp only
    rw [outcome_bind (hmapM rest) fun bs => .pure _, hbs]
    rfl

/-- A link to another subject can always be made. -/
theorem outcome_subjectLink (h : p.Standard) (s target : Subject) :
    ∃ link, outcome σ (p.subjectLink s target) = .ok link := by
  have hget : OrderedMap.get? p.catalogue "link_to_markdown" = some Directive.linkTo := by
    rw [h]
    rfl
  unfold subjectLink Context.call
  rw [hget]
  exact ⟨_, rfl⟩

theorem outcome_title (h : p.Standard) (σ : Session) (s : Subject) :
    ∃ title, outcome σ (p.title s) = .ok title := by
  have hP := Settled.isPageProperty p.workspace.root
  have hlink : ∀ target, Settled p.workspace.root (p.subjectLink s target) :=
    hP.subjectLink (Settled.readsWith _) h.settled s
  obtain ⟨links, hlinks⟩ := exists_mapM_ok (σ := σ) hlink (outcome_subjectLink h s)
    (p.workspace.registry.ancestors s.name)
  rw [title, outcome_bind (hP.mapM (F := anyFailure) _ hlink) fun links => .pure _, hlinks]
  exact ⟨_, rfl⟩

theorem outcome_summary (h : p.Standard) (σ : Session) (s : Subject) :
    ∃ summary, outcome σ (p.summary s) = .ok summary := by
  have hP := Settled.isPageProperty p.workspace.root
  have hlink : ∀ target, Settled p.workspace.root (p.subjectLink s target) :=
    hP.subjectLink (Settled.readsWith _) h.settled s
  unfold summary
  split
  · exact ⟨none, rfl⟩
  · obtain ⟨links, hlinks⟩ := exists_mapM_ok (σ := σ) hlink (outcome_subjectLink h s)
      (p.workspace.registry.descendants s.name)
    rw [outcome_bind (hP.mapM (F := anyFailure) _ hlink) fun links => .pure _, hlinks]
    exact ⟨_, rfl⟩

/-- Every kind of entries has a section. -/
theorem assemble_standard (title : String) (summary : Option String) (entries : Entries) :
    ∃ text : Option String → String, ∀ comment,
      assemble { title, summary, comment } entries = .ok (text comment) := by
  have hkinds : unhandledKinds Section.standard entries = [] := rfl
  refine ⟨fun comment => (assemble { title, summary, comment } entries).toOption.getD "",
    fun comment => ?_⟩
  unfold assemble
  rw [hkinds]
  dsimp only
  split <;> rfl

/-! ## The page -/

/-- A page fails with the first doc block that does, below the heading or above the declaration, and
else has all entries. -/
theorem outcome_page (h : p.Standard) {rs : List Reference}
    (hrs : outcome σ (p.references s) = .ok rs) :
    ∃ finish : Option String → Page, (∀ comment, (finish comment).entries = p.allEntries σ s rs) ∧
      outcome σ (p.page s) =
        match (p.blockReferences s rs).findSome? (p.failure? σ) with
        | some e => .error e
        | none => (outcome σ (p.subjectComment s)).map finish := by
  have hP := Settled.isPageProperty p.workspace.root
  have hread := Settled.readsWith p.workspace.root
  obtain ⟨title, htitle⟩ := outcome_title h σ s
  obtain ⟨summary, hsummary⟩ := outcome_summary h σ s
  have hfinish : ∀ entries title summary comment, Settled p.workspace.root (do
      let text ← RunM.ofExcept (assemble { title, summary, comment } entries)
      return { subject := s.name, title, summary, entries, text := p.linked s text } : RunM Page) :=
    fun _ _ _ _ => (Settled.outcome _).bind fun _ => .pure _
  obtain ⟨text, htext⟩ := assemble_standard title summary (p.allEntries σ s rs)
  let finish (comment : Option String) : Page :=
    { subject := s.name
      title, summary
      entries := p.allEntries σ s rs
      text := p.linked s (text comment) }
  refine ⟨finish, fun _ => rfl, ?_⟩
  rw [page, outcome_bind (hP.entries hread h.settled s) fun entries =>
    (hP.subjectComment hread h.settled s).bind fun comment =>
      (hP.title hread h.settled s).bind fun title =>
        (hP.summary hread h.settled s).bind fun summary => hfinish _ _ _ _, outcome_entries h hrs]
  cases (p.blockReferences s rs).findSome? (p.failure? σ) with
  | some e => rfl
  | none =>
    dsimp only
    rw [outcome_bind (hP.subjectComment hread h.settled s) fun comment =>
      (hP.title hread h.settled s).bind fun title =>
        (hP.summary hread h.settled s).bind fun summary => hfinish _ _ _ _]
    cases outcome σ (p.subjectComment s) with
    | error e => rfl
    | ok comment =>
      dsimp only
      rw [outcome_bind (hP.title hread h.settled s) fun title =>
        (hP.summary hread h.settled s).bind fun summary => hfinish _ _ _ _, htitle]
      dsimp only
      rw [outcome_bind (hP.summary hread h.settled s) fun summary => hfinish _ _ _ _, hsummary]
      dsimp only
      rw [htext]
      rfl

end Page.Maker

end DocWeave
