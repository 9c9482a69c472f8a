import DocWeave.Directive.Builtin
import DocWeave.Page.Render
import DocWeave.Proofs.Expr.Parametric
import DocWeave.Proofs.Locator.Searches
import DocWeave.Proofs.OrderedMap

/-!
# What holds of every page

Searches, evaluations, templates and pages are put together from steps that read the lines or the
outline of a source: one after the other, with failures renamed, looked at or handled. So a property of
steps that is kept by these means holds of a whole page if it holds of the two readings and of the
directives (`IsPageProperty.page`). The standard directives are put together in the same way
(`IsRunProperty.standard`), and apart from the doc blocks that they include they rename no failure of a
run, so the property may be one of steps that fail only for certain causes.
-/

namespace DocWeave

/-- A property that steps with failures of some kind have together when each of them has it, also where
failures are renamed or looked at. The causes of failures of a run are of a kind `Q`. -/
structure IsRunProperty (P : ∀ {ε α : Type}, (ε → Prop) → SessionT ε α → Prop) (Q : Error → Prop) :
    Prop where
  pure : ∀ {ε α : Type} {F : ε → Prop} (a : α), P F (pure a : SessionT ε α)
  bind : ∀ {ε α β : Type} {F : ε → Prop} {step : SessionT ε α} {next : α → SessionT ε β},
    P F step → (∀ a, P F (next a)) → P F (step >>= next)
  outcome : ∀ {ε α : Type} {F : ε → Prop} (o : Except ε α), (∀ e, o = .error e → F e) →
    P F (ExceptT.mk (Pure.pure o) : SessionT ε α)
  adapt : ∀ {ε ε' α : Type} {F : ε → Prop} {F' : ε' → Prop} {step : SessionT ε α} (rename : ε → ε'),
    (∀ e, F e → F' (rename e)) → P F step → P F' (ExceptT.adapt rename step : SessionT ε' α)
  looked : ∀ {ε ε' α : Type} {F : ε → Prop} {F' : ε' → Prop} {step : SessionT ε α}, P F step →
    P F' (liftM step.run : SessionT ε' (Except ε α))
  attempt : ∀ {ε α : Type} {F : ε → Prop} {step : SessionT ε α}, P F step → P F step.attempt
  cause : ∀ fault, Q (.of fault)

/-- Any failure. -/
abbrev anyFailure {ε : Type} : ε → Prop := fun _ => True

/-- A property of steps, whatever their failures, that is kept also where failures are handled. -/
structure IsPageProperty (P : ∀ {ε α : Type}, (ε → Prop) → SessionT ε α → Prop) : Prop
    extends IsRunProperty @P anyFailure where
  tryCatch : ∀ {α : Type} {step : RunM α} {handle : Error → RunM α}, P anyFailure step →
    (∀ e, P anyFailure (handle e)) → P anyFailure (tryCatch step handle)

/-- Reading the sources below a folder has a property. -/
structure ReadsWith (P : ∀ {ε α : Type}, (ε → Prop) → SessionT ε α → Prop) (root : String) : Prop where
  lines : ∀ file, P anyFailure (Locator.linesOf root file)
  outlines : ∀ file, P anyFailure (Locator.outlineOf root file)

/-- A directive has a property when reading sources and the doc blocks that it includes have it. -/
def Directive.Has (P : ∀ {ε α : Type}, (ε → Prop) → SessionT ε α → Prop) (Q : Error → Prop)
    (directive : Directive) : Prop :=
  ∀ ctx args, ReadsWith @P ctx.workspace.root → (∀ r, P Q (ctx.blockOf r)) → P Q (directive ctx args)

/-- Every directive of the catalogue has a property. -/
def Catalogue.Has (P : ∀ {ε α : Type}, (ε → Prop) → SessionT ε α → Prop) (Q : Error → Prop)
    (catalogue : Catalogue) : Prop :=
  ∀ entry ∈ catalogue, Directive.Has @P Q entry.2

/-! ## Tags in related environments -/

namespace Template

variable {m n : Type → Type} [Monad m] [Monad n]
  {R : ∀ {α : Type}, ExceptT Error m α → ExceptT Error n α → Prop} {env : Env (ExceptT Error m)}
  {env' : Env (ExceptT Error n)}

/-- An output tag has related values in related environments. -/
theorem related_output (hR : IsRelation @R) (henv : Env.Related @R env env')
    (hfail : ∀ {α : Type} (fault : Fault), R (throw (.of fault) : ExceptT Error m α) (throw (.of fault)))
    (locals : Bindings) (code : String) : R (output env locals code) (output env' locals code) := by
  unfold output
  split
  · exact hfail _
  · exact Expr.related_eval hR henv locals _

/-- A statement tag ends alike in related environments. -/
theorem related_execute [LawfulMonad m] [LawfulMonad n] (hR : IsRelation @R)
    (henv : Env.Related @R env env')
    (hfail : ∀ {α : Type} (fault : Fault), R (throw (.of fault) : ExceptT Error m α) (throw (.of fault)))
    (locals : Bindings) (code : String) : R (execute env locals code) (execute env' locals code) := by
  unfold execute
  split
  · exact hfail _
  · next program _ =>
    exact Program.related_finish hR henv (fun _ locals => locals) program locals .nil

end Template

/-! ## Causes of failures -/

/-- The lookup of an owner fails where the subject is not registered. -/
theorem Registry.resolve_error {registry : Registry} {name context : String} {e : Error}
    (h : registry.resolve name context = .error e) : e = .of (.unknownSubject name context) := by
  unfold Registry.resolve at h
  split at h
  · cases h
  · cases h
    rfl

theorem Registry.ownerOf_error {registry : Registry} {r : Reference} {e : Error}
    (h : registry.ownerOf r = .error e) : ∃ name context, e = .of (.unknownSubject name context) := by
  unfold Registry.ownerOf at h
  split at h
  · exact ⟨_, _, Registry.resolve_error h⟩
  · exact ⟨_, _, Registry.resolve_error h⟩

theorem Reference.parse_error {text origin : String} {options : ReferenceOptions} {e : Error}
    (h : Reference.parse text origin options = .error e) : ∃ text, e = .of (.malformedReference text) := by
  unfold Reference.parse at h
  dsimp only at h
  split at h
  · cases h
    exact ⟨_, rfl⟩
  · split at h
    · cases h
      exact ⟨_, rfl⟩
    · cases h

namespace IsRunProperty

variable {P : ∀ {ε α : Type}, (ε → Prop) → SessionT ε α → Prop} {Q : Error → Prop}

/-- The property without regard to failures goes along with steps. -/
theorem toIsStepProperty (hP : IsRunProperty @P Q) :
    IsStepProperty fun {ε α} (step : SessionT ε α) => P anyFailure step where
  pure := hP.pure
  throw e := hP.outcome (.error e) fun _ _ => trivial
  bind := hP.bind
  attempt := hP.attempt

theorem fail {α : Type} (hP : IsRunProperty @P Q) (fault : Fault) :
    P Q (throw (.of fault) : RunM α) := by
  refine hP.outcome (.error (Error.of fault)) fun e he => ?_
  cases he
  exact hP.cause fault

theorem ofEval {α : Type} (hP : IsRunProperty @P Q) (o : Except EvalError α) : P Q (RunM.ofEval o) := by
  refine hP.outcome _ fun e he => ?_
  cases o with
  | ok a => cases he
  | error fault =>
    cases he
    exact hP.cause _

theorem ofResolve (hP : IsRunProperty @P Q) (registry : Registry) (name context : String) :
    P Q (RunM.ofExcept (registry.resolve name context)) := by
  refine hP.outcome _ fun e he => ?_
  rw [Registry.resolve_error he]
  exact hP.cause _

theorem ofParse (hP : IsRunProperty @P Q) (text origin : String) (options : ReferenceOptions) :
    P Q (RunM.ofExcept (Reference.parse text origin options)) := by
  refine hP.outcome _ fun e he => ?_
  obtain ⟨_, rfl⟩ := Reference.parse_error he
  exact hP.cause _

theorem mapM {ε α β : Type} {F : ε → Prop} (hP : IsRunProperty @P Q) {f : α → SessionT ε β}
    (items : List α) (h : ∀ a, P F (f a)) : P F (items.mapM f) := by
  induction items with
  | nil => exact hP.pure _
  | cons a rest ih =>
    rw [List.mapM_cons]
    exact hP.bind (h a) fun b => hP.bind ih fun bs => hP.pure _

theorem filterAuxM {ε α : Type} {F : ε → Prop} (hP : IsRunProperty @P Q) {f : α → SessionT ε Bool}
    (h : ∀ a, P F (f a)) (items kept : List α) : P F (items.filterAuxM f kept) := by
  induction items generalizing kept with
  | nil => exact hP.pure _
  | cons a rest ih =>
    rw [List.filterAuxM]
    exact hP.bind (h a) fun b => ih _

theorem filterM {ε α : Type} {F : ε → Prop} (hP : IsRunProperty @P Q) {f : α → SessionT ε Bool}
    (items : List α) (h : ∀ a, P F (f a)) : P F (items.filterM f) :=
  hP.bind (hP.filterAuxM h items []) fun _ => hP.pure _

/-! ## Evaluation -/

section

variable {root : String} {registry : Registry} {s : Subject}

theorem search (hP : IsRunProperty @P Q) (hread : ReadsWith @P root) (registry : Registry)
    (r : Reference) (context : Subject) : P anyFailure (Locator.locate root registry r context) :=
  hP.toIsStepProperty.locate hread.lines hread.outlines registry r context

theorem searchSubject (hP : IsRunProperty @P Q) (hread : ReadsWith @P root) (s : Subject) :
    P anyFailure (Locator.locateSubject root s) :=
  hP.toIsStepProperty.locateSubject hread.lines hread.outlines s

theorem orMissing {α : Type} {find : LocateM α} (hP : IsRunProperty @P Q) (h : P anyFailure find)
    (reference : String) : P Q (LocateM.orMissing reference find) :=
  hP.adapt _ (fun _ _ => hP.cause _) h

theorem invoke (hP : IsRunProperty @P Q) (hread : ReadsWith @P root) (r : Reference)
    (bindings : Bindings) : P anyFailure (Sandbox.invoke root registry s r bindings) := by
  unfold Sandbox.invoke
  split
  · exact hP.pure _
  · refine hP.bind (hP.adapt _ (fun _ _ => trivial) (hP.search hread registry r s)) fun site => ?_
    exact hP.outcome _ fun _ _ => trivial

theorem restart (hP : IsRunProperty @P Q) (hread : ReadsWith @P root)
    {collaborate : Reference → RunM Value} (h : ∀ r, P Q (collaborate r)) (r : Reference) (left : Nat)
    (bindings : Bindings) : P Q (Sandbox.restart root registry s r collaborate left bindings) := by
  induction left generalizing bindings with
  | zero =>
    unfold Sandbox.restart
    refine hP.bind (hP.looked (hP.invoke hread r bindings)) fun o => ?_
    split
    · exact hP.pure _
    · exact hP.fail _
    · exact hP.fail _
    · exact hP.fail _
  | succ left ih =>
    unfold Sandbox.restart
    refine hP.bind (hP.looked (hP.invoke hread r bindings)) fun o => ?_
    split
    · exact hP.pure _
    · exact hP.fail _
    · exact hP.fail _
    · dsimp only
      split
      · exact hP.fail _
      · exact hP.bind (h _) fun v => ih _

theorem evaluateWithin (hP : IsRunProperty @P Q) (hread : ReadsWith @P root) (levels : Nat)
    (r : Reference) : P Q (Sandbox.evaluateWithin root registry s levels r) := by
  induction levels generalizing r with
  | zero => exact hP.fail _
  | succ levels ih => exact hP.restart hread ih r _ _

end

/-! ## Tags -/

section

variable {env : Env RunM}

/-- The environment answers every question by a step with the property. -/
abbrev Answers (P : ∀ {ε α : Type}, (ε → Prop) → SessionT ε α → Prop) (Q : Error → Prop)
    (env : Env RunM) : Prop :=
  Env.Related (fun x _ => P Q x) env env

theorem isRelation (hP : IsRunProperty @P Q) : IsRelation (m := RunM) (n := RunM) fun x _ => P Q x :=
  ⟨fun a => hP.pure a, fun h hnext => hP.bind h hnext⟩

theorem output (hP : IsRunProperty @P Q) (henv : Answers @P Q env) (locals : Bindings)
    (code : String) : P Q (Template.output env locals code) :=
  Template.related_output hP.isRelation henv hP.fail locals code

theorem execute (hP : IsRunProperty @P Q) (henv : Answers @P Q env) (locals : Bindings)
    (code : String) : P Q (Template.execute env locals code) :=
  Template.related_execute hP.isRelation henv hP.fail locals code

end

/-! ## Names in templates -/

section

variable {w : Workspace} {ctx : Context} {catalogue : Catalogue}

theorem ownerOf (hP : IsRunProperty @P Q) (r : Reference) : P Q (w.ownerOf r) := by
  refine hP.outcome _ fun e he => ?_
  obtain ⟨_, _, rfl⟩ := Registry.ownerOf_error he
  exact hP.cause _

theorem locate (hP : IsRunProperty @P Q) (hread : ReadsWith @P w.root) (r : Reference) :
    P Q (w.locate r) :=
  hP.bind (hP.ownerOf r) fun owner => hP.orMissing (hP.search hread _ r owner) _

theorem evaluate (hP : IsRunProperty @P Q) (hread : ReadsWith @P w.root) (r : Reference) :
    P Q (w.evaluate r) :=
  hP.bind (hP.ownerOf r) fun _ => hP.evaluateWithin hread _ r

theorem call (hP : IsRunProperty @P Q) (hread : ReadsWith @P ctx.workspace.root)
    (hcatalogue : Catalogue.Has @P Q catalogue) (hblock : ∀ r, P Q (ctx.blockOf r)) (name : String)
    (args : Option Args) : P Q (ctx.call catalogue name args) := by
  unfold Context.call
  split
  · next directive hdirective =>
    exact hcatalogue _ (OrderedMap.mem_of_get? hdirective) ctx _ hread hblock
  · split
    · exact hP.evaluate hread _
    · exact hP.fail _

theorem constant (hP : IsRunProperty @P Q) (path : String) : P Q (ctx.constant path) := by
  unfold Context.constant
  split
  · exact hP.pure _
  · split
    · exact hP.pure _
    · exact hP.fail _

theorem callOnConstant (hP : IsRunProperty @P Q) (hread : ReadsWith @P ctx.workspace.root)
    (path method : String) (args : Args) : P Q (ctx.callOnConstant path method args) := by
  unfold Context.callOnConstant
  split
  · exact hP.fail _
  · split
    · exact hP.pure _
    · exact hP.evaluate hread _

theorem env (hP : IsRunProperty @P Q) (hread : ReadsWith @P ctx.workspace.root)
    (hcatalogue : Catalogue.Has @P Q catalogue) (hblock : ∀ r, P Q (ctx.blockOf r)) :
    Answers @P Q (ctx.env catalogue) where
  call := hP.call hread hcatalogue hblock
  constant := hP.constant
  callOnConstant := hP.callOnConstant hread
  settle := hP.ofEval

end

/-! ## The standard directives -/

section

open Directive

variable {ctx : Context} {args : Args}

theorem currentMember (hP : IsRunProperty @P Q) (callee : String) :
    P Q (ctx.currentMember callee) := by
  unfold Context.currentMember
  split
  · exact hP.pure _
  · exact hP.fail _

theorem referenceIn (hP : IsRunProperty @P Q) (args : Args) (callee : String) :
    P Q (ctx.referenceIn args callee) := by
  unfold Context.referenceIn
  split
  · exact hP.currentMember callee
  · exact hP.bind (hP.ofEval _) fun text => hP.ofParse _ _ _

theorem sourceOf (hP : IsRunProperty @P Q) (hread : ReadsWith @P ctx.workspace.root) (r : Reference) :
    P Q (ctx.sourceOf r) :=
  hP.bind (hP.locate hread r) fun _ => hP.pure _

theorem requiredOption (hP : IsRunProperty @P Q) (callee key : String) :
    P Q (Directive.requiredOption args callee key) := by
  unfold Directive.requiredOption
  split
  · exact hP.pure _
  · exact hP.fail _

/-- A directive that only looks at its text argument. -/
theorem ofText (hP : IsRunProperty @P Q) (callee : String)
    (result : Context → Args → String → Value) :
    Directive.Has @P Q (fun ctx args => do return result ctx args (← textArg args 0 callee)) :=
  fun _ _ _ _ => hP.bind (hP.ofEval _) fun _ => hP.pure _

/-- A directive that goes on with the member that it is about. -/
theorem ofReference (hP : IsRunProperty @P Q) (callee : String)
    {next : Context → Args → Reference → RunM Value}
    (h : ∀ ctx args r, ReadsWith @P ctx.workspace.root → P Q (next ctx args r)) :
    Directive.Has @P Q (fun ctx args => do next ctx args (← ctx.referenceIn args callee)) :=
  fun ctx args hread _ => hP.bind (hP.referenceIn args callee) fun r => h ctx args r hread

theorem firstLocated (hP : IsRunProperty @P Q) {w : Workspace} (hread : ReadsWith @P w.root)
    (s : Subject) (members : List Member) : P Q (Directive.firstLocated w s members) := by
  induction members with
  | nil => exact hP.pure _
  | cons m rest ih =>
    refine hP.bind (hP.looked (hP.search hread _ _ _)) fun o => ?_
    split
    · exact hP.pure _
    · exact ih

theorem fileUrl (hP : IsRunProperty @P Q) : Directive.Has @P Q Directive.fileUrl := by
  intro ctx args hread _
  refine hP.bind (hP.ofEval _) fun target => ?_
  dsimp only
  split
  · exact hP.pure _
  · refine hP.bind (hP.ofResolve _ _ _) fun s => ?_
    refine hP.bind (hP.firstLocated hread s _) fun site => ?_
    split
    · exact hP.bind (hP.pure _) fun _ => hP.pure _
    · exact hP.bind (hP.orMissing (hP.searchSubject hread s) _) fun _ => hP.pure _

theorem docBlockOf (hP : IsRunProperty @P Q) : Directive.Has @P Q Directive.docBlockOf := by
  intro ctx args _ hblock
  refine hP.bind (hP.ofEval _) fun text => ?_
  refine hP.bind (hP.ofParse _ _ _) fun r => ?_
  exact hP.bind (hblock r) fun _ => hP.pure _

theorem constantsAsLinks (hP : IsRunProperty @P Q) :
    Directive.Has @P Q Directive.constantsAsLinks := by
  intro ctx args hread _
  unfold Directive.constantsAsLinks
  dsimp only
  split
  · refine hP.bind (hP.currentMember _) fun r => ?_
    exact hP.bind (hP.sourceOf hread r) fun _ => hP.pure _
  · exact hP.bind (hP.ofEval _) fun _ => hP.pure _

theorem sourceAsProse (hP : IsRunProperty @P Q) : Directive.Has @P Q Directive.sourceAsProse := by
  intro ctx args hread _
  unfold Directive.sourceAsProse
  dsimp only
  split
  · exact hP.bind (hP.pure _) fun _ => hP.pure _
  · refine hP.bind (hP.ofParse _ _ _) fun r => ?_
    exact hP.bind (hP.sourceOf hread r) fun _ => hP.pure _
  · refine hP.bind (hP.currentMember _) fun r => ?_
    exact hP.bind (hP.sourceOf hread r) fun _ => hP.pure _

theorem hashTable (hP : IsRunProperty @P Q) : Directive.Has @P Q Directive.hashTable := by
  intro ctx args _ _
  unfold Directive.hashTable
  dsimp only
  split
  · refine hP.bind (hP.requiredOption _ _) fun keyName => ?_
    exact hP.bind (hP.requiredOption _ _) fun _ => hP.pure _
  · exact hP.fail _

theorem arrayTable (hP : IsRunProperty @P Q) : Directive.Has @P Q Directive.arrayTable := by
  intro ctx args _ _
  unfold Directive.arrayTable
  dsimp only
  split
  · exact hP.bind (hP.requiredOption _ _) fun _ => hP.pure _
  · exact hP.fail _

theorem column (hP : IsRunProperty @P Q) (callee : String) (v : Value) :
    P Q (Directive.column callee v) := by
  unfold Directive.column
  split
  · exact hP.pure _
  · exact hP.pure _
  · exact hP.fail _
  · exact hP.pure _

theorem tableHeader (hP : IsRunProperty @P Q) : Directive.Has @P Q Directive.tableHeader := by
  intro ctx args _ _
  unfold Directive.tableHeader
  dsimp only
  split
  · exact hP.bind (hP.mapM _ (hP.column _)) fun _ => hP.pure _
  · exact hP.fail _

/-- The standard directives have the property. -/
theorem standard (hP : IsRunProperty @P Q) : Catalogue.Has @P Q Directive.standard := by
  have hlinkTo : Directive.Has @P Q linkTo := fun _ _ _ _ =>
    hP.bind (hP.ofEval _) fun _ => hP.bind (hP.requiredOption _ _) fun _ => hP.pure _
  have hformatted : Directive.Has @P Q formattedLink := fun _ _ _ _ =>
    hP.bind (hP.ofEval _) fun _ => hP.bind (hP.ofEval _) fun _ => hP.pure _
  simp only [Catalogue.Has, Directive.standard, List.forall_mem_cons]
  exact ⟨hP.ofReference _ fun _ _ r hread => hP.bind (hP.sourceOf hread r) fun _ => hP.pure _,
    hP.ofReference _ fun _ _ r hread => hP.bind (hP.locate hread r) fun _ => hP.pure _,
    hP.docBlockOf, hP.ofReference _ fun _ _ r hread => hP.evaluate hread r, hlinkTo, hformatted,
    hP.ofText _ _, hP.ofReference _ fun _ _ r hread => hP.bind (hP.locate hread r) fun _ => hP.pure _,
    hP.fileUrl, hP.ofReference _ fun _ _ r _ => hP.bind (hP.ownerOf r) fun _ => hP.pure _,
    hP.ofReference _ fun _ _ r _ => hP.bind (hP.ownerOf r) fun _ => hP.pure _, hP.sourceAsProse,
    hP.ofText _ _, hP.ofText _ _, hP.ofText _ _, hP.ofText _ _, hP.ofText _ _, hP.ofText _ _,
    hP.ofText _ _, hP.ofText _ _, hP.ofText _ _, hP.constantsAsLinks, hP.hashTable, hP.arrayTable,
    hP.tableHeader, by simp⟩

end

end IsRunProperty

namespace IsPageProperty

variable {P : ∀ {ε α : Type}, (ε → Prop) → SessionT ε α → Prop}

/-! ## Templates -/

section

variable {env : Env RunM} {w : Workspace} {catalogue : Catalogue}

theorem framed {α : Type} {step : RunM α} (hP : IsPageProperty @P) (h : P anyFailure step)
    (frame : String) : P anyFailure (Template.framed frame step) :=
  hP.adapt _ (fun _ _ => trivial) h

theorem expand (hP : IsPageProperty @P) (henv : IsRunProperty.Answers @P anyFailure env)
    (origin : Template.Origin) (locals : Bindings) (segments : List Template.Segment) :
    P anyFailure (Template.expand origin env locals segments) := by
  induction segments generalizing locals with
  | nil => exact hP.pure _
  | cons segment rest ih =>
    cases segment with
    | text s => exact hP.bind (ih locals) fun _ => hP.pure _
    | output code line =>
      refine hP.bind (hP.framed (hP.output henv locals code) _) fun v => ?_
      exact hP.bind (ih locals) fun _ => hP.pure _
    | exec code line => exact hP.bind (hP.framed (hP.execute henv locals code) _) fun _ => ih _

theorem render (hP : IsPageProperty @P) (henv : IsRunProperty.Answers @P anyFailure env)
    (origin : Template.Origin) (template : String) :
    P anyFailure (Template.render origin env template) := by
  unfold Template.render
  split
  · exact hP.outcome (.error _) fun _ _ => trivial
  · exact hP.expand henv origin [] _

theorem blockOf (hP : IsPageProperty @P) (hread : ReadsWith @P w.root)
    (hcatalogue : Catalogue.Has @P anyFailure catalogue) (levels : Nat) (r : Reference) :
    P anyFailure (w.blockOf catalogue levels r) := by
  induction levels generalizing r with
  | zero => exact hP.fail _
  | succ levels ih =>
    refine hP.bind (hP.ownerOf r) fun owner => ?_
    refine hP.bind (hP.locate hread r) fun site => ?_
    dsimp only
    split
    · exact hP.pure _
    · exact hP.render (hP.env hread hcatalogue ih) _ _

/-- A doc block of a subject. -/
theorem block (hP : IsPageProperty @P) (hread : ReadsWith @P w.root)
    (hcatalogue : Catalogue.Has @P anyFailure catalogue) (s : Subject) (current : Option Reference)
    (origin : Template.Origin) (template : String) :
    P anyFailure (Template.render origin ((w.context catalogue s current).env catalogue) template) :=
  hP.render (hP.env hread hcatalogue (hP.blockOf hread hcatalogue _)) _ _

end

/-! ## Pages -/

section

variable {p : Page.Maker}

theorem references (hP : IsPageProperty @P) (s : Subject) : P anyFailure (p.references s) := by
  unfold Page.Maker.references
  split
  · exact hP.pure _
  · exact hP.filterM _ fun r => hP.bind (hP.ownerOf r) fun _ => hP.pure _

theorem entry (hP : IsPageProperty @P) (hread : ReadsWith @P p.workspace.root)
    (h : Catalogue.Has @P anyFailure p.catalogue) (r : Reference) : P anyFailure (p.entry r) := by
  refine hP.bind (hP.ownerOf r) fun owner => ?_
  refine hP.bind (hP.locate hread r) fun site => ?_
  dsimp only
  split
  · exact hP.pure _
  · exact hP.bind (hP.block hread h _ _ _ _) fun _ => hP.pure _

theorem entryIfFound (hP : IsPageProperty @P) (hread : ReadsWith @P p.workspace.root)
    (h : Catalogue.Has @P anyFailure p.catalogue) (r : Reference) :
    P anyFailure (p.entryIfFound r) := by
  refine hP.tryCatch (hP.entry hread h r) fun e => ?_
  split
  · exact hP.pure _
  · exact hP.outcome (.error e) fun _ _ => trivial

theorem memberEntries (hP : IsPageProperty @P) (hread : ReadsWith @P p.workspace.root)
    (h : Catalogue.Has @P anyFailure p.catalogue) (references : List Reference) (entries : Entries) :
    P anyFailure (p.memberEntries entries references) := by
  induction references generalizing entries with
  | nil => exact hP.pure _
  | cons r rest ih =>
    refine hP.bind (hP.entryIfFound hread h r) fun e => ?_
    split <;> exact ih _

theorem constantEntries (hP : IsPageProperty @P) (hread : ReadsWith @P p.workspace.root)
    (h : Catalogue.Has @P anyFailure p.catalogue) (s : Subject) (constants : List (Subject × Constant))
    (entries : Entries) : P anyFailure (p.constantEntries s entries constants) := by
  induction constants generalizing entries with
  | nil => exact hP.pure _
  | cons c rest ih => exact hP.bind (hP.entryIfFound hread h _) fun doc => ih _

theorem entries (hP : IsPageProperty @P) (hread : ReadsWith @P p.workspace.root)
    (h : Catalogue.Has @P anyFailure p.catalogue) (s : Subject) : P anyFailure (p.entries s) := by
  refine hP.bind (hP.references s) fun references => ?_
  refine hP.bind (hP.memberEntries hread h references []) fun members => ?_
  exact hP.constantEntries hread h s _ _

theorem subjectComment (hP : IsPageProperty @P) (hread : ReadsWith @P p.workspace.root)
    (h : Catalogue.Has @P anyFailure p.catalogue) (s : Subject) :
    P anyFailure (p.subjectComment s) := by
  refine hP.bind (hP.looked (hP.searchSubject hread s)) fun o => ?_
  split
  · exact hP.pure _
  · dsimp only
    split
    · exact hP.pure _
    · exact hP.bind (hP.block hread h _ _ _ _) fun _ => hP.pure _

theorem subjectLink (hP : IsPageProperty @P) (hread : ReadsWith @P p.workspace.root)
    (h : Catalogue.Has @P anyFailure p.catalogue) (s target : Subject) :
    P anyFailure (p.subjectLink s target) :=
  hP.bind (hP.call hread h (hP.blockOf hread h _) _ _) fun _ => hP.pure _

theorem title (hP : IsPageProperty @P) (hread : ReadsWith @P p.workspace.root)
    (h : Catalogue.Has @P anyFailure p.catalogue) (s : Subject) : P anyFailure (p.title s) :=
  hP.bind (hP.mapM _ (hP.subjectLink hread h s)) fun _ => hP.pure _

theorem summary (hP : IsPageProperty @P) (hread : ReadsWith @P p.workspace.root)
    (h : Catalogue.Has @P anyFailure p.catalogue) (s : Subject) : P anyFailure (p.summary s) := by
  unfold Page.Maker.summary
  split
  · exact hP.pure _
  · exact hP.bind (hP.mapM _ (hP.subjectLink hread h s)) fun _ => hP.pure _

/-- The making of a page has the property. -/
theorem page (hP : IsPageProperty @P) (hread : ReadsWith @P p.workspace.root)
    (h : Catalogue.Has @P anyFailure p.catalogue) (s : Subject) : P anyFailure (p.page s) := by
  refine hP.bind (hP.entries hread h s) fun entries => ?_
  refine hP.bind (hP.subjectComment hread h s) fun comment => ?_
  refine hP.bind (hP.title hread h s) fun title => ?_
  refine hP.bind (hP.summary hread h s) fun summary => ?_
  exact hP.bind (hP.outcome _ fun _ _ => trivial) fun text => hP.pure _

end

end IsPageProperty

end DocWeave
