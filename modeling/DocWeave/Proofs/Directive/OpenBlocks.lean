import DocWeave.Proofs.Page.Steps
import DocWeave.Proofs.Stateful

/-!
# Open doc blocks

A doc block may include others, and these may include it again. To tell which blocks are open at a time,
a run is *watched*: it is the same run, and in addition the beginning of each block, of each tag in it and
the end of the block are noted down (`erases_render`). From these notes follow the blocks that are open
after them, each with the tag that is being evaluated. Never are there more than the limit for included
blocks and the block itself, and when a run fails, the trace of the failure is made of the blocks that
are open then (`render_openBlocks`).
-/

namespace DocWeave

/-! ## Watched runs -/

/-- What happens to doc blocks in a run. -/
inductive BlockEvent where
  /-- A doc block is begun. -/
  | opened (origin : Template.Origin)
  /-- A tag of the innermost open block is begun; so many line ends stand before it. -/
  | tag (line : Nat)
  /-- The innermost open block has been expanded. -/
  | closed
deriving DecidableEq, Repr

/-- A step of a watched run. -/
abbrev WatchM := ExceptT Error (StateM (List BlockEvent × Session))

namespace WatchM

/-- Notes an event down. -/
def note (event : BlockEvent) : WatchM Unit :=
  ExceptT.mk fun (log, σ) => (.ok (), (log ++ [event], σ))

/-- A step of a run in which nothing happens to doc blocks. -/
def unwatched {α : Type} (step : RunM α) : WatchM α :=
  ExceptT.mk fun (log, σ) => ((step.run.run σ).1, (log, (step.run.run σ).2))

/-- The text of the segments, each tag being noted down. -/
def expand (origin : Template.Origin) (env : Env WatchM) (locals : Bindings) :
    List Template.Segment → WatchM String
  | [] => return ""
  | .text s :: rest => do return s ++ (← expand origin env locals rest)
  | .output code line :: rest => do
    note (.tag line)
    let v ← Template.framed (origin.frame line) (Template.output env locals code)
    return v.display ++ (← expand origin env locals rest)
  | .exec code line :: rest => do
    note (.tag line)
    let locals ← Template.framed (origin.frame line) (Template.execute env locals code)
    expand origin env locals rest

/-- The text of a doc block, its beginning and its end being noted down. -/
def render (origin : Template.Origin) (env : Env WatchM) (template : String) : WatchM String := do
  note (.opened origin)
  match Template.scan (Template.fillPlaceholder template origin.reference) with
  | .error e => throw ((Error.ofEval e).withFrame (origin.frame 0))
  | .ok segments =>
    let text ← expand origin env [] segments
    note .closed
    return text

end WatchM

namespace Workspace

/-- The context of a subject's documentation in which doc blocks are included `levels` deep. -/
def contextWithin (w : Workspace) (levels : Nat) (s : Subject) (current : Option Reference) : Context :=
  { workspace := w, subject := s, current, blockOf := w.blockOf Directive.standard levels }

/-- What names mean in the doc blocks of a watched run. Only one directive includes doc blocks; the
others are given none. -/
def watchedEnv (w : Workspace) (s : Subject) (current : Option Reference)
    (blockOf : Reference → WatchM String) : Env WatchM where
  call name args :=
    let ctx := w.contextWithin 0 s current
    if name = "print_mark_doc_from" then do
      let text ← WatchM.unwatched (Directive.textArg (args.getD {}) 0 "print_mark_doc_from")
      let r ← WatchM.unwatched (ctx.reference text)
      return .str (← blockOf r)
    else WatchM.unwatched (ctx.call Directive.standard name args)
  constant path := WatchM.unwatched ((w.contextWithin 0 s current).constant path)
  callOnConstant path method args :=
    WatchM.unwatched ((w.contextWithin 0 s current).callOnConstant path method args)
  settle outcome := WatchM.unwatched (RunM.ofEval outcome)

/-- The doc block of a member in a watched run; it may include others `levels` deep. -/
def watchedBlockOf (w : Workspace) : (levels : Nat) → Reference → WatchM String
  | 0, r => throw (.ofEval (.nestedTooDeep includeLimit r.raw))
  | levels + 1, r => do
    let owner ← WatchM.unwatched (w.ownerOf r)
    let site ← WatchM.unwatched (w.locate r)
    let block := site.docBlock w.tokens
    if block.isEmpty then return ""
    let env := w.watchedEnv owner (some (r.placed (some site.file) (some site.line)))
      (w.watchedBlockOf levels)
    WatchM.render (blockOrigin site block r) env block.text

end Workspace

/-! ## The notes can be left out -/

/-- A step of a watched run is a step of a run, apart from the notes. -/
def Erases {α : Type} (watched : WatchM α) (step : RunM α) : Prop :=
  ∀ log σ, ∃ log', watched.run.run (log, σ) = ((step.run.run σ).1, (log', (step.run.run σ).2))

namespace Erases

variable {α β : Type}

theorem pure (a : α) : Erases (pure a) (pure a) := fun log _ => ⟨log, rfl⟩

theorem throw (e : Error) : Erases (throw e : WatchM α) (throw e) := fun log _ => ⟨log, rfl⟩

theorem unwatched (step : RunM α) : Erases (WatchM.unwatched step) step := fun log _ => ⟨log, rfl⟩

theorem bind {watched : WatchM α} {step : RunM α} {wnext : α → WatchM β} {next : α → RunM β}
    (h : Erases watched step) (hnext : ∀ a, Erases (wnext a) (next a)) :
    Erases (watched >>= wnext) (step >>= next) := by
  intro log σ
  obtain ⟨log', hrun⟩ := h log σ
  rw [Stateful.run_bind, Stateful.run_bind, hrun]
  rcases step.run.run σ with ⟨o, τ⟩
  cases o with
  | error e => exact ⟨log', rfl⟩
  | ok a => exact hnext a log' τ

theorem note {watched : WatchM α} {step : RunM α} (event : BlockEvent) (h : Erases watched step) :
    Erases (WatchM.note event >>= fun _ => watched) step := by
  intro log σ
  rw [Stateful.run_bind]
  exact h (log ++ [event]) σ

theorem framed {watched : WatchM α} {step : RunM α} (frame : String) (h : Erases watched step) :
    Erases (Template.framed frame watched) (Template.framed frame step) := by
  intro log σ
  obtain ⟨log', hrun⟩ := h log σ
  refine ⟨log', ?_⟩
  rw [Template.framed, Template.framed, Stateful.run_adapt, Stateful.run_adapt, hrun]

theorem isRelation : IsRelation (m := WatchM) (n := RunM) fun x y => Erases x y :=
  ⟨pure, bind⟩

section

variable {wenv : Env WatchM} {env : Env RunM}

theorem expand (henv : Env.Related (fun x y => Erases x y) wenv env) (origin : Template.Origin)
    (locals : Bindings) (segments : List Template.Segment) :
    Erases (WatchM.expand origin wenv locals segments) (Template.expand origin env locals segments) := by
  induction segments generalizing locals with
  | nil => exact pure _
  | cons segment rest ih =>
    cases segment with
    | text s => exact (ih locals).bind fun _ => pure _
    | output code line =>
      have htag := Template.related_output isRelation henv (fun _ => throw _) locals code
      exact note _ ((htag.framed _).bind fun _ => (ih locals).bind fun _ => pure _)
    | exec code line =>
      have htag := Template.related_execute isRelation henv (fun _ => throw _) locals code
      exact note _ ((htag.framed _).bind fun _ => ih _)

theorem render (henv : Env.Related (fun x y => Erases x y) wenv env) (origin : Template.Origin)
    (template : String) :
    Erases (WatchM.render origin wenv template) (Template.render origin env template) := by
  refine note _ ?_
  rw [Template.render]
  cases Template.scan (Template.fillPlaceholder template origin.reference) with
  | error e => exact throw _
  | ok segments =>
    dsimp only
    rw [← bind_pure (Template.expand origin env [] segments)]
    exact (expand henv origin [] segments).bind fun text => note _ (pure text)

end

end Erases

/-- A directive other than the one that includes doc blocks does not look at them. -/
theorem Directive.standard_blockless (ctx : Context) (blockOf : Reference → RunM String) :
    ∀ entry ∈ Directive.standard, entry.1 ≠ "print_mark_doc_from" →
      ∀ args, entry.2 ctx args = entry.2 { ctx with blockOf } args := by
  simp only [Directive.standard, List.forall_mem_cons]
  exact ⟨fun _ _ => rfl, fun _ _ => rfl, fun h => absurd rfl h, fun _ _ => rfl, fun _ _ => rfl,
    fun _ _ => rfl, fun _ _ => rfl, fun _ _ => rfl, fun _ _ => rfl, fun _ _ => rfl, fun _ _ => rfl,
    fun _ _ => rfl, fun _ _ => rfl, fun _ _ => rfl, fun _ _ => rfl, fun _ _ => rfl, fun _ _ => rfl,
    fun _ _ => rfl, fun _ _ => rfl, fun _ _ => rfl, fun _ _ => rfl, fun _ _ => rfl, fun _ _ => rfl,
    fun _ _ => rfl, fun _ _ => rfl, by simp⟩

namespace Workspace

variable (w : Workspace) (s : Subject) (current : Option Reference)

theorem call_blockless (levels : Nat) {name : String} (hname : name ≠ "print_mark_doc_from")
    (args : Option Args) :
    (w.contextWithin levels s current).call Directive.standard name args =
      (w.contextWithin 0 s current).call Directive.standard name args := by
  unfold Context.call
  split
  · next directive hget =>
    exact Directive.standard_blockless _ _ _ (OrderedMap.mem_of_get? hget) hname _
  · rfl

/-- Names mean in a watched run what they mean in a run. -/
theorem erases_env {levels : Nat}
    (h : ∀ r, Erases (w.watchedBlockOf levels r) (w.blockOf Directive.standard levels r)) :
    Env.Related (fun x y => Erases x y) (w.watchedEnv s current (w.watchedBlockOf levels))
      ((w.contextWithin levels s current).env Directive.standard) where
  call name args := by
    show Erases (ite _ _ _) ((w.contextWithin levels s current).call Directive.standard name args)
    split
    · next hname =>
      subst hname
      have hget : OrderedMap.get? Directive.standard "print_mark_doc_from" =
          some Directive.docBlockOf := rfl
      have hcall : (w.contextWithin levels s current).call Directive.standard "print_mark_doc_from" args =
          Directive.docBlockOf (w.contextWithin levels s current) (args.getD {}) := by
        unfold Context.call
        rw [hget]
      rw [hcall]
      exact (Erases.unwatched _).bind fun text => (Erases.unwatched _).bind fun r =>
        (h r).bind fun _ => .pure _
    · next hname =>
      rw [call_blockless w s current levels hname]
      exact .unwatched _
  constant path := .unwatched _
  callOnConstant path method args := .unwatched _
  settle outcome := .unwatched _

theorem erases_blockOf (levels : Nat) (r : Reference) :
    Erases (w.watchedBlockOf levels r) (w.blockOf Directive.standard levels r) := by
  induction levels generalizing r with
  | zero => exact .throw _
  | succ levels ih =>
    refine (Erases.unwatched _).bind fun owner => (Erases.unwatched _).bind fun site => ?_
    dsimp only
    split
    · exact .pure _
    · exact .render (erases_env w owner _ ih) _ _

/-- A watched doc block is expanded as any other. -/
theorem erases_render (origin : Template.Origin) (template : String) :
    Erases (WatchM.render origin (w.watchedEnv s current (w.watchedBlockOf includeLimit)) template)
      (Template.render origin ((w.context Directive.standard s current).env Directive.standard) template) :=
  .render (erases_env w s current (erases_blockOf w includeLimit)) origin template

end Workspace

/-! ## Causes outside doc blocks -/

/-- The failures of a step are of some kind. -/
def FailsWith {ε α : Type} (F : ε → Prop) (step : SessionT ε α) : Prop :=
  ∀ σ e, (step.run.run σ).1 = .error e → F e

/-- The failure has not passed a doc block. -/
def Error.Untraced (e : Error) : Prop := e.trace = []

namespace FailsWith

theorem bind {ε α β : Type} {F : ε → Prop} {step : SessionT ε α} {next : α → SessionT ε β}
    (h : FailsWith F step) (hnext : ∀ a, FailsWith F (next a)) : FailsWith F (step >>= next) := by
  intro σ e he
  have hstep := h σ
  rw [Stateful.run_bind] at he
  rcases hs : step.run.run σ with ⟨o, τ⟩
  rw [hs] at hstep he
  cases o with
  | error e' => exact hstep e (congrArg Except.error (Except.error.inj he))
  | ok a => exact hnext a τ e he

theorem adapt {ε ε' α : Type} {F : ε → Prop} {F' : ε' → Prop} {step : SessionT ε α}
    (rename : ε → ε') (hrename : ∀ e, F e → F' (rename e)) (h : FailsWith F step) :
    FailsWith F' (ExceptT.adapt rename step : SessionT ε' α) := by
  intro σ e he
  have hstep := h σ
  rw [Stateful.run_adapt] at he
  rcases hs : step.run.run σ with ⟨o, τ⟩
  rw [hs] at hstep he
  cases o with
  | error e' =>
    cases he
    exact hrename e' (hstep e' rfl)
  | ok a => cases he

/-- What is told here of failures goes along with the steps of a run. -/
theorem isRunProperty : IsRunProperty @FailsWith Error.Untraced where
  pure _ := fun _ _ => nofun
  bind := bind
  outcome _ h := fun _ e he => h e he
  adapt := adapt
  looked _ := fun _ _ => nofun
  attempt _ := fun _ _ => nofun
  cause _ := rfl

theorem readsWith (root : String) : ReadsWith @FailsWith root :=
  ⟨fun _ _ _ _ => trivial, fun _ _ _ _ => trivial⟩

end FailsWith

/-! ## The open blocks -/

/-- A doc block that is open, and the tag in it that is being evaluated. -/
structure OpenBlock where
  origin : Template.Origin
  /-- The line ends before the tag. -/
  line : Nat
deriving DecidableEq, Repr

/-- The place in the block. -/
def OpenBlock.frame (b : OpenBlock) : String := b.origin.frame b.line

/-- The open blocks after an event, the innermost first. -/
def BlockEvent.after : BlockEvent → List OpenBlock → List OpenBlock
  | .opened origin, blocks => ⟨origin, 0⟩ :: blocks
  | .tag line, b :: blocks => ⟨b.origin, line⟩ :: blocks
  | .closed, _ :: blocks => blocks
  | _, [] => []

/-- The open blocks after some events. -/
def openAfter (blocks : List OpenBlock) (events : List BlockEvent) : List OpenBlock :=
  events.foldl (fun blocks event => event.after blocks) blocks

/-- The greatest number of blocks that are open at a time. -/
def mostOpen (blocks : List OpenBlock) : List BlockEvent → Nat
  | [] => blocks.length
  | event :: events => max blocks.length (mostOpen (event.after blocks) events)

section

variable {blocks : List OpenBlock}

@[simp] theorem openAfter_nil : openAfter blocks [] = blocks := rfl

@[simp] theorem openAfter_cons (event : BlockEvent) (events : List BlockEvent) :
    openAfter blocks (event :: events) = openAfter (event.after blocks) events := rfl

@[simp] theorem openAfter_append (front back : List BlockEvent) :
    openAfter blocks (front ++ back) = openAfter (openAfter blocks front) back :=
  List.foldl_append

theorem length_le_mostOpen (events : List BlockEvent) : blocks.length ≤ mostOpen blocks events := by
  cases events with
  | nil => exact Nat.le_refl _
  | cons event events => exact Nat.le_max_left _ _

theorem mostOpen_append (front back : List BlockEvent) :
    mostOpen blocks (front ++ back) =
      max (mostOpen blocks front) (mostOpen (openAfter blocks front) back) := by
  induction front generalizing blocks with
  | nil => exact (Nat.max_eq_right (length_le_mostOpen back)).symm
  | cons event front ih =>
    rw [List.cons_append, mostOpen, ih, mostOpen, openAfter_cons, Nat.max_assoc]

theorem length_openAfter_le (events : List BlockEvent) :
    (openAfter blocks events).length ≤ mostOpen blocks events := by
  induction events generalizing blocks with
  | nil => exact Nat.le_refl _
  | cons event events ih => exact Nat.le_trans ih (Nat.le_max_right _ _)

end

/-! ## Steps inside a block -/

/-- A step ends with an outcome in a session after it has noted some events down. -/
def Notes {α : Type} (step : WatchM α) (log : List BlockEvent) (σ : Session) (o : Except Error α)
    (events : List BlockEvent) (τ : Session) : Prop :=
  step.run.run (log, σ) = (o, (log ++ events, τ))

section

variable {α β : Type} {step : WatchM α} {next : α → WatchM β} {log front back : List BlockEvent}
  {σ τ υ : Session}

theorem Notes.outcome (o : Except Error α) (log : List BlockEvent) (σ : Session) :
    Notes (ExceptT.mk (pure o)) log σ o [] σ := by
  rw [Notes, List.append_nil]
  rfl

theorem Notes.bind_ok {a : α} {o : Except Error β} (h : Notes step log σ (.ok a) front τ)
    (hnext : Notes (next a) (log ++ front) τ o back υ) :
    Notes (step >>= next) log σ o (front ++ back) υ := by
  rw [Notes, Stateful.run_bind, h, ← List.append_assoc]
  exact hnext

theorem Notes.bind_error {e : Error} (h : Notes step log σ (.error e) front τ) :
    Notes (step >>= next) log σ (.error e) front τ := by
  rw [Notes, Stateful.run_bind, h]

theorem Notes.note (event : BlockEvent) (log : List BlockEvent) (σ : Session) :
    Notes (WatchM.note event) log σ (.ok ()) [event] σ := rfl

theorem Notes.framed {o : Except Error α} (frame : String) (h : Notes step log σ o front τ) :
    Notes (Template.framed frame step) log σ (o.mapError (Error.withFrame frame)) front τ := by
  rw [Notes, Template.framed, Stateful.run_adapt, h]

end

/-- At most `n` blocks are open at a time inside the step. It leaves the blocks that were open as they
were; if it fails, the blocks inside that its failure names are left open. -/
def Within {α : Type} (n : Nat) (step : WatchM α) : Prop :=
  ∀ log σ, ∃ o events τ, Notes step log σ o events τ ∧ ∀ blocks,
    mostOpen blocks events ≤ blocks.length + n ∧
    match o with
    | .ok _ => openAfter blocks events = blocks
    | .error e => ∃ inner, openAfter blocks events = inner ++ blocks ∧
        e.trace = inner.reverse.map OpenBlock.frame

/-- The step is one of an open block: it may go on to another tag of the block, at most `n` blocks are
open at a time inside, and if it fails, its failure names the block as well. -/
def WithinBlock {α : Type} (n : Nat) (origin : Template.Origin) (step : WatchM α) : Prop :=
  ∀ log σ, ∃ o events τ, Notes step log σ o events τ ∧ ∀ line blocks,
    mostOpen (⟨origin, line⟩ :: blocks) events ≤ blocks.length + 1 + n ∧
    match o with
    | .ok _ => ∃ line', openAfter (⟨origin, line⟩ :: blocks) events = ⟨origin, line'⟩ :: blocks
    | .error e => ∃ inner line',
        openAfter (⟨origin, line⟩ :: blocks) events = inner ++ ⟨origin, line'⟩ :: blocks ∧
          e.trace = origin.frame line' :: inner.reverse.map OpenBlock.frame

namespace Within

variable {α β : Type} {n : Nat}

theorem pure (a : α) : Within n (pure a : WatchM α) := fun log σ =>
  ⟨.ok a, [], σ, .outcome _ log σ, fun _ => ⟨Nat.le_add_right _ _, rfl⟩⟩

theorem unwatched {step : RunM α} (h : FailsWith Error.Untraced step) :
    Within n (WatchM.unwatched step) := by
  intro log σ
  refine ⟨(step.run.run σ).1, [], (step.run.run σ).2, ?_, fun blocks => ⟨Nat.le_add_right _ _, ?_⟩⟩
  · rw [Notes, List.append_nil]
    rfl
  · cases ho : (step.run.run σ).1 with
    | ok a => rfl
    | error e => exact ⟨[], rfl, h σ e ho⟩

theorem fail (fault : Fault) : Within n (throw (.of fault) : WatchM α) := fun log σ =>
  ⟨.error (.of fault), [], σ, .outcome _ log σ, fun _ => ⟨Nat.le_add_right _ _, [], rfl, rfl⟩⟩

theorem bind {step : WatchM α} {next : α → WatchM β} (h : Within n step)
    (hnext : ∀ a, Within n (next a)) : Within n (step >>= next) := by
  intro log σ
  obtain ⟨o, front, τ, hstep, hfront⟩ := h log σ
  cases o with
  | error e => exact ⟨.error e, front, τ, hstep.bind_error, hfront⟩
  | ok a =>
    obtain ⟨o, back, υ, hrest, hback⟩ := hnext a (log ++ front) τ
    refine ⟨o, front ++ back, υ, hstep.bind_ok hrest, fun blocks => ?_⟩
    obtain ⟨hmost, hopen⟩ := hfront blocks
    dsimp only at hopen
    rw [mostOpen_append, openAfter_append, hopen]
    exact ⟨Nat.max_le.mpr ⟨hmost, (hback blocks).1⟩, (hback blocks).2⟩

theorem isRelation : IsRelation (m := WatchM) (n := WatchM) fun x _ => Within n x :=
  ⟨fun a => pure a, fun h hnext => h.bind hnext⟩

/-- A tag of an open block: the failure of its evaluation is marked with its place. -/
theorem tag {step : WatchM α} (h : Within n step) (origin : Template.Origin) (line : Nat) :
    WithinBlock n origin (WatchM.note (.tag line) >>= fun _ =>
      Template.framed (origin.frame line) step) := by
  intro log σ
  obtain ⟨o, events, τ, hstep, hevents⟩ := h (log ++ [.tag line]) σ
  refine ⟨_, .tag line :: events, τ, (Notes.note _ log σ).bind_ok (hstep.framed _),
    fun old blocks => ?_⟩
  obtain ⟨hmost, hopen⟩ := hevents (⟨origin, line⟩ :: blocks)
  rw [mostOpen, openAfter_cons, BlockEvent.after]
  refine ⟨Nat.max_le.mpr ⟨by simp, hmost⟩, ?_⟩
  cases o with
  | ok a => exact ⟨line, hopen⟩
  | error e =>
    obtain ⟨inner, hinner, htrace⟩ := hopen
    exact ⟨inner, line, hinner, congrArg (origin.frame line :: ·) htrace⟩

end Within

namespace WithinBlock

variable {α β : Type} {n : Nat} {origin : Template.Origin}

theorem pure (a : α) : WithinBlock n origin (pure a : WatchM α) := fun log σ =>
  ⟨.ok a, [], σ, .outcome _ log σ, fun line _ => ⟨Nat.le_add_right _ _, line, rfl⟩⟩

theorem bind {step : WatchM α} {next : α → WatchM β} (h : WithinBlock n origin step)
    (hnext : ∀ a, WithinBlock n origin (next a)) : WithinBlock n origin (step >>= next) := by
  intro log σ
  obtain ⟨o, front, τ, hstep, hfront⟩ := h log σ
  cases o with
  | error e => exact ⟨.error e, front, τ, hstep.bind_error, hfront⟩
  | ok a =>
    obtain ⟨o, back, υ, hrest, hback⟩ := hnext a (log ++ front) τ
    refine ⟨o, front ++ back, υ, hstep.bind_ok hrest, fun line blocks => ?_⟩
    obtain ⟨hmost, line', hopen⟩ := hfront line blocks
    rw [mostOpen_append, openAfter_append, hopen]
    exact ⟨Nat.max_le.mpr ⟨hmost, (hback line' blocks).1⟩, (hback line' blocks).2⟩

end WithinBlock

/-! ## Doc blocks -/

section

variable {n : Nat} {env : Env WatchM}

theorem WithinBlock.expand (henv : Env.Related (fun x _ => Within n x) env env)
    (origin : Template.Origin) (locals : Bindings) (segments : List Template.Segment) :
    WithinBlock n origin (WatchM.expand origin env locals segments) := by
  induction segments generalizing locals with
  | nil => exact .pure _
  | cons segment rest ih =>
    cases segment with
    | text s => exact (ih locals).bind fun _ => .pure _
    | output code line =>
      have htag := Template.related_output Within.isRelation henv Within.fail locals code
      rw [WatchM.expand, ← bind_assoc]
      exact (htag.tag origin line).bind fun _ => (ih locals).bind fun _ => .pure _
    | exec code line =>
      have htag := Template.related_execute Within.isRelation henv Within.fail locals code
      rw [WatchM.expand, ← bind_assoc]
      exact (htag.tag origin line).bind fun _ => ih _

/-- What a doc block notes down begins with the block, and it has one more block open than is open inside
its tags. -/
theorem Within.render_notes (henv : Env.Related (fun x _ => Within n x) env env)
    (origin : Template.Origin) (template : String) (log : List BlockEvent) (σ : Session) :
    ∃ o events τ, Notes (WatchM.render origin env template) log σ o (.opened origin :: events) τ ∧
      ∀ blocks, mostOpen blocks (.opened origin :: events) ≤ blocks.length + (n + 1) ∧
        match o with
        | .ok _ => openAfter blocks (.opened origin :: events) = blocks
        | .error e => ∃ inner line,
            openAfter blocks (.opened origin :: events) = inner ++ ⟨origin, line⟩ :: blocks ∧
              e.trace = origin.frame line :: inner.reverse.map OpenBlock.frame := by
  have hopened := Notes.note (.opened origin) log σ
  unfold WatchM.render
  cases Template.scan (Template.fillPlaceholder template origin.reference) with
  | error fault =>
    refine ⟨_, [], σ, hopened.bind_ok (.outcome (.error _) _ σ), fun blocks => ⟨?_, [], 0, rfl, rfl⟩⟩
    simp only [mostOpen, BlockEvent.after, List.length_cons]
    omega
  | ok segments =>
    obtain ⟨o, events, τ, hexpand, hevents⟩ :=
      WithinBlock.expand henv origin [] segments (log ++ [.opened origin]) σ
    have hmost : ∀ blocks, mostOpen blocks (.opened origin :: events) ≤ blocks.length + (n + 1) := by
      intro blocks
      have hinside := (hevents 0 blocks).1
      simp only [mostOpen, BlockEvent.after]
      omega
    cases o with
    | error e =>
      exact ⟨.error e, events, τ, hopened.bind_ok hexpand.bind_error,
        fun blocks => ⟨hmost blocks, (hevents 0 blocks).2⟩⟩
    | ok text =>
      have hclosed : Notes (WatchM.note .closed >>= fun _ => Pure.pure text)
          (log ++ [.opened origin] ++ events) τ (.ok text) [.closed] τ :=
        (Notes.note .closed _ τ).bind_ok (.outcome (.ok text) _ τ)
      refine ⟨.ok text, events ++ [.closed], τ, hopened.bind_ok (hexpand.bind_ok hclosed),
        fun blocks => ?_⟩
      obtain ⟨line, hline⟩ := (hevents 0 blocks).2
      have hblocks : openAfter blocks (.opened origin :: events) = ⟨origin, line⟩ :: blocks := hline
      rw [← List.cons_append, mostOpen_append, openAfter_append, hblocks]
      refine ⟨Nat.max_le.mpr ⟨hmost blocks, ?_⟩, rfl⟩
      simp only [mostOpen, BlockEvent.after, List.length_cons]
      omega

/-- A doc block is a step with one more block inside. -/
theorem Within.render (henv : Env.Related (fun x _ => Within n x) env env) (origin : Template.Origin)
    (template : String) : Within (n + 1) (WatchM.render origin env template) := by
  intro log σ
  obtain ⟨o, events, τ, hnotes, hevents⟩ := Within.render_notes henv origin template log σ
  refine ⟨o, _, τ, hnotes, fun blocks => ⟨(hevents blocks).1, ?_⟩⟩
  have hopen := (hevents blocks).2
  cases o with
  | ok text => exact hopen
  | error e =>
    obtain ⟨inner, line, hinner, htrace⟩ := hopen
    refine ⟨inner ++ [⟨origin, line⟩], by rw [hinner, List.append_cons], ?_⟩
    rw [htrace, List.reverse_append, List.map_append]
    rfl

end

namespace Workspace

variable (w : Workspace)

/-- Names that include no doc block fail outside all doc blocks. -/
theorem within_env (s : Subject) (current : Option Reference) {n : Nat}
    {blockOf : Reference → WatchM String} (h : ∀ r, Within n (blockOf r)) :
    Env.Related (fun x _ => Within n x) (w.watchedEnv s current blockOf)
      (w.watchedEnv s current blockOf) := by
  have hP := FailsWith.isRunProperty
  have hread := FailsWith.readsWith w.root
  have hblock : ∀ r, FailsWith Error.Untraced (w.blockOf Directive.standard 0 r) := fun r => hP.fail _
  constructor
  · intro name args
    show Within n (ite _ _ _)
    split
    · exact (Within.unwatched (hP.ofEval _)).bind fun text =>
        (Within.unwatched (hP.ofParse _ _ _)).bind fun r => (h r).bind fun _ => .pure _
    · have hcall : FailsWith Error.Untraced
          ((w.contextWithin 0 s current).call Directive.standard name args) :=
        hP.call hread hP.standard hblock name args
      exact .unwatched hcall
  · exact fun path => .unwatched (hP.constant path)
  · exact fun path method args => .unwatched (hP.callOnConstant hread path method args)
  · exact fun outcome => .unwatched (hP.ofEval outcome)

theorem within_blockOf (levels : Nat) (r : Reference) : Within levels (w.watchedBlockOf levels r) := by
  have hP := FailsWith.isRunProperty
  induction levels generalizing r with
  | zero => exact .fail _
  | succ levels ih =>
    refine (Within.unwatched (hP.ownerOf r)).bind fun owner => ?_
    refine (Within.unwatched (hP.locate (FailsWith.readsWith _) r)).bind fun site => ?_
    dsimp only
    split
    · exact .pure _
    · exact .render (w.within_env _ _ ih) _ _

/-- Expanding a doc block comes to an end, and what happens to doc blocks in the meantime can be noted
down without any effect on it. By these notes the block itself is opened first, never are more than
sixteen others open inside it, and in the end none is, unless the block fails. Then the trace of the
failure is made of the blocks that are open, from the outermost, which is the block itself, to the one in
which the failure arose: at least one and at most seventeen. -/
theorem render_openBlocks (s : Subject) (current : Option Reference) (origin : Template.Origin)
    (template : String) (σ : Session) :
    ∃ o log τ,
      (WatchM.render origin (w.watchedEnv s current (w.watchedBlockOf includeLimit)) template).run.run
        ([], σ) = (o, (log, τ)) ∧
      (Template.render origin ((w.context Directive.standard s current).env Directive.standard)
        template).run.run σ = (o, τ) ∧
      log.head? = some (.opened origin) ∧ mostOpen [] log ≤ 1 + 16 ∧
      (∀ text, o = .ok text → openAfter [] log = []) ∧
      ∀ e, o = .error e →
        e.trace = (openAfter [] log).reverse.map OpenBlock.frame ∧
        ((openAfter [] log).getLast?.map OpenBlock.origin) = some origin ∧
        1 ≤ e.trace.length ∧ e.trace.length ≤ 17 := by
  have henv := w.within_env s current (w.within_blockOf includeLimit)
  obtain ⟨o, events, τ, hnotes, hevents⟩ := Within.render_notes henv origin template [] σ
  obtain ⟨log, herased⟩ := w.erases_render s current origin template [] σ
  obtain ⟨hmost, hopen⟩ := hevents []
  have hrun : (Template.render origin ((w.context Directive.standard s current).env Directive.standard)
      template).run.run σ = (o, τ) := by
    obtain ⟨ho, hrest⟩ := Prod.mk.inj (herased.symm.trans hnotes)
    exact Prod.ext ho (Prod.mk.inj hrest).2
  refine ⟨o, .opened origin :: events, τ, hnotes, hrun, rfl, hmost, ?_, ?_⟩
  · rintro text rfl
    exact hopen
  · rintro e rfl
    obtain ⟨inner, line, hinner, htrace⟩ := hopen
    have hlength : (openAfter [] (.opened origin :: events)).length ≤ 17 :=
      Nat.le_trans (length_openAfter_le _) hmost
    rw [hinner] at hlength ⊢
    refine ⟨?_, ?_, ?_, ?_⟩
    · rw [htrace, List.reverse_append, List.map_append]
      rfl
    · rw [List.getLast?_concat]
      rfl
    · rw [htrace]
      exact Nat.succ_pos _
    · rw [htrace, List.length_cons, List.length_map, List.length_reverse]
      simpa using hlength

end Workspace

end DocWeave
