import DocWeave.Proofs.Registry.Lookup
import DocWeave.Proofs.Stateful
import DocWeave.Run
import Mathlib.Data.List.Perm.Basic
import Mathlib.Logic.Relation

/-!
# Schedules of a run

The workers of a run go through their batches side by side. Each makes the page of its next subject and
then hands it on; which worker takes the next step is left open. A *schedule* is any order of such steps
that brings every worker to its end. In each schedule every subject has its page handed on once
(`handed_perm`), and the order in which a run makes its pages is a schedule (`schedule_of_pages`).
-/

namespace DocWeave.Run

/-- A worker on its way: the page that it has made and not yet handed on, and the subjects before it. -/
structure Worker where
  page : Option Page := none
  todo : List Subject

/-- A run on its way. -/
structure Progress where
  workers : List Worker
  session : Session
  /-- The pages that were handed on, in this order. -/
  handed : List Page

/-- One step of one worker. -/
inductive Step (run : Run) (sink : Sink) : Progress → Progress → Prop
  /-- A worker makes a page. -/
  | make {before after : List Worker} {s : Subject} {todo : List Subject} {page : Page}
      {σ τ : Session} {handed : List Page} (h : (run.maker.page s).run.run σ = (.ok page, τ)) :
      Step run sink ⟨before ++ ⟨none, s :: todo⟩ :: after, σ, handed⟩
        ⟨before ++ ⟨some page, todo⟩ :: after, τ, handed⟩
  /-- A worker hands on the page that it has made. -/
  | hand {before after : List Worker} {todo : List Subject} {page : Page} {σ τ : Session}
      {handed : List Page} (h : (sink.put page.subject page.text).run.run σ = (.ok (), τ)) :
      Step run sink ⟨before ++ ⟨some page, todo⟩ :: after, σ, handed⟩
        ⟨before ++ ⟨none, todo⟩ :: after, τ, handed ++ [page]⟩

/-- Any number of steps. -/
abbrev Steps (run : Run) (sink : Sink) : Progress → Progress → Prop :=
  Relation.ReflTransGen (Step run sink)

/-- Every worker has its batch before it. -/
def start (run : Run) (σ : Session) : Progress :=
  ⟨run.batches.map fun batch => ⟨none, batch⟩, σ, []⟩

/-- No worker has anything left to do. -/
def Progress.Done (p : Progress) : Prop := ∀ w ∈ p.workers, w = ⟨none, []⟩

/-- The run comes from a session to its end by some schedule. -/
def Schedule (run : Run) (sink : Sink) (σ : Session) (last : Progress) : Prop :=
  Steps run sink (run.start σ) last ∧ last.Done

/-! ## Every subject once -/

theorem flatten_batchesOf {α : Type} (size : Nat) (items : List α) :
    (batchesOf size items).flatten = items := by
  fun_induction batchesOf size items with
  | case1 => rfl
  | case2 a rest ih => rw [List.flatten_cons, ih, List.cons_append, List.take_append_drop]

/-- The page of a subject bears its name. -/
theorem subject_of_page {maker : Page.Maker} {s : Subject} {page : Page} {σ τ : Session}
    (h : (maker.page s).run.run σ = (.ok page, τ)) : page.subject = s.name := by
  obtain ⟨entries, _, -, h⟩ := Stateful.run_bind_eq_ok h
  obtain ⟨comment, _, -, h⟩ := Stateful.run_bind_eq_ok h
  obtain ⟨title, _, -, h⟩ := Stateful.run_bind_eq_ok h
  obtain ⟨summary, _, -, h⟩ := Stateful.run_bind_eq_ok h
  obtain ⟨text, _, -, h⟩ := Stateful.run_bind_eq_ok h
  cases h
  rfl

/-- The subjects whose pages a worker has not handed on. -/
def Worker.names (w : Worker) : List String :=
  w.page.toList.map (·.subject) ++ w.todo.map (·.name)

/-- The subjects whose pages were handed on and those whose pages were not. -/
def Progress.names (p : Progress) : List String :=
  p.handed.map (·.subject) ++ p.workers.flatMap Worker.names

/-- No step loses a subject or makes one twice. -/
theorem Step.names_perm {run : Run} {sink : Sink} {p q : Progress} (h : Step run sink p q) :
    q.names.Perm p.names := by
  cases h with
  | make hmake => simp [Progress.names, Worker.names, subject_of_page hmake]
  | @hand before after todo page σ τ handed hput =>
    simp only [Progress.names, Worker.names, List.map_append, List.flatMap_append,
      List.flatMap_cons, List.append_assoc, Option.toList_some, Option.toList_none, List.map_cons,
      List.map_nil, List.nil_append, List.cons_append]
    refine List.Perm.append_left _ ?_
    exact List.perm_middle.symm

theorem flatten_batches (run : Run) :
    run.batches.flatten = run.maker.workspace.registry.subjects :=
  flatten_batchesOf _ _

theorem names_start (run : Run) (σ : Session) :
    (run.start σ).names = run.maker.workspace.registry.subjects.map (·.name) := by
  calc (run.start σ).names
      = (run.batches.map (List.map (·.name))).flatten := by
        simp [start, Progress.names, Worker.names, List.flatMap_def, Function.comp_def]
    _ = run.batches.flatten.map (·.name) := List.map_flatten.symm
    _ = run.maker.workspace.registry.subjects.map (·.name) := by rw [flatten_batches]

theorem names_done {p : Progress} (h : p.Done) : p.names = p.handed.map (·.subject) := by
  have hworkers : p.workers.flatMap Worker.names = [] := by
    rw [List.flatMap_eq_nil_iff]
    intro w hw
    rw [h w hw]
    rfl
  rw [Progress.names, hworkers, List.append_nil]

/-- Each subject has its page handed on once, whatever the schedule. -/
theorem handed_perm {run : Run} {sink : Sink} {σ : Session} {last : Progress}
    (h : Schedule run sink σ last) :
    (last.handed.map (·.subject)).Perm
      (run.maker.workspace.registry.subjects.map (·.name)) := by
  have hsteps : last.names.Perm (run.start σ).names := by
    obtain ⟨hsteps, -⟩ := h
    induction hsteps with
    | refl => exact List.Perm.refl _
    | tail _ hstep ih => exact hstep.names_perm.trans ih
  rwa [names_done h.2, names_start] at hsteps

/-- In a registry of distinct names each subject has one page. -/
theorem existsUnique_page {run : Run} {sink : Sink} {σ : Session} {last : Progress}
    (h : Schedule run sink σ last) (hdistinct : run.maker.workspace.registry.Distinct)
    {s : Subject} (hs : s ∈ run.maker.workspace.registry.subjects) :
    ∃! page, page ∈ last.handed ∧ page.subject = s.name := by
  have hperm := handed_perm h
  have hname : s.name ∈ last.handed.map (·.subject) :=
    hperm.mem_iff.mpr (List.mem_map_of_mem hs)
  have hnodup : (last.handed.map (·.subject)).Nodup := hperm.nodup_iff.mpr hdistinct
  obtain ⟨page, hpage, hsubject⟩ := List.mem_map.mp hname
  refine ⟨page, ⟨hpage, hsubject⟩, fun other hother => ?_⟩
  exact List.inj_on_of_nodup_map hnodup hother.1 hpage (hother.2.trans hsubject.symm)

/-! ## The order of the subjects is a schedule -/

/-- A page that is made and handed on. -/
theorem make_run {run : Run} {sink : Sink} {s : Subject} {page : Page} {ρ σ τ : Session}
    (hpage : (run.maker.page s).run.run ρ = (.ok page, σ))
    (hput : (sink.put page.subject page.text).run.run σ = (.ok (), τ)) :
    (run.make sink s).run.run ρ = (.ok page, τ) := by
  rw [make, Stateful.run_bind, hpage]
  dsimp only
  rw [Stateful.run_bind, hput]
  rfl

section

variable {run : Run} {sink : Sink} {σ τ : Session} (before after : List Worker) (handed : List Page)

theorem steps_of_make {s : Subject} {todo : List Subject} {page : Page}
    (h : (run.make sink s).run.run σ = (.ok page, τ)) :
    Steps run sink ⟨before ++ ⟨none, s :: todo⟩ :: after, σ, handed⟩
      ⟨before ++ ⟨none, todo⟩ :: after, τ, handed ++ [page]⟩ := by
  obtain ⟨made, ρ, hmade, h⟩ := Stateful.run_bind_eq_ok h
  obtain ⟨_, υ, hput, h⟩ := Stateful.run_bind_eq_ok h
  cases h
  exact (Relation.ReflTransGen.single (.make hmade)).tail (.hand hput)

theorem steps_of_batch {batch : List Subject} {pages : List Page}
    (h : (batch.mapM (run.make sink)).run.run σ = (.ok pages, τ)) :
    Steps run sink ⟨before ++ ⟨none, batch⟩ :: after, σ, handed⟩
      ⟨before ++ ⟨none, []⟩ :: after, τ, handed ++ pages⟩ := by
  induction batch generalizing σ handed pages with
  | nil =>
    rw [List.mapM_nil] at h
    cases h
    rw [List.append_nil]
  | cons s rest ih =>
    rw [List.mapM_cons] at h
    obtain ⟨page, ρ, hpage, h⟩ := Stateful.run_bind_eq_ok h
    obtain ⟨others, υ, hothers, h⟩ := Stateful.run_bind_eq_ok h
    cases h
    have hrest := ih (handed ++ [page]) hothers
    rw [List.append_assoc, List.singleton_append] at hrest
    exact (steps_of_make before after handed hpage).trans hrest

/-- One worker after the other. -/
theorem steps_of_batches {batches : List (List Subject)} {pages : List (List Page)}
    (h : (batches.mapM (List.mapM (run.make sink))).run.run σ = (.ok pages, τ)) :
    Steps run sink ⟨before ++ batches.map fun batch => ⟨none, batch⟩, σ, handed⟩
      ⟨before ++ batches.map fun _ => ⟨none, []⟩, τ, handed ++ pages.flatten⟩ := by
  induction batches generalizing σ before handed pages with
  | nil =>
    rw [List.mapM_nil] at h
    cases h
    rw [List.flatten_nil, List.append_nil, List.map_nil, List.map_nil]
  | cons batch rest ih =>
    rw [List.mapM_cons] at h
    obtain ⟨first, ρ, hfirst, h⟩ := Stateful.run_bind_eq_ok h
    obtain ⟨others, υ, hothers, h⟩ := Stateful.run_bind_eq_ok h
    cases h
    have hrest := ih (before ++ [⟨none, []⟩]) (handed ++ first) hothers
    simp only [List.append_assoc, List.singleton_append] at hrest
    exact (steps_of_batch before _ handed hfirst).trans hrest

end

/-- A run that makes all its pages is a schedule. -/
theorem schedule_of_pages {run : Run} {sink : Sink} {σ τ : Session} {pages : List Page}
    (h : (run.pages sink).run.run σ = (.ok pages, τ)) :
    ∃ last, Schedule run sink σ last ∧ last.session = τ ∧ last.handed = pages := by
  obtain ⟨batches, ρ, hbatches, h⟩ := Stateful.run_bind_eq_ok h
  cases h
  refine ⟨_, ⟨steps_of_batches [] [] hbatches, ?_⟩, rfl, List.nil_append _⟩
  intro w hw
  obtain ⟨batch, -, rfl⟩ := List.mem_map.mp hw
  rfl

end DocWeave.Run
