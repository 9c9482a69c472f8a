import DocWeave.Proofs.Page.Absorbed
import DocWeave.Proofs.Page.Trees
import DocWeave.Proofs.Run.PagesOnDisk

/-!
# Runs with any number of workers

The subjects are dealt out in batches, none of which is empty, and each subject is in one of them. As
long as no step of a run disturbs another one (`Undisturbed`), every schedule makes for each subject the
page that the subject has by itself, and so every number of workers gives the same tree
(`tree_of_renders`). With the standard directives nothing is disturbed when nothing is written
(`undisturbed_of_idle`); a page that is written may be what another subject is read from
(`not_tree_of_renders`).
-/

namespace DocWeave

open DocWeave.Text

/-! ## Batches -/

theorem ne_nil_of_mem_batchesOf {α : Type} {size : Nat} {items batch : List α}
    (h : batch ∈ batchesOf size items) : batch ≠ [] := by
  fun_induction batchesOf size items with
  | case1 => cases h
  | case2 a rest ih =>
    rcases List.mem_cons.mp h with rfl | hrest
    · exact List.cons_ne_nil _ _
    · exact ih hrest

theorem length_batchesOf_le {α : Type} {size bound : Nat} {items : List α}
    (h : items.length ≤ bound * size) : (batchesOf size items).length ≤ bound := by
  fun_induction batchesOf size items generalizing bound with
  | case1 => exact Nat.zero_le _
  | case2 a rest ih =>
    cases bound with
    | zero => simp at h
    | succ bound =>
      rw [List.length_cons, Nat.succ_mul] at h
      refine Nat.succ_le_succ (ih ?_)
      rw [List.length_drop]
      omega

namespace Run

variable {run : Run} {sink : Sink} {s : Subject}

/-- There are no more batches than workers. -/
theorem length_batches_le (run : Run) : run.batches.length ≤ max run.workers 1 := by
  unfold batches
  generalize run.maker.workspace.registry.subjects = subjects
  have hpos : 0 < max run.workers 1 := by omega
  generalize max run.workers 1 = workers at hpos
  refine length_batchesOf_le ?_
  have hceil := Nat.lt_mul_div_succ (subjects.length + workers - 1) hpos
  rw [Nat.mul_add, Nat.mul_one] at hceil
  omega

/-- Each subject is in one batch. -/
theorem existsUnique_batch (hdistinct : run.maker.workspace.registry.Distinct)
    (hs : s ∈ run.maker.workspace.registry.subjects) :
    ∃! i : Nat, ∃ batch, run.batches[i]? = some batch ∧ s ∈ batch := by
  have hnodup : run.batches.flatten.Nodup := by
    rw [flatten_batches]
    exact hdistinct.nodup
  -- batches at different places share no subject
  have hapart := List.pairwise_iff_getElem.mp (List.nodup_flatten.mp hnodup).2
  rw [← flatten_batches] at hs
  obtain ⟨batch, hbatch, hs⟩ := List.mem_flatten.mp hs
  obtain ⟨i, hi⟩ := List.mem_iff_getElem?.mp hbatch
  refine ⟨i, ⟨batch, hi, hs⟩, ?_⟩
  rintro j ⟨other, hj, hother⟩
  obtain ⟨hilt, rfl⟩ := List.getElem?_eq_some_iff.mp hi
  obtain ⟨hjlt, rfl⟩ := List.getElem?_eq_some_iff.mp hj
  rcases Nat.lt_trichotomy j i with hlt | rfl | hlt
  · exact absurd hs (hapart j i hjlt hilt hlt hother)
  · rfl
  · exact absurd hother (hapart i j hilt hjlt hlt hs)

end Run

/-! ## Steps that do not disturb each other -/

namespace Page.Maker

open Locator

/-- A session at which pages of subjects may have been made and handed on, in any order and number. -/
inductive Moment (p : Maker) (sink : Sink) (σ : Session) : Session → Prop
  | start : Moment p sink σ σ
  | made {s : Subject} {page : Page} {τ υ : Session} : Moment p sink σ τ →
      s ∈ p.workspace.registry.subjects → (p.page s).run.run τ = (.ok page, υ) → Moment p sink σ υ
  | handed {s : Subject} {page : Page} {τ υ : Session} : Moment p sink σ τ →
      s ∈ p.workspace.registry.subjects → outcome σ (p.page s) = .ok page →
      (sink.put page.subject page.text).run.run τ = (.ok (), υ) → Moment p sink σ υ

/-- Whatever was made and handed on before, each subject has the page that it has at first, and the sink
takes it. -/
structure Undisturbed (p : Maker) (sink : Sink) (σ : Session) : Prop where
  renders : ∀ τ, p.Moment sink σ τ → ∀ s ∈ p.workspace.registry.subjects,
    outcome τ (p.page s) = outcome σ (p.page s)
  takes : ∀ τ, p.Moment sink σ τ → ∀ s ∈ p.workspace.registry.subjects, ∀ page,
    outcome σ (p.page s) = .ok page → outcome τ (sink.put page.subject page.text) = .ok ()

variable {p : Maker} {sink : Sink} {σ : Session}

/-- With the standard directives making a page changes no file and no view of a source, so nothing is
disturbed when nothing is written. -/
theorem undisturbed_of_idle (h : p.Standard)
    (hidle : ∀ s ∈ p.workspace.registry.subjects, ∀ page, outcome σ (p.page s) = .ok page →
      ∀ τ : Session, τ.files = σ.files → (sink.put page.subject page.text).run.run τ = (.ok (), τ)) :
    p.Undisturbed sink σ := by
  have hsettled : ∀ s, Settled p.workspace.root (p.page s) := fun s =>
    (Settled.isPageProperty _).page (Settled.readsWith _) h.settled s
  have hkeeps : Catalogue.KeepsFiles p.catalogue := by
    rw [h]
    exact Directive.standard_keepsFiles
  have hsame : ∀ τ, p.Moment sink σ τ → τ.files = σ.files ∧ Alike p.workspace.root σ τ := by
    intro τ hτ
    induction hτ with
    | start => exact ⟨rfl, .refl _ _⟩
    | @made s page τ υ _ _ hmade ih =>
      have hfiles := page_keepsFiles hkeeps s τ
      have hviews := (hsettled s).keeps τ
      rw [hmade] at hfiles hviews
      exact ⟨hfiles.trans ih.1, ih.2.trans hviews⟩
    | handed _ hs hpage hput ih =>
      rw [hidle _ hs _ hpage _ ih.1] at hput
      cases hput
      exact ih
  refine ⟨fun τ hτ s _ => ((hsettled s).agrees σ τ (hsame τ hτ).2).symm, fun τ hτ s hs page hpage => ?_⟩
  rw [outcome, hidle s hs page hpage τ (hsame τ hτ).1]

theorem undisturbed_discard (h : p.Standard) (σ : Session) : p.Undisturbed .discard σ :=
  undisturbed_of_idle h fun _ _ _ _ _ _ => rfl

/-- A run disturbs nothing when its folder holds all pages already. -/
theorem undisturbed_rerun (h : p.Standard) {dir : String}
    (hheld : ∀ s ∈ p.workspace.registry.subjects, ∀ page, outcome σ (p.page s) = .ok page →
      page.isBlank = true ∨ σ.files.read (Sink.pathIn dir page.subject) = .ok page.text) :
    p.Undisturbed (.folder dir) σ := by
  refine undisturbed_of_idle h fun s hs page hpage τ hτ => Sink.put_run ?_
  rw [hτ, FileTree.writePage]
  rcases hheld s hs page hpage with hblank | hread
  · exact if_pos hblank
  · rw [hread]
    simp

end Page.Maker

/-! ## Own pages -/

namespace Run

open Locator Page.Maker

theorem exists_run {α : Type} {step : RunM α} {a : α} {τ : Session} (h : outcome τ step = .ok a) :
    ∃ υ, step.run.run τ = (.ok a, υ) :=
  ⟨_, Prod.ext h rfl⟩

/-- Steps one after the other, each of which gives its result and keeps an invariant. -/
theorem exists_mapM_run {α β : Type} {f : α → RunM β} {g : α → β} {inv : Session → Prop}
    {items : List α}
    (hf : ∀ a ∈ items, ∀ τ, inv τ → ∃ υ, (f a).run.run τ = (.ok (g a), υ) ∧ inv υ) {τ : Session}
    (hτ : inv τ) : ∃ υ, (items.mapM f).run.run τ = (.ok (items.map g), υ) ∧ inv υ := by
  induction items generalizing τ with
  | nil => exact ⟨τ, rfl, hτ⟩
  | cons a rest ih =>
    obtain ⟨υ, ha, hυ⟩ := hf a List.mem_cons_self τ hτ
    obtain ⟨ω, hrest, hω⟩ := ih (fun b hb => hf b (List.mem_cons_of_mem _ hb)) hυ
    refine ⟨ω, ?_, hω⟩
    rw [List.mapM_cons, Stateful.run_bind, ha]
    dsimp only
    rw [Stateful.run_bind, hrest]
    rfl

/-- The page that a worker has made and those that it has to make. -/
def Worker.pages (pageOf : Subject → Page) (w : Worker) : List Page :=
  w.page.toList ++ w.todo.map pageOf

/-- The pages that were handed on and those that were not. -/
def Progress.pages (pageOf : Subject → Page) (p : Progress) : List Page :=
  p.handed ++ p.workers.flatMap (Worker.pages pageOf)

/-- How many steps the workers have to take: two for a subject, one for a page that is made. -/
def Progress.left (p : Progress) : Nat :=
  2 * (p.workers.flatMap Worker.todo).length + (p.workers.flatMap fun w => w.page.toList).length

/-- Every subject has its own page before it, in the hands of a worker or behind it. -/
structure OnCourse (run : Run) (sink : Sink) (σ : Session) (pageOf : Subject → Page) (p : Progress) :
    Prop where
  moment : run.maker.Moment sink σ p.session
  todo : ∀ s ∈ p.workers.flatMap Worker.todo, s ∈ run.maker.workspace.registry.subjects
  pages : (p.pages pageOf).Perm (run.maker.workspace.registry.subjects.map pageOf)

theorem onCourse_start (run : Run) (sink : Sink) (σ : Session) (pageOf : Subject → Page) :
    OnCourse run sink σ pageOf (run.start σ) := by
  refine ⟨.start, fun s hs => ?_, List.Perm.of_eq ?_⟩
  · rw [← flatten_batches]
    simpa [start, List.flatMap_def, Function.comp_def] using hs
  · calc (run.start σ).pages pageOf
        = (run.batches.map (List.map pageOf)).flatten := by
          simp [start, Progress.pages, Worker.pages, List.flatMap_def, Function.comp_def]
      _ = run.batches.flatten.map pageOf := List.map_flatten.symm
      _ = run.maker.workspace.registry.subjects.map pageOf := by rw [flatten_batches]

/-- A page in the hands of a worker is the own page of a subject. -/
theorem OnCourse.exists_subject {run : Run} {sink : Sink} {σ : Session} {pageOf : Subject → Page}
    {p : Progress} (h : OnCourse run sink σ pageOf p) {w : Worker} {page : Page} (hw : w ∈ p.workers)
    (hpage : w.page = some page) : ∃ s ∈ run.maker.workspace.registry.subjects, pageOf s = page := by
  have hmem : page ∈ w.pages pageOf := by simp [Worker.pages, hpage]
  exact List.mem_map.mp (h.pages.mem_iff.mp
    (List.mem_append_right _ (List.mem_flatMap.mpr ⟨w, hw, hmem⟩)))

theorem pages_done {p : Progress} (h : p.Done) (pageOf : Subject → Page) :
    p.pages pageOf = p.handed := by
  have hworkers : p.workers.flatMap (Worker.pages pageOf) = [] := by
    rw [List.flatMap_eq_nil_iff]
    intro w hw
    rw [h w hw]
    rfl
  rw [Progress.pages, hworkers, List.append_nil]

section

variable {run : Run} {sink : Sink} {σ τ : Session} {pageOf : Subject → Page} {p q : Progress}
  (hundisturbed : run.maker.Undisturbed sink σ)
  (hrenders : ∀ s ∈ run.maker.workspace.registry.subjects,
    outcome σ (run.maker.page s) = .ok (pageOf s))

include hundisturbed hrenders

theorem exists_page_run (hτ : run.maker.Moment sink σ τ) {s : Subject}
    (hs : s ∈ run.maker.workspace.registry.subjects) :
    ∃ υ, (run.maker.page s).run.run τ = (.ok (pageOf s), υ) ∧ run.maker.Moment sink σ υ := by
  obtain ⟨υ, hpage⟩ := exists_run ((hundisturbed.renders τ hτ s hs).trans (hrenders s hs))
  exact ⟨υ, hpage, hτ.made hs hpage⟩

theorem exists_put_run (hτ : run.maker.Moment sink σ τ) {s : Subject}
    (hs : s ∈ run.maker.workspace.registry.subjects) :
    ∃ υ, (sink.put (pageOf s).subject (pageOf s).text).run.run τ = (.ok (), υ) ∧
      run.maker.Moment sink σ υ := by
  obtain ⟨υ, hput⟩ := exists_run (hundisturbed.takes τ hτ s hs _ (hrenders s hs))
  exact ⟨υ, hput, hτ.handed hs (hrenders s hs) hput⟩

/-- One after the other, all subjects get their pages. -/
theorem outcome_pages : outcome σ (run.pages sink) =
    .ok (run.maker.workspace.registry.subjects.map pageOf) := by
  have hmake : ∀ s ∈ run.maker.workspace.registry.subjects, ∀ τ, run.maker.Moment sink σ τ →
      ∃ υ, (run.make sink s).run.run τ = (.ok (pageOf s), υ) ∧ run.maker.Moment sink σ υ := by
    intro s hs τ hτ
    obtain ⟨υ, hpage, hυ⟩ := exists_page_run hundisturbed hrenders hτ hs
    obtain ⟨ω, hput, hω⟩ := exists_put_run hundisturbed hrenders hυ hs
    exact ⟨ω, make_run hpage hput, hω⟩
  have hbatch : ∀ batch ∈ run.batches, ∀ τ, run.maker.Moment sink σ τ →
      ∃ υ, (batch.mapM (run.make sink)).run.run τ = (.ok (batch.map pageOf), υ) ∧
        run.maker.Moment sink σ υ := by
    intro batch hbatch τ hτ
    refine exists_mapM_run (fun s hs => hmake s ?_) hτ
    rw [← flatten_batches]
    exact List.mem_flatten_of_mem hbatch hs
  obtain ⟨υ, hrun, -⟩ := exists_mapM_run hbatch .start
  rw [outcome, pages, Stateful.run_bind, hrun]
  dsimp only
  rw [Stateful.run_pure, ← List.map_flatten, flatten_batches]

/-- A step makes or hands on the own page of a subject. -/
theorem Step.onCourse (h : Step run sink p q) (hp : OnCourse run sink σ pageOf p) :
    OnCourse run sink σ pageOf q := by
  cases h with
  | @make before after s todo page ρ υ handed hmake =>
    have hs : s ∈ run.maker.workspace.registry.subjects := hp.todo s (by simp)
    obtain ⟨ω, hown, hω⟩ := exists_page_run hundisturbed hrenders hp.moment hs
    obtain ⟨hpage, rfl⟩ := Prod.ext_iff.mp (hmake.symm.trans hown)
    obtain rfl := Except.ok.inj hpage
    -- the page takes the place of its subject
    refine ⟨hω, fun t ht => hp.todo t ?_, ?_⟩
    · simp only [List.flatMap_append, List.flatMap_cons, List.mem_append, List.mem_cons] at ht ⊢
      tauto
    · simpa [Progress.pages, Worker.pages] using hp.pages
  | @hand before after todo page ρ υ handed hput =>
    obtain ⟨s, hs, rfl⟩ := hp.exists_subject (List.mem_append_right _ List.mem_cons_self) rfl
    refine ⟨hp.moment.handed hs (hrenders s hs) hput, ?_, ?_⟩
    · simpa using hp.todo
    · refine List.Perm.trans ?_ hp.pages
      simp only [Progress.pages, Worker.pages, List.flatMap_append, List.flatMap_cons,
        List.append_assoc, Option.toList_some, Option.toList_none, List.nil_append, List.cons_append]
      exact List.Perm.append_left _ List.perm_middle.symm

theorem Steps.onCourse (h : Steps run sink p q) (hp : OnCourse run sink σ pageOf p) :
    OnCourse run sink σ pageOf q := by
  induction h with
  | refl => exact hp
  | tail _ hstep ih => exact hstep.onCourse hundisturbed hrenders ih

/-- A worker that has something left to do can take its step, whatever the others have done. -/
theorem exists_step (hp : OnCourse run sink σ pageOf p) {before after : List Worker} {w : Worker}
    (hsplit : p.workers = before ++ w :: after) (hwork : w ≠ ⟨none, []⟩) :
    ∃ q w', Step run sink p q ∧ q.workers = before ++ w' :: after ∧ q.left < p.left := by
  obtain ⟨workers, ρ, handed⟩ := p
  obtain rfl : workers = before ++ w :: after := hsplit
  obtain ⟨page, todo⟩ := w
  cases page with
  | some page =>
    obtain ⟨s, hs, rfl⟩ := hp.exists_subject (List.mem_append_right _ List.mem_cons_self) rfl
    obtain ⟨υ, hput, -⟩ := exists_put_run hundisturbed hrenders hp.moment hs
    exact ⟨_, _, .hand hput, rfl, by simp [Progress.left]⟩
  | none =>
    cases todo with
    | nil => exact absurd rfl hwork
    | cons s todo =>
      obtain ⟨υ, hpage, -⟩ := exists_page_run hundisturbed hrenders hp.moment (hp.todo s (by simp))
      exact ⟨_, _, .make hpage, rfl, by simp [Progress.left]; omega⟩

/-- What was begun can be brought to its end. -/
theorem exists_done (hp : OnCourse run sink σ pageOf p) :
    ∃ last, Steps run sink p last ∧ last.Done := by
  -- by the number of steps that are left
  induction hleft : p.left using Nat.strong_induction_on generalizing p with
  | _ left ih =>
    by_cases hdone : p.Done
    · exact ⟨p, .refl, hdone⟩
    · obtain ⟨w, hw, hwork⟩ : ∃ w ∈ p.workers, w ≠ ⟨none, []⟩ := by
        simpa [Progress.Done] using hdone
      obtain ⟨before, after, hsplit⟩ := List.append_of_mem hw
      obtain ⟨q, _, hstep, -, hlt⟩ := exists_step hundisturbed hrenders hp hsplit hwork
      obtain ⟨last, hlast, hdone⟩ := ih q.left (hleft ▸ hlt)
        (hstep.onCourse hundisturbed hrenders hp) rfl
      exact ⟨last, .head hstep hlast, hdone⟩

end

/-! ## Pages in a folder -/

/-- Pages can be written to `docs`: it is no file, and no other folder is in the way. -/
structure Writable (t : FileTree) : Prop where
  noFile : t.files.get? ["docs"] = none
  folders : ∀ folder ∈ t.folders, folder = ["docs"]

namespace Writable

variable {t : FileTree}

theorem makeFolders (h : Writable t) :
    ∃ u, t.makeFolders [] ["docs"] = .ok (u, ["docs"]) ∧ Writable u := by
  have hfile : t.isFile ["docs"] = false := by
    rw [FileTree.isFile, OrderedMap.hasKey, h.noFile]
    rfl
  have hpart : ("docs" == "" || "docs" == ".") = false ∧ ("docs" == "..") = false := by decide
  simp only [FileTree.makeFolders, hpart.1, hpart.2, Bool.false_eq_true, if_false, List.nil_append,
    hfile]
  split
  · exact ⟨t, rfl, h⟩
  · refine ⟨_, rfl, h.noFile, fun folder hfolder => ?_⟩
    rcases List.mem_append.mp hfolder with hfolder | hfolder
    · exact h.folders folder hfolder
    · exact List.mem_singleton.mp hfolder

theorem write (h : Writable t) {path name : String} (hparts : Path.parts path = ["docs", name])
    (hpath : Path.isAbsolute path = false)
    (hname : (name == "" || name == "." || name == "..") = false) (text : String) :
    ∃ u, t.write path text = .ok u ∧ Writable u := by
  obtain ⟨u, hfolders, hu⟩ := h.makeFolders
  have hfree : u.isFolder ["docs", name] = false := by
    rw [FileTree.isFolder, List.isEmpty_cons, Bool.false_or, List.contains_eq_mem,
      decide_eq_false_iff_not]
    exact fun hmem => absurd (hu.folders _ hmem) (by simp)
  refine ⟨{ u with files := u.files.insert ["docs", name] text }, ?_, ?_, hu.folders⟩
  · simp [FileTree.write, hparts, hpath, hfolders, hname, hfree, bind, Except.bind]
  · rw [OrderedMap.get?_insert_of_ne _ _ (by simp)]
    exact hu.noFile

end Writable

/-- The page of a subject goes to a file of `docs` itself. -/
def InDocs (subject : String) : Prop :=
  ∃ name, Path.parts (Sink.pathIn "docs" subject) = ["docs", name] ∧
    Path.isAbsolute (Sink.pathIn "docs" subject) = false ∧
    (name == "" || name == "." || name == "..") = false

theorem inDocs_clash : InDocs "API" ∧ InDocs "Api" := by
  unfold InDocs
  rw [pathIn_clash.1, pathIn_clash.2]
  exact ⟨⟨_, parts_clash.1, parts_clash.2, by decide⟩, ⟨_, parts_clash.1, parts_clash.2, by decide⟩⟩

theorem Writable.put {subject : String} {τ : Session} (hsubject : InDocs subject)
    (h : Writable τ.files) (text : String) :
    ∃ υ, ((Sink.folder "docs").put subject text).run.run τ = (.ok (), υ) ∧ Writable υ.files := by
  obtain ⟨name, hparts, hpath, hname⟩ := hsubject
  obtain ⟨u, hwrite, hu⟩ := h.write hparts hpath hname text
  have hpage : ∃ files, τ.files.writePage (Sink.pathIn "docs" subject) text = .ok files ∧
      Writable files := by
    unfold FileTree.writePage
    split
    · exact ⟨τ.files, rfl, h⟩
    · split
      · split
        · exact ⟨τ.files, rfl, h⟩
        · exact ⟨u, hwrite, hu⟩
      · exact ⟨u, hwrite, hu⟩
  obtain ⟨files, hpage, hfiles⟩ := hpage
  exact ⟨_, Sink.put_run hpage, hfiles⟩

theorem writable_of_page {maker : Page.Maker} (hkeeps : Catalogue.KeepsFiles maker.catalogue)
    {s : Subject} {page : Page} {τ υ : Session} (h : (maker.page s).run.run τ = (.ok page, υ))
    (hτ : Writable τ.files) : Writable υ.files := by
  have hkept := Page.Maker.page_keepsFiles hkeeps s τ
  rw [h] at hkept
  exact hkept ▸ hτ

/-- Pages can be written to `docs` as long as only pages are written there. -/
theorem writable_of_moment {maker : Page.Maker} {σ τ : Session}
    (hkeeps : Catalogue.KeepsFiles maker.catalogue)
    (hsubjects : ∀ s ∈ maker.workspace.registry.subjects, InDocs s.name) (hσ : Writable σ.files)
    (hτ : maker.Moment (.folder "docs") σ τ) : Writable τ.files := by
  induction hτ with
  | start => exact hσ
  | made _ _ hmade ih => exact writable_of_page hkeeps hmade ih
  | @handed s page τ υ _ hs hpage hput ih =>
    obtain ⟨ρ, hmade⟩ := exists_run hpage
    obtain ⟨ω, hω, hwritable⟩ := ih.put (subject_of_page hmade ▸ hsubjects s hs) page.text
    obtain ⟨-, rfl⟩ := Prod.ext_iff.mp (hput.symm.trans hω)
    exact hwritable

theorem writable_empty : Writable {} := ⟨rfl, fun _ hfolder => absurd hfolder List.not_mem_nil⟩

/-- Two subjects that are read from no file have the same pages at any time, and each page is taken,
though they share a file. -/
theorem undisturbed_clash : clash.maker.Undisturbed (.folder "docs") ⟨{}, {}⟩ := by
  have hsubjects : ∀ s ∈ clash.maker.workspace.registry.subjects, InDocs s.name := by
    rintro s (_ | ⟨_, _ | ⟨_, ⟨⟩⟩⟩)
    · exact inDocs_clash.1
    · exact inDocs_clash.2
  refine ⟨fun τ hτ => ?_, fun τ hτ s hs page hpage => ?_⟩
  · obtain ⟨first, -, -, hfirst⟩ := page_gateway
    obtain ⟨second, -, -, hsecond⟩ := page_adapter
    rintro s (_ | ⟨_, _ | ⟨_, ⟨⟩⟩⟩)
    · rw [outcome, outcome, hfirst, hfirst]
    · rw [outcome, outcome, hsecond, hsecond]
  · obtain ⟨ρ, hmade⟩ := exists_run hpage
    have hτ := writable_of_moment Directive.standard_keepsFiles hsubjects writable_empty hτ
    obtain ⟨υ, hput, -⟩ := hτ.put (subject_of_page hmade ▸ hsubjects s hs) page.text
    rw [outcome, hput]

/-! ## The tree of a run -/

/-- The pages of subjects with distinct names that do not begin with `::` have places of their own. -/
theorem nodup_slots {registry : Registry} {pageOf : Subject → Page} (hdistinct : registry.Distinct)
    (hnames : ∀ s ∈ registry.subjects, startsWith "::".toList s.name.toList = false)
    (hslots : ∀ s ∈ registry.subjects, (pageOf s).slot = splitNamespace s.name) :
    ((registry.subjects.map pageOf).map Page.slot).Nodup := by
  rw [List.map_map]
  refine hdistinct.nodup.map_on fun s hs t ht hslot => ?_
  rw [Function.comp_apply, Function.comp_apply, hslots s hs, hslots t ht] at hslot
  exact hdistinct.eq_of_name hs ht (eq_of_splitNamespace (hnames s hs) (hnames t ht) hslot)

/-- The tree of a run does not depend on the number of its workers.

The subjects have distinct names that do not begin with `::`, and each has a page of its own. When no
step of a run disturbs another one, there is one tree that every number of workers gives: it has at the
place of each subject its own page, and no other page. No batch is empty, there are no more batches than
workers, and each subject is in one of them. However the workers take turns, each of them can take its
next step, the run can be brought to its end, and the pages make this tree in whatever order they are
collected. With the standard directives nothing is disturbed when the pages are discarded, or when their
folder holds them already. -/
theorem tree_of_renders {maker : Page.Maker} {σ : Session} {pageOf : Subject → Page}
    (hdistinct : maker.workspace.registry.Distinct)
    (hnames : ∀ s ∈ maker.workspace.registry.subjects, startsWith "::".toList s.name.toList = false)
    (hrenders : ∀ s ∈ maker.workspace.registry.subjects, outcome σ (maker.page s) = .ok (pageOf s)) :
    (maker.Standard → maker.Undisturbed .discard σ ∧
      ∀ dir, (∀ s ∈ maker.workspace.registry.subjects, (pageOf s).isBlank = true ∨
        σ.files.read (Sink.pathIn dir s.name) = .ok (pageOf s).text) →
          maker.Undisturbed (.folder dir) σ) ∧
    ∀ sink, maker.Undisturbed sink σ → ∃ tree : Page.Tree,
      (∀ scope leaf page, tree.page? scope leaf = some page ↔
        ∃ s ∈ maker.workspace.registry.subjects,
          splitNamespace s.name = (scope, leaf) ∧ pageOf s = page) ∧
      tree.pages.Perm (maker.workspace.registry.subjects.map pageOf) ∧
      ∀ run : Run, run.maker = maker → 1 ≤ run.workers →
        (∀ batch ∈ run.batches, batch ≠ []) ∧
        run.batches.length ≤ run.workers ∧
        (∀ s ∈ maker.workspace.registry.subjects,
          ∃! i : Nat, ∃ batch, run.batches[i]? = some batch ∧ s ∈ batch) ∧
        outcome σ (run.tree sink) = .ok tree ∧
        (∀ p, Steps run sink (run.start σ) p →
          (∀ before w after, p.workers = before ++ w :: after → w ≠ ⟨none, []⟩ →
            ∃ q w', Step run sink p q ∧ q.workers = before ++ w' :: after) ∧
          ∃ last, Steps run sink p last ∧ last.Done) ∧
        ∀ last, Schedule run sink σ last → ∀ pages, pages.Perm last.handed →
          Page.Tree.ofPages pages = tree := by
  have hname : ∀ s ∈ maker.workspace.registry.subjects, (pageOf s).subject = s.name := by
    intro s hs
    obtain ⟨τ, hrun⟩ := exists_run (hrenders s hs)
    exact subject_of_page hrun
  have hslots : ∀ s ∈ maker.workspace.registry.subjects, (pageOf s).slot = splitNamespace s.name :=
    fun s hs => by rw [Page.slot, hname s hs]
  have hnodup := nodup_slots hdistinct hnames hslots
  refine ⟨fun hstandard => ⟨undisturbed_discard hstandard σ, fun dir hheld =>
      undisturbed_rerun hstandard fun s hs page hpage => ?_⟩,
    fun sink hundisturbed => ⟨.ofPages (maker.workspace.registry.subjects.map pageOf),
      fun scope leaf page => ?_, Page.Tree.pages_ofPages hnodup, ?_⟩⟩
  · obtain rfl := Except.ok.inj ((hrenders s hs).symm.trans hpage)
    rw [hname s hs]
    exact hheld s hs
  · rw [Page.Tree.page?_ofPages_eq_some_iff hnodup, List.mem_map]
    constructor
    · rintro ⟨⟨s, hs, rfl⟩, hslot⟩
      exact ⟨s, hs, (hslots s hs).symm.trans hslot, rfl⟩
    · rintro ⟨s, hs, hslot, rfl⟩
      exact ⟨⟨s, hs, rfl⟩, (hslots s hs).trans hslot⟩
  · rintro run rfl hworkers
    have hstart := onCourse_start run sink σ pageOf
    refine ⟨fun batch => ne_nil_of_mem_batchesOf, ?_, fun s hs => existsUnique_batch hdistinct hs,
      ?_, fun p hsteps => ?_, fun last hlast pages hpages => ?_⟩
    · exact (length_batches_le run).trans_eq (max_eq_left hworkers)
    · obtain ⟨τ, hpages⟩ := exists_run (outcome_pages hundisturbed hrenders)
      rw [outcome, tree, Stateful.run_bind, hpages]
      rfl
    · have hp := hsteps.onCourse hundisturbed hrenders hstart
      refine ⟨fun before w after hsplit hwork => ?_, exists_done hundisturbed hrenders hp⟩
      obtain ⟨q, w', hstep, hworkers', -⟩ := exists_step hundisturbed hrenders hp hsplit hwork
      exact ⟨q, w', hstep, hworkers'⟩
    · have hend := (hlast.1.onCourse hundisturbed hrenders hstart).pages
      rw [pages_done hlast.2] at hend
      exact (Page.Tree.ofPages_perm hnodup (hpages.trans hend).symm).symm

theorem tree_of_renders_clash :
    clash.maker.workspace.registry.Distinct ∧
    (∀ s ∈ clash.maker.workspace.registry.subjects, startsWith "::".toList s.name.toList = false) ∧
    clash.maker.Undisturbed (.folder "docs") ⟨{}, {}⟩ ∧
    ∃ first second : Page, first.text = gatewayText ∧ second.text = adapterText ∧
      outcome ⟨{}, {}⟩ (clash.maker.page gateway) = .ok first ∧
      outcome ⟨{}, {}⟩ (clash.maker.page adapter) = .ok second ∧
      ∃ tree : Page.Tree, tree.page? "" "API" = some first ∧ tree.page? "" "Api" = some second ∧
        tree.pages.Perm [first, second] ∧
        ∀ workers, 1 ≤ workers →
          outcome ⟨{}, {}⟩ (Run.tree ⟨clash.maker, workers⟩ (.folder "docs")) = .ok tree := by
  have hnames : ∀ s ∈ clash.maker.workspace.registry.subjects,
      startsWith "::".toList s.name.toList = false := by
    rintro s (_ | ⟨_, _ | ⟨_, ⟨⟩⟩⟩) <;> decide
  obtain ⟨first, -, htext, hfirst⟩ := page_gateway
  obtain ⟨second, -, htext', hsecond⟩ := page_adapter
  let pageOf (s : Subject) : Page := if s.name = "API" then first else second
  have hrenders : ∀ s ∈ clash.maker.workspace.registry.subjects,
      outcome ⟨{}, {}⟩ (clash.maker.page s) = .ok (pageOf s) := by
    rintro s (_ | ⟨_, _ | ⟨_, ⟨⟩⟩⟩)
    · rw [outcome, hfirst]
      rfl
    · rw [outcome, hsecond]
      rfl
  obtain ⟨-, hsinks⟩ := tree_of_renders distinct_clash hnames hrenders
  obtain ⟨tree, hplaces, hpages, hruns⟩ := hsinks _ undisturbed_clash
  refine ⟨distinct_clash, hnames, undisturbed_clash, first, second, htext, htext',
    hrenders _ List.mem_cons_self, hrenders _ (List.mem_cons_of_mem _ List.mem_cons_self), tree, ?_, ?_,
    hpages, fun workers hworkers => (hruns ⟨clash.maker, workers⟩ rfl hworkers).2.2.2.1⟩
  · exact (hplaces _ _ _).mpr ⟨gateway, List.mem_cons_self, by decide, rfl⟩
  · exact (hplaces _ _ _).mpr
      ⟨adapter, List.mem_cons_of_mem _ List.mem_cons_self, by decide, rfl⟩

/-! ## A subject that is read from a page -/

/-- A subject with a member on the page of another one. -/
def mirror : Subject where
  name := "Mirror"
  file := some "docs/api.md"
  line := some 1
  members := [{ name := "x", kind := .onInstance, line := some 5 }]

/-- Two workers, one for the subject and one for the page that it is read from. The heading of a constant
there begins a doc block. -/
def mirrored : Run where
  maker :=
    { workspace :=
        { registry := ⟨[gateway, mirror]⟩, root := ".", links := .inProject "docs",
          tokens := ⟨"Limit", "End"⟩ }
      catalogue := Directive.standard }

/-- The member of the mirror, as its page names it. -/
def reflection : Reference := .member "Mirror" "x" .onInstance .native

theorem lineage_mirror : mirrored.maker.workspace.registry.lineage mirror.name = [mirror] :=
  Registry.lineage_eq_singleton rfl rfl rfl

theorem ownerOf_reflection : mirrored.maker.workspace.registry.ownerOf reflection = .ok mirror :=
  ownerOf_of_get? (by decide) rfl

/-- The page that it is read from is the same at any time. -/
theorem page_mirrored :
    ∃ page : Page, page.subject = "API" ∧ page.text = gatewayText ∧
      ∀ σ, (mirrored.maker.page gateway).run.run σ = (.ok page, σ) := by
  have hsourceless : mirrored.maker.Sourceless gateway :=
    ⟨rfl, by cbv, rfl, rfl, rfl, rfl, by rintro c (_ | ⟨_, ⟨⟩⟩); rfl, rfl⟩
  exact hsourceless.page_run (by decide +kernel) (by decide +kernel)

theorem inDocs_mirror : InDocs "Mirror" := ⟨"mirror.md", by decide +kernel⟩

/-- The member is missing as long as that page is. -/
theorem locate_reflection : ∃ e : Error, e.isRecoverable = true ∧
    outcome ⟨{}, {}⟩ (mirrored.maker.workspace.locate reflection) = .error e := by
  have hdef : outcome ⟨{}, {}⟩ (findDefinition mirrored.maker.workspace.root "x" .onInstance [mirror]) =
      .error (.unreadable "./docs/api.md" .missing) := by decide +kernel
  have hname : reflection.name = "x" := by decide
  rw [Workspace.outcome_locate, ownerOf_reflection]
  dsimp only [Except.bind]
  rw [outcome_locate rfl, lineage_mirror, hname, show reflection.kind = .onInstance from rfl, hdef]
  exact ⟨_, rfl, rfl⟩

theorem expands_reflection :
    mirrored.maker.Expands ⟨holding gatewayText, {}⟩ reflection (.ok DocBlock.noEndMarker) :=
  expands_definition mirror ⟨"docs/api.md", 5, "# Reference Values\n## Limit\n", 3, "true\n"⟩
    ownerOf_reflection rfl lineage_mirror (by decide +kernel) (by decide) (by decide)
    (Stateful.eq_ok_of_toOption (by decide +kernel))

/-- The page of the mirror has the member exactly when this says something. -/
theorem exists_page_mirror {σ : Session} (hnone : mirrored.maker.failure? σ reflection = none)
    (hcomment : (outcome σ (mirrored.maker.subjectComment mirror)).toOption = some none) :
    ∃ page, outcome σ (mirrored.maker.page mirror) = .ok page ∧
      (⟨.onInstance, "x"⟩ ∈ page.entries.keys ↔ mirrored.maker.Says σ reflection) := by
  have h : mirrored.maker.Standard := rfl
  have hrs : outcome σ (mirrored.maker.references mirror) = .ok [reflection] := by
    rw [outcome_references rfl, Registry.population_eq lineage_mirror]
    rfl
  have hblocks : mirrored.maker.blockReferences mirror [reflection] = [reflection] := by
    rw [blockReferences, Registry.constants, lineage_mirror]
    rfl
  have hkey : EntryKey.of reflection = ⟨.onInstance, "x"⟩ := by decide
  obtain ⟨page, hpage⟩ := exists_page h hrs (by rw [hblocks]; simpa using hnone) hcomment
  refine ⟨page, hpage, ?_⟩
  obtain ⟨rs, hrs', hentries⟩ := entries_of_page h hpage
  obtain rfl : [reflection] = rs := Except.ok.inj (hrs.symm.trans hrs')
  rw [hentries, mem_keys_allEntries h (by decide), lastSays_iff (by simp)]
  simp [hkey]

/-- Before the page that it is read from is there, the member is left out. -/
theorem page_before : ∃ page, outcome ⟨{}, {}⟩ (mirrored.maker.page mirror) = .ok page ∧
    ⟨.onInstance, "x"⟩ ∉ page.entries.keys := by
  have h : mirrored.maker.Standard := rfl
  obtain ⟨e, hrecoverable, hmissing⟩ := locate_reflection
  have hnone : mirrored.maker.failure? ⟨{}, {}⟩ reflection = none := by
    rw [failure?, outcome_entryIfFound h, outcome_entry h, ownerOf_reflection]
    simp only [bind, Except.bind, hmissing, hrecoverable, if_true]
  obtain ⟨page, hpage, hkey⟩ := exists_page_mirror hnone (by decide +kernel)
  refine ⟨page, hpage, fun hmem => ?_⟩
  obtain ⟨text, ⟨owner, site, -, hsite, -⟩, -⟩ := hkey.mp hmem
  cases hmissing.symm.trans hsite

/-- Once it is there, the member is on the page. -/
theorem page_after : ∃ page,
    outcome ⟨holding gatewayText, {}⟩ (mirrored.maker.page mirror) = .ok page ∧
      ⟨.onInstance, "x"⟩ ∈ page.entries.keys := by
  obtain ⟨page, hpage, hkey⟩ :=
    exists_page_mirror (expands_reflection.failure?_eq_none rfl) (by decide +kernel)
  exact ⟨page, hpage, hkey.mpr ⟨_, expands_reflection, by decide⟩⟩

/-- The page of the mirror is another one when its worker goes first. -/
theorem schedules_mirrored :
    ∃ tree last, outcome ⟨{}, {}⟩ (mirrored.tree (.folder "docs")) = .ok tree ∧
      Schedule mirrored (.folder "docs") ⟨{}, {}⟩ last ∧ Page.Tree.ofPages last.handed ≠ tree := by
  have hkeeps : Catalogue.KeepsFiles mirrored.maker.catalogue := Directive.standard_keepsFiles
  have hbatches : mirrored.batches = [[gateway], [mirror]] := by cbv
  obtain ⟨first, hname, htext, hfirst⟩ := page_mirrored
  obtain ⟨early, hearly, hmissing⟩ := page_before
  obtain ⟨late, hlate, hthere⟩ := page_after
  obtain ⟨ρ, hearly⟩ := exists_run hearly
  obtain ⟨υ, hlate⟩ := exists_run hlate
  have hearlyName : early.subject = "Mirror" := subject_of_page hearly
  have hlateName : late.subject = "Mirror" := subject_of_page hlate
  -- the worker of the mirror goes first
  obtain ⟨ρ₁, hput₁, hρ₁⟩ := (writable_of_page hkeeps hearly writable_empty).put
    (hearlyName ▸ inDocs_mirror) early.text
  obtain ⟨ρ₂, hput₂, -⟩ := hρ₁.put (hname ▸ inDocs_clash.1) first.text
  have hschedule : Schedule mirrored (.folder "docs") ⟨{}, {}⟩
      ⟨[⟨none, []⟩, ⟨none, []⟩], ρ₂, [early, first]⟩ := by
    refine ⟨?_, by simp [Progress.Done]⟩
    rw [start, hbatches]
    exact (steps_of_make [⟨none, [gateway]⟩] [] [] (make_run hearly hput₁)).trans
      (steps_of_make [] [⟨none, []⟩] [early] (make_run (hfirst ρ₁) hput₂))
  -- the worker of the page goes first
  have hmake : (mirrored.make (.folder "docs") gateway).run.run ⟨{}, {}⟩ =
      (.ok first, ⟨holding gatewayText, {}⟩) :=
    make_run (hfirst _) (by rw [hname, htext]; exact put_gateway)
  have hholding : Writable (holding gatewayText) := ⟨rfl, fun _ => List.mem_singleton.mp⟩
  obtain ⟨υ₁, hput₃, -⟩ := (writable_of_page hkeeps hlate hholding).put
    (hlateName ▸ inDocs_mirror) late.text
  have htree : outcome ⟨{}, {}⟩ (mirrored.tree (.folder "docs")) =
      .ok (.ofPages [first, late]) := by
    simp only [outcome, tree, pages, hbatches, List.mapM_cons, List.mapM_nil, Stateful.run_bind, hmake,
      make_run hlate hput₃, Stateful.run_pure]
    rfl
  refine ⟨_, _, htree, hschedule, fun hsame => ?_⟩
  -- the two trees differ at the place of the mirror
  have hslots : first.slot = ("", "API") ∧ early.slot = ("", "Mirror") ∧ late.slot = ("", "Mirror") := by
    simp only [Page.slot, hname, hearlyName, hlateName]
    decide
  have hfound : (Page.Tree.ofPages [early, first]).page? "" "Mirror" = some early := by
    simp [Page.Tree.page?_ofPages, hslots]
  have hfound' : (Page.Tree.ofPages [first, late]).page? "" "Mirror" = some late := by
    simp [Page.Tree.page?_ofPages, hslots]
  rw [hsame, hfound'] at hfound
  exact hmissing (Option.some.inj hfound ▸ hthere)

/-- A folder that is a file. -/
def blocked : FileTree := { files := [(["docs"], "")] }

theorem put_blocked : outcome ⟨blocked, {}⟩ ((Sink.folder "docs").put "API" gatewayText) =
    .error (.of (.io .exists)) := by
  have hread : blocked.read "docs/api.md" = .error .notDirectory := by
    simp [FileTree.read, FileTree.place, parts_clash, FileTree.follow, FileTree.isFolder,
      FileTree.isFile, OrderedMap.hasKey, OrderedMap.get?, bind, Except.bind, blocked]
  have hwrite : blocked.write "docs/api.md" gatewayText = .error .exists := by
    simp [FileTree.write, parts_clash, FileTree.makeFolders, FileTree.isFile, OrderedMap.hasKey,
      OrderedMap.get?, bind, Except.bind, blocked]
  rw [outcome, Sink.put, Stateful.run_bind, Stateful.run_get]
  dsimp only
  rw [pathIn_clash.1, FileTree.writePage, if_neg (by decide), hread]
  dsimp only
  rw [hwrite]
  rfl

theorem tree_blocked : outcome ⟨blocked, {}⟩ (clash.tree (.folder "docs")) =
    .error (.of (.io .exists)) := by
  obtain ⟨first, hname, htext, hfirst⟩ := page_gateway
  have hbatches : clash.batches = [[gateway], [adapter]] := by cbv
  have hmake : outcome ⟨blocked, {}⟩ (clash.make (.folder "docs") gateway) =
      .error (.of (.io .exists)) := by
    have hput := put_blocked
    rw [← hname, ← htext] at hput
    have hfails : outcome ⟨blocked, {}⟩ (do
        (Sink.folder "docs").put first.subject first.text
        return first : RunM Page) = .error (.of (.io .exists)) := outcome_bind_error hput _
    rw [outcome, make, Stateful.run_bind, hfirst]
    exact hfails
  have hpages : outcome ⟨blocked, {}⟩ (clash.pages (.folder "docs")) = .error (.of (.io .exists)) := by
    rw [pages, hbatches, List.mapM_cons, List.mapM_cons]
    exact outcome_bind_error (outcome_bind_error (outcome_bind_error hmake _) _) _
  exact outcome_bind_error hpages _

/-- The tree depends on who goes first where a subject is read from the page of another one, and there is
none where a page cannot be written, though every subject has its page. -/
theorem not_tree_of_renders :
    (mirrored.maker.Standard ∧ mirrored.maker.workspace.registry.Distinct ∧
      (∀ s ∈ mirrored.maker.workspace.registry.subjects,
        startsWith "::".toList s.name.toList = false ∧
        ∃ page, outcome ⟨{}, {}⟩ (mirrored.maker.page s) = .ok page) ∧
      ∃ tree last, outcome ⟨{}, {}⟩ (mirrored.tree (.folder "docs")) = .ok tree ∧
        Schedule mirrored (.folder "docs") ⟨{}, {}⟩ last ∧ Page.Tree.ofPages last.handed ≠ tree) ∧
    clash.maker.Standard ∧ clash.maker.workspace.registry.Distinct ∧
      (∀ s ∈ clash.maker.workspace.registry.subjects,
        startsWith "::".toList s.name.toList = false ∧
        ∃ page, outcome ⟨blocked, {}⟩ (clash.maker.page s) = .ok page) ∧
      ∃ e, outcome ⟨blocked, {}⟩ (clash.tree (.folder "docs")) = .error e := by
  obtain ⟨first, -, -, hfirst⟩ := page_mirrored
  obtain ⟨early, hearly, -⟩ := page_before
  obtain ⟨api, -, -, hapi⟩ := page_gateway
  obtain ⟨other, -, -, hother⟩ := page_adapter
  refine ⟨⟨rfl, by unfold Registry.Distinct; decide, ?_, schedules_mirrored⟩, rfl, distinct_clash, ?_,
    _, tree_blocked⟩
  · rintro s (_ | ⟨_, _ | ⟨_, ⟨⟩⟩⟩)
    · exact ⟨by decide, first, by rw [outcome, hfirst]⟩
    · exact ⟨by decide, early, hearly⟩
  · rintro s (_ | ⟨_, _ | ⟨_, ⟨⟩⟩⟩)
    · exact ⟨by decide, api, by rw [outcome, hapi]⟩
    · exact ⟨by decide, other, by rw [outcome, hother]⟩

end Run

end DocWeave
