import DocWeave.Page.Render
import DocWeave.Proofs.Registry.Population
import DocWeave.Proofs.Stateful

/-!
# Pages without a source

A subject that was declared without a file, a parent and members has nothing to be located. Its page
shows the values of its constants; it is made without reading or keeping anything (`page_run`).
-/

namespace DocWeave

/-- A constant of a subject without a file is not located. -/
theorem Locator.locate_without_file {root : String} {registry : Registry} {r : Reference}
    {s : Subject} (hline : r.line = none) (hkind : r.kind = .constant)
    (hlineage : registry.lineage s.name = [s]) (hfile : s.file = none) (σ : Session) :
    (locate root registry r s).run.run σ = (.error (.undefined r.name s.name), σ) := by
  have hsearch : (findDefinition root r.name r.kind [s]).run.run σ = (.ok none, σ) := by
    rw [findDefinition, hfile]
    rfl
  unfold locate
  rw [hline]
  dsimp only
  rw [hlineage, Stateful.run_bind, hsearch, hkind]
  rfl

namespace Page.Maker

/-- A registered subject without a file that stands alone. -/
structure Sourceless (p : Maker) (s : Subject) : Prop where
  registered : p.workspace.registry.get? s.name = some s
  childless : p.workspace.registry.descendants s.name = []
  file : s.file = none
  parent : s.parent = none
  includes : s.includes = []
  members : s.members = []
  /-- References to its constants lead to the subject itself. -/
  owner : ∀ c ∈ s.constants.values,
    p.workspace.registry.ownerOf (Reference.member s.name c.name .constant .native) = .ok s
  /-- All members are documented. -/
  methods : p.options.methods = []

/-- The entries with the value of one more constant of a subject. -/
def withValue (entries : Entries) (owned : Subject × Constant) : Entries :=
  let reference := Reference.member owned.1.name owned.2.name .constant .native
  entries.insert (EntryKey.of reference) { text := owned.2.value.present, reference }

/-- The constants of a subject, each with its first declaration. -/
def ownConstants (s : Subject) : List (Subject × Constant) :=
  distinctBy (·.2.name) [] (s.constants.values.map fun c => (s, c))

theorem mem_ownConstants {s : Subject} {owned : Subject × Constant} (h : owned ∈ ownConstants s) :
    owned.1 = s ∧ owned.2 ∈ s.constants.values := by
  rw [ownConstants, mem_distinctBy_iff] at h
  obtain ⟨c, hc, rfl⟩ := List.mem_map.mp (List.mem_of_find?_eq_some h.2)
  exact ⟨rfl, hc⟩

namespace Sourceless

variable {p : Maker} {s : Subject}

theorem lineage (h : p.Sourceless s) : p.workspace.registry.lineage s.name = [s] :=
  Registry.lineage_eq_singleton h.registered h.parent h.includes

theorem ancestors (h : p.Sourceless s) : p.workspace.registry.ancestors s.name = [] := by
  have hnone : p.workspace.registry.parent? s = none := by
    rw [Registry.parent?, h.parent, Option.bind_none]
  rw [Registry.ancestors, h.registered]
  dsimp only
  rw [Registry.ancestorsFrom, hnone]

theorem population (h : p.Sourceless s) : p.workspace.registry.population s.name = [] := by
  rw [Registry.population, h.lineage]
  simp [Registry.declared, h.members, distinctBy]

/-- Its constants have no doc blocks. -/
theorem entryIfFound_run (h : p.Sourceless s) {c : Constant} (hc : c ∈ s.constants.values)
    (σ : Session) :
    (p.entryIfFound (Reference.member s.name c.name .constant .native)).run.run σ =
      (.ok none, σ) := by
  generalize hr : Reference.member s.name c.name .constant .native = r
  have howner : (p.workspace.ownerOf r).run.run σ = (.ok s, σ) := by
    rw [Workspace.ownerOf, RunM.ofExcept, Stateful.run_outcome, ← hr, h.owner c hc]
  have hlocate : (p.workspace.locate r).run.run σ =
      (.error (.of (.sourceNotFound r.raw (LocateFault.undefined r.name s.name).message)), σ) := by
    rw [Workspace.locate, Stateful.run_bind, howner]
    dsimp only
    rw [LocateM.orMissing, Stateful.run_adapt,
      Locator.locate_without_file (hr ▸ rfl) (hr ▸ rfl) h.lineage h.file]
    rfl
  rw [entryIfFound, Stateful.run_tryCatch, entry, Stateful.run_bind, howner]
  dsimp only
  rw [Stateful.run_bind, hlocate]
  rfl

theorem constants (h : p.Sourceless s) :
    p.workspace.registry.constants s.name = ownConstants s := by
  rw [Registry.constants, h.lineage, List.flatMap_singleton]
  rfl

theorem constantEntries_run (h : p.Sourceless s) {constants : List (Subject × Constant)}
    (hconstants : ∀ owned ∈ constants, owned.1 = s ∧ owned.2 ∈ s.constants.values)
    (entries : Entries) (σ : Session) :
    (p.constantEntries s entries constants).run.run σ =
      (.ok (constants.foldl withValue entries), σ) := by
  induction constants generalizing entries with
  | nil => rfl
  | cons owned rest ih =>
    obtain ⟨owner, c⟩ := owned
    obtain ⟨rfl, hc⟩ := hconstants _ List.mem_cons_self
    rw [constantEntries]
    simp only [beq_self_eq_true, if_true]
    rw [Stateful.run_bind, h.entryIfFound_run hc]
    exact ih (fun other hother => hconstants other (List.mem_cons_of_mem _ hother)) _

theorem entries_run (h : p.Sourceless s) (σ : Session) :
    (p.entries s).run.run σ = (.ok ((ownConstants s).foldl withValue []), σ) := by
  have hreferences : (p.references s).run.run σ = (.ok [], σ) := by
    rw [references, if_pos (by rw [h.methods]; rfl), h.population]
    rfl
  rw [entries, Stateful.run_bind, hreferences]
  dsimp only
  rw [Stateful.run_bind]
  simp only [memberEntries, Stateful.run_pure, List.filter_nil, List.map_nil, ite_self, h.constants]
  exact h.constantEntries_run (fun owned => mem_ownConstants) [] σ

/-- The page of such a subject shows the values of its constants, in whatever session it is made. -/
theorem page_run (h : p.Sourceless s) {text : String}
    (htext : (assemble { title := Inflection.titleize s.leafName }
      ((ownConstants s).foldl withValue [])).toOption = some text)
    (hlinked : p.linked s text = text) :
    ∃ page : Page, page.subject = s.name ∧ page.text = text ∧
      ∀ σ, (p.page s).run.run σ = (.ok page, σ) := by
  refine ⟨{ subject := s.name, title := Inflection.titleize s.leafName, summary := none,
            entries := (ownConstants s).foldl withValue [], text := p.linked s text }, rfl, hlinked,
    fun σ => ?_⟩
  have hcomment : (p.subjectComment s).run.run σ = (.ok none, σ) := by
    rw [subjectComment, Locator.locateSubject, h.file]
    rfl
  have htitle : (p.title s).run.run σ = (.ok (Inflection.titleize s.leafName), σ) := by
    rw [title, h.ancestors, List.mapM_nil]
    rfl
  have hsummary : (p.summary s).run.run σ = (.ok none, σ) := by
    rw [summary, h.childless]
    rfl
  rw [Page.Maker.page, Stateful.run_bind, h.entries_run]
  dsimp only
  rw [Stateful.run_bind, hcomment]
  dsimp only
  rw [Stateful.run_bind, htitle]
  dsimp only
  rw [Stateful.run_bind, hsummary]
  dsimp only
  rw [Stateful.eq_ok_of_toOption htext]
  rfl

end Sourceless

end Page.Maker

end DocWeave
