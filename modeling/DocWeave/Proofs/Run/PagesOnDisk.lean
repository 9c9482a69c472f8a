import DocWeave.Proofs.FileTree.Writing
import DocWeave.Proofs.Page.FilesKept
import DocWeave.Proofs.Page.Sourceless
import DocWeave.Proofs.Run.Schedules

/-!
# The pages in a folder

The file of a page is named after its subject, but not by it: `API` and `Api` share one. Whatever the
schedule, the file of a page that is not blank holds the page handed on last of those that share it, so
the folder holds every page exactly when pages that share a file have one text (`pages_on_disk`).
-/

namespace DocWeave

open DocWeave.Text

/-- Nothing but blanks. -/
def Page.isBlank (p : Page) : Bool := isBlankText p.text.toList

/-- The place of a page in a folder. -/
def Page.home? (dir : String) (p : Page) : Option (List String) :=
  Path.destination? (Sink.pathIn dir p.subject)

/-- The page handed on last of those that share a place and are not blank. -/
def Page.lastAt? (dir : String) (place : Option (List String)) (handed : List Page) : Option Page :=
  (handed.filter fun p => !p.isBlank && p.home? dir == place).getLast?

namespace Page

variable {dir : String} {place : Option (List String)} {handed : List Page} {p q : Page}

theorem lastAt?_concat_of_home (hblank : p.isBlank = false) (hhome : p.home? dir = place) :
    lastAt? dir place (handed ++ [p]) = some p := by
  simp [lastAt?, hblank, hhome]

theorem lastAt?_concat_of_blank (hblank : p.isBlank = true) :
    lastAt? dir place (handed ++ [p]) = lastAt? dir place handed := by
  simp [lastAt?, hblank]

theorem lastAt?_concat_of_ne (hhome : p.home? dir ≠ place) :
    lastAt? dir place (handed ++ [p]) = lastAt? dir place handed := by
  simp [lastAt?, hhome]

theorem of_lastAt? (h : lastAt? dir place handed = some q) :
    q ∈ handed ∧ q.isBlank = false ∧ q.home? dir = place := by
  have hmem := List.mem_filter.mp (List.mem_of_getLast? h)
  simpa using hmem

end Page

/-! ## One page -/

/-- A page that is not blank is at its place once it is written; all other places are as before. -/
theorem FileTree.writePage_spec {t u : FileTree} {path text : String}
    (hblank : isBlankText text.toList = false) (h : t.writePage path text = .ok u) :
    ∃ there, u.place path = .ok there ∧ t.Wrote u there text := by
  unfold FileTree.writePage at h
  rw [if_neg (by simp [hblank])] at h
  split at h
  · next old hread =>
    split at h
    · next hsame =>
      subst hsame
      cases h
      obtain ⟨there, hplace, htext⟩ := place_of_read hread
      exact ⟨there, hplace, .of_get? htext⟩
    · exact write_spec h
  · exact write_spec h

theorem FileTree.writePage_of_blank {t u : FileTree} {path text : String}
    (hblank : isBlankText text.toList = true) (h : t.writePage path text = .ok u) : u = t := by
  unfold FileTree.writePage at h
  rw [if_pos hblank] at h
  cases h
  rfl

theorem Sink.writePage_of_put {dir subject text : String} {σ τ : Session}
    (h : ((Sink.folder dir).put subject text).run.run σ = (.ok (), τ)) :
    σ.files.writePage (Sink.pathIn dir subject) text = .ok τ.files := by
  obtain ⟨_, _, hget, h⟩ := Stateful.run_bind_eq_ok h
  cases hget
  split at h
  · next files hfiles =>
    cases h
    exact hfiles
  · cases h

theorem Sink.put_run {dir subject text : String} {σ : Session} {files : FileTree}
    (h : σ.files.writePage (Sink.pathIn dir subject) text = .ok files) :
    ((Sink.folder dir).put subject text).run.run σ = (.ok (), { σ with files }) := by
  rw [Sink.put, Stateful.run_bind, Stateful.run_get]
  dsimp only
  rw [h]
  rfl

/-! ## All pages -/

/-- Each page handed on that is not blank has its file, and there is the last page of those that share
it. -/
def HoldsLast (dir : String) (t : FileTree) (handed : List Page) : Prop :=
  ∀ page ∈ handed, page.isBlank = false →
    ∃ there last, t.place (Sink.pathIn dir page.subject) = .ok there ∧
      t.files.get? there = some last.text ∧ Page.lastAt? dir (page.home? dir) handed = some last

namespace HoldsLast

variable {dir : String} {t u : FileTree} {handed : List Page} {p : Page}

theorem blank (h : HoldsLast dir t handed) (hp : p.isBlank = true) :
    HoldsLast dir t (handed ++ [p]) := by
  intro page hpage hblank
  rcases List.mem_append.mp hpage with hpage | hpage
  · rw [Page.lastAt?_concat_of_blank hp]
    exact h page hpage hblank
  · rw [List.mem_singleton.mp hpage, hp] at hblank
    cases hblank

theorem written {there : List String} (h : HoldsLast dir t handed) (hp : p.isBlank = false)
    (hplace : u.place (Sink.pathIn dir p.subject) = .ok there) (hwrote : t.Wrote u there p.text) :
    HoldsLast dir u (handed ++ [p]) := by
  have hhome : p.home? dir = some there := FileTree.destination?_of_place hplace
  intro page hpage hblank
  rcases List.mem_append.mp hpage with hpage | hpage
  · obtain ⟨place, last, hpath, hlast, hat⟩ := h page hpage hblank
    have hpage : page.home? dir = some place := FileTree.destination?_of_place hpath
    by_cases hshared : place = there
    · subst hshared
      exact ⟨place, p, hwrote.folders.place hpath, hwrote.here,
        Page.lastAt?_concat_of_home hp (hhome.trans hpage.symm)⟩
    · refine ⟨place, last, hwrote.folders.place hpath, ?_, ?_⟩
      · rw [hwrote.elsewhere place hshared]
        exact hlast
      · rwa [Page.lastAt?_concat_of_ne]
        rw [hhome, hpage]
        exact fun heq => hshared (Option.some.inj heq).symm
  · obtain rfl := List.mem_singleton.mp hpage
    exact ⟨there, page, hplace, hwrote.here, Page.lastAt?_concat_of_home hp rfl⟩

/-- What is read at the path of a page. -/
theorem read (h : HoldsLast dir t handed) (hp : p ∈ handed) (hblank : p.isBlank = false) :
    ∃ last, Page.lastAt? dir (p.home? dir) handed = some last ∧
      t.read (Sink.pathIn dir p.subject) = .ok last.text := by
  obtain ⟨there, last, hplace, hlast, hat⟩ := h p hp hblank
  exact ⟨last, hat, FileTree.read_of_place hplace hlast⟩

/-- Every page is there exactly when pages that share a file have one text. -/
theorem read_iff (h : HoldsLast dir t handed) :
    (∀ p ∈ handed, p.isBlank = false → t.read (Sink.pathIn dir p.subject) = .ok p.text) ↔
      ∀ p ∈ handed, ∀ q ∈ handed, p.isBlank = false → q.isBlank = false →
        p.home? dir = q.home? dir → p.text = q.text := by
  constructor
  · intro hall p hp q hq hpblank hqblank hshared
    -- pages that share a place have the same page last
    obtain ⟨last, hlast, hread⟩ := h.read hp hpblank
    obtain ⟨last', hlast', hread'⟩ := h.read hq hqblank
    rw [← hshared, hlast] at hlast'
    cases hlast'
    have hptext := (hall p hp hpblank).symm.trans hread
    have hqtext := (hall q hq hqblank).symm.trans hread'
    exact Except.ok.inj (hptext.trans hqtext.symm)
  · intro hsame p hp hblank
    obtain ⟨last, hlast, hread⟩ := h.read hp hblank
    obtain ⟨hmem, hnonblank, hhome⟩ := Page.of_lastAt? hlast
    rw [hread, hsame p hp last hmem hblank hnonblank hhome.symm]

end HoldsLast

namespace Run

variable {run : Run} {dir : String} {p q : Progress}

/-- A page that is handed on is the last of those that share its file. -/
theorem Step.holdsLast (hkeeps : Catalogue.KeepsFiles run.maker.catalogue)
    (h : Step run (.folder dir) p q) (hp : HoldsLast dir p.session.files p.handed) :
    HoldsLast dir q.session.files q.handed := by
  cases h with
  | @make before after s todo page σ τ handed hmake =>
    have hfiles : τ.files = σ.files := by
      have hkept := Page.Maker.page_keepsFiles hkeeps s σ
      rwa [hmake] at hkept
    dsimp only
    rwa [hfiles]
  | @hand before after todo page σ τ handed hput =>
    have hwrite := Sink.writePage_of_put hput
    cases hblank : page.isBlank with
    | true =>
      dsimp only
      rw [FileTree.writePage_of_blank hblank hwrite]
      exact hp.blank hblank
    | false =>
      obtain ⟨there, hplace, hwrote⟩ := FileTree.writePage_spec hblank hwrite
      exact hp.written hblank hplace hwrote

theorem Steps.holdsLast (hkeeps : Catalogue.KeepsFiles run.maker.catalogue)
    (h : Steps run (.folder dir) p q) (hp : HoldsLast dir p.session.files p.handed) :
    HoldsLast dir q.session.files q.handed := by
  induction h with
  | refl => exact hp
  | tail _ hstep ih => exact hstep.holdsLast hkeeps ih

/-- After any schedule over distinct names each subject has had one page handed on. The file of a page
that is not blank holds the last page of those that share it; every such page is in its file exactly when
those that share a file have one text. -/
theorem pages_on_disk {σ : Session} {last : Progress}
    (hdistinct : run.maker.workspace.registry.Distinct)
    (hkeeps : Catalogue.KeepsFiles run.maker.catalogue)
    (h : Schedule run (.folder dir) σ last) :
    (∀ s ∈ run.maker.workspace.registry.subjects,
      ∃! page, page ∈ last.handed ∧ page.subject = s.name) ∧
    (∀ page ∈ last.handed, page.isBlank = false →
      ∃ kept, Page.lastAt? dir (page.home? dir) last.handed = some kept ∧
        last.session.files.read (Sink.pathIn dir page.subject) = .ok kept.text) ∧
    ((∀ page ∈ last.handed, page.isBlank = false →
        last.session.files.read (Sink.pathIn dir page.subject) = .ok page.text) ↔
      ∀ page ∈ last.handed, ∀ other ∈ last.handed, page.isBlank = false → other.isBlank = false →
        page.home? dir = other.home? dir → page.text = other.text) := by
  have hholds : HoldsLast dir last.session.files last.handed :=
    Steps.holdsLast hkeeps h.1 fun page hpage => absurd hpage (List.not_mem_nil)
  exact ⟨fun s hs => existsUnique_page h hdistinct hs, fun page hpage => hholds.read hpage,
    hholds.read_iff⟩

/-! ## Two names of one file -/

def gateway : Subject where
  name := "API"
  constants := [("LIMIT", ⟨"LIMIT", .bool true, none⟩)]

def adapter : Subject where
  name := "Api"
  constants := [("PORT", ⟨"PORT", .bool false, none⟩)]

/-- Two workers, one for each of the subjects. -/
def clash : Run where
  maker :=
    { workspace :=
        { registry := ⟨[gateway, adapter]⟩, root := ".", links := .inProject "docs", tokens := {} }
      catalogue := Directive.standard }

def gatewayText : String := "# Api\n\n## Reference Values\n### Limit\ntrue\n\n"

def adapterText : String := "# Api\n\n## Reference Values\n### Port\nfalse\n\n"

theorem distinct_clash : clash.maker.workspace.registry.Distinct := by
  unfold Registry.Distinct
  decide

theorem sourceless_gateway : clash.maker.Sourceless gateway :=
  ⟨rfl, by cbv, rfl, rfl, rfl, rfl, by rintro c (_ | ⟨_, ⟨⟩⟩); rfl, rfl⟩

theorem sourceless_adapter : clash.maker.Sourceless adapter :=
  ⟨rfl, by cbv, rfl, rfl, rfl, rfl, by rintro c (_ | ⟨_, ⟨⟩⟩); rfl, rfl⟩

theorem page_gateway :
    ∃ page : Page, page.subject = "API" ∧ page.text = gatewayText ∧
      ∀ σ, (clash.maker.page gateway).run.run σ = (.ok page, σ) :=
  sourceless_gateway.page_run (by decide +kernel) (by decide +kernel)

theorem page_adapter :
    ∃ page : Page, page.subject = "Api" ∧ page.text = adapterText ∧
      ∀ σ, (clash.maker.page adapter).run.run σ = (.ok page, σ) :=
  sourceless_adapter.page_run (by decide +kernel) (by decide +kernel)

theorem pathIn_clash : Sink.pathIn "docs" "API" = "docs/api.md" ∧
    Sink.pathIn "docs" "Api" = "docs/api.md" := by decide +kernel

theorem parts_clash : Path.parts "docs/api.md" = ["docs", "api.md"] ∧
    Path.isAbsolute "docs/api.md" = false := by decide +kernel

/-- A folder with a page in the file of both. -/
def holding (text : String) : FileTree := ⟨[(["docs", "api.md"], text)], [["docs"]]⟩

theorem read_empty : ({} : FileTree).read "docs/api.md" = .error .missing := by
  simp [FileTree.read, FileTree.place, parts_clash, FileTree.follow, FileTree.isFolder,
    FileTree.isFile, OrderedMap.hasKey, OrderedMap.get?, bind, Except.bind]

theorem write_empty (text : String) :
    ({} : FileTree).write "docs/api.md" text = .ok (holding text) := by
  simp [FileTree.write, parts_clash, FileTree.makeFolders, FileTree.isFolder, FileTree.isFile,
    OrderedMap.hasKey, OrderedMap.get?, OrderedMap.insert, bind, Except.bind, holding]

theorem read_holding (text : String) : (holding text).read "docs/api.md" = .ok text := by
  have hplace : (holding text).place "docs/api.md" = .ok ["docs", "api.md"] := by
    simp [FileTree.place, parts_clash, FileTree.follow, FileTree.isFolder, holding]
  exact FileTree.read_of_place hplace rfl

theorem write_holding (old text : String) :
    (holding old).write "docs/api.md" text = .ok (holding text) := by
  simp [FileTree.write, parts_clash, FileTree.makeFolders, FileTree.isFolder, FileTree.isFile,
    OrderedMap.hasKey, OrderedMap.get?, OrderedMap.insert, bind, Except.bind, holding]

theorem put_gateway : ((Sink.folder "docs").put "API" gatewayText).run.run ⟨{}, {}⟩ =
    (.ok (), ⟨holding gatewayText, {}⟩) := by
  refine Sink.put_run ?_
  rw [pathIn_clash.1, FileTree.writePage, if_neg (by decide), read_empty]
  exact write_empty gatewayText

theorem put_adapter : ((Sink.folder "docs").put "Api" adapterText).run.run
    ⟨holding gatewayText, {}⟩ = (.ok (), ⟨holding adapterText, {}⟩) := by
  refine Sink.put_run ?_
  rw [pathIn_clash.2, FileTree.writePage, if_neg (by decide), read_holding]
  dsimp only
  rw [if_neg (by decide)]
  exact write_holding gatewayText adapterText

/-- The run makes both pages, and the first of them is lost. -/
theorem schedule_clash :
    ∃ last, Schedule clash (.folder "docs") ⟨{}, {}⟩ last ∧
      ∃ page ∈ last.handed, page.isBlank = false ∧
        last.session.files.read (Sink.pathIn "docs" page.subject) ≠ .ok page.text := by
  obtain ⟨first, hname, htext, hfirst⟩ := page_gateway
  obtain ⟨second, hname', htext', hsecond⟩ := page_adapter
  have hmake := make_run (hfirst _) (by rw [hname, htext]; exact put_gateway)
  have hmake' := make_run (hsecond _) (by rw [hname', htext']; exact put_adapter)
  have hbatches : clash.batches = [[gateway], [adapter]] := by cbv
  have hpages : (clash.pages (.folder "docs")).run.run ⟨{}, {}⟩ =
      (.ok [first, second], ⟨holding adapterText, {}⟩) := by
    simp only [pages, hbatches, List.mapM_cons, List.mapM_nil, Stateful.run_bind, hmake, hmake',
      Stateful.run_pure]
    rfl
  obtain ⟨last, hlast, hsession, hhanded⟩ := schedule_of_pages hpages
  refine ⟨last, hlast, first, hhanded ▸ List.mem_cons_self, ?_, ?_⟩
  · rw [Page.isBlank, htext]
    decide
  · rw [hsession, hname, htext, pathIn_clash.1, read_holding]
    exact fun heq => absurd (Except.ok.inj heq) (by decide)

theorem pages_on_disk_clash :
    clash.maker.workspace.registry.Distinct ∧ Catalogue.KeepsFiles clash.maker.catalogue ∧
    ∃ last, Schedule clash (.folder "docs") ⟨{}, {}⟩ last ∧
      (∃! page, page ∈ last.handed ∧ page.subject = "API") ∧
      (∀ page ∈ last.handed, page.isBlank = false →
        ∃ kept, Page.lastAt? "docs" (page.home? "docs") last.handed = some kept ∧
          last.session.files.read (Sink.pathIn "docs" page.subject) = .ok kept.text) ∧
      ¬∀ page ∈ last.handed, ∀ other ∈ last.handed, page.isBlank = false → other.isBlank = false →
        page.home? "docs" = other.home? "docs" → page.text = other.text := by
  obtain ⟨last, hlast, page, hpage, hblank, hlost⟩ := schedule_clash
  obtain ⟨hunique, hkept, hall⟩ :=
    pages_on_disk distinct_clash Directive.standard_keepsFiles hlast
  exact ⟨distinct_clash, Directive.standard_keepsFiles, last, hlast,
    hunique gateway List.mem_cons_self, hkept, fun hsame => hlost (hall.mpr hsame page hpage hblank)⟩

/-- Not every page stays in its file. -/
theorem not_pages_on_disk :
    ¬∀ (run : Run) (dir : String) (σ : Session) (last : Progress),
      run.maker.workspace.registry.Distinct → Catalogue.KeepsFiles run.maker.catalogue →
      Schedule run (.folder dir) σ last → ∀ page ∈ last.handed, page.isBlank = false →
        last.session.files.read (Sink.pathIn dir page.subject) = .ok page.text := by
  intro h
  obtain ⟨last, hlast, page, hpage, hblank, hlost⟩ := schedule_clash
  exact hlost (h clash "docs" ⟨{}, {}⟩ last distinct_clash Directive.standard_keepsFiles hlast page
    hpage hblank)

end Run

end DocWeave
