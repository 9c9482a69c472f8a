import DocWeave.Proofs.FileTree.Writing
import DocWeave.Proofs.Locator.Views

/-!
# Searches on a snapshot

A session keeps the lines and outlines that its searches have read, while the files may change between
two searches. Beside each search stands one that keeps nothing and reads every source afresh from a
*snapshot* (`Locator.Afresh`). A session answers every call as the search that keeps nothing does, on the
snapshot in which a source that was read before has the text of its first reading and every other source
has the text that its file holds now (`serve_on_snapshots`). Sources are told apart by their names, not by
the files behind them: a file with two names may be read once under each (`not_serve_on_places`).
-/

namespace DocWeave.Locator

open DocWeave.Text

/-! ## Searches that keep nothing -/

/-- The texts of sources, by the names under which they are asked for. -/
abbrev Snapshot := String → Except FileFault String

/-- A search that reads every source afresh. It only notes the names it has asked for. -/
abbrev AfreshM := ExceptT LocateFault (StateM (List String))

namespace Afresh

/-- The result of a search, or nothing when it fails. -/
def attempt {α : Type} (step : AfreshM α) : AfreshM (Option α) :=
  ExceptT.mk do return .ok (← step.run).toOption

/-- The lines of a source. -/
def linesOf (root : String) (snapshot : Snapshot) (file : String) : AfreshM (List (List Char)) := do
  modify (file :: ·)
  match snapshot file with
  | .error fault => throw (.unreadable (Path.join root file) fault)
  | .ok text => return lines text.toList

/-- The outline of a source. -/
def outlineOf (root : String) (snapshot : Snapshot) (file : String) :
    AfreshM (List Outline.Declaration) := do
  let found ← linesOf root snapshot file
  return Outline.ofSource (String.ofList (joinLines found))

/-- The definition on a line of a source. -/
def siteAt (root : String) (snapshot : Snapshot) (file : String) (line : Nat) (shape : Shape) :
    AfreshM Site := do
  match Site.ofLines? file (← linesOf root snapshot file) line shape with
  | some site => return site
  | none => throw (.noLine file line)

/-- The line on which a subject's file defines a member. -/
def definitionLine (root : String) (snapshot : Snapshot) (s : Subject) (file name : String)
    (kind : MemberKind) : AfreshM (Option Nat) := do
  match recordedLine? s name kind with
  | some line => return some line
  | none =>
    match ← attempt (outlineOf root snapshot file) with
    | some outline => return (declarationOf? outline s.name).bind fun d => declaredLine? d name kind
    | none => return none

/-- The first line of a file that declares a member by name. -/
def declarativeLine (root : String) (snapshot : Snapshot) (file name : String) :
    AfreshM (Option Nat) := do
  match ← attempt (linesOf root snapshot file) with
  | none => return none
  | some lines =>
    return (lines.findIdx? fun l => (Outline.declarativeNames l).contains name).map (· + 1)

/-- The first definition of a member along some subjects. -/
def findDefinition (root : String) (snapshot : Snapshot) (name : String) (kind : MemberKind) :
    List Subject → AfreshM (Option Site)
  | [] => return none
  | s :: rest => do
    match s.file with
    | none => findDefinition root snapshot name kind rest
    | some file =>
      match ← definitionLine root snapshot s file name kind with
      | some line => return some (← siteAt root snapshot file line (shapeOf kind))
      | none => findDefinition root snapshot name kind rest

/-- The first declarative line with a comment that names a member along some subjects. -/
def findDeclarative (root : String) (snapshot : Snapshot) (name : String) :
    List Subject → AfreshM (Option Site)
  | [] => return none
  | s :: rest => do
    match s.file with
    | none => findDeclarative root snapshot name rest
    | some file =>
      match ← declarativeLine root snapshot file name with
      | none => findDeclarative root snapshot name rest
      | some line =>
        let site ← siteAt root snapshot file line .statement
        if site.hasComment then return some site else findDeclarative root snapshot name rest

/-- The place that a reference gives itself. -/
def placedSite (root : String) (snapshot : Snapshot) (r : Reference) (context : Subject)
    (line : Nat) : AfreshM Site :=
  match r.file <|> context.file with
  | some file => siteAt root snapshot file line (shapeOf r.kind)
  | none => throw (.noFile context.name)

/-- The definition of the member that a reference names. -/
def locate (root : String) (snapshot : Snapshot) (registry : Registry) (r : Reference)
    (context : Subject) : AfreshM Site := do
  match r.line with
  | some line => placedSite root snapshot r context line
  | none =>
    let lineage := registry.lineage context.name
    let definition ← findDefinition root snapshot r.name r.kind lineage
    match definition.filter Site.hasComment with
    | some site => return site
    | none =>
      let declarative ←
        if r.kind = .onInstance then findDeclarative root snapshot r.name lineage else pure none
      match declarative <|> definition with
      | some site => return site
      | none => throw (.undefined r.name context.name)

/-- The declaration of a subject. -/
def locateSubject (root : String) (snapshot : Snapshot) (s : Subject) : AfreshM Site := do
  match s.file with
  | none => throw (.noFile s.name)
  | some file =>
    match s.line with
    | some line => siteAt root snapshot file line .block
    | none =>
      match declarationOf? (← outlineOf root snapshot file) s.name with
      | some d => siteAt root snapshot file d.line .block
      | none => throw (.undeclared s.name file)

end Afresh

/-! ## Snapshots -/

/-- The snapshot in which a source has the text that is kept under its key, or else the one that its file
holds now. -/
def snapshotAt {κ : Type} (root : String) (key : String → κ) (kept : κ → Option String)
    (files : FileTree) : Snapshot := fun file =>
  match kept (key file) with
  | some text => .ok text
  | none => files.read (Path.join root file)

/-- What is kept after a search has asked for some sources: what was kept before, and else the texts of
those that could be read. -/
def keepAsked {κ : Type} [DecidableEq κ] (key : String → κ) (kept : κ → Option String)
    (snapshot : Snapshot) (asked : List String) : κ → Option String := fun k =>
  (kept k).or (asked.findSome? fun file => if key file = k then (snapshot file).toOption else none)

/-! ## One call -/

/-- What a session has read is what is kept, and its outlines are those of the lines it has read. -/
structure Holds (σ : Session) (kept : String → Option String) : Prop where
  lines : ∀ file, σ.cache.lines.get? file = (kept file).map fun text => lines text.toList
  outlines : ∀ file outline, σ.cache.outlines.get? file = some outline →
    ∃ found, σ.cache.lines.get? file = some found ∧
      outline = Outline.ofSource (String.ofList (joinLines found))

section Call

variable {root : String} {kept : String → Option String} {files : FileTree} {asked : List String}

theorem keepAsked_nil (snapshot : Snapshot) : keepAsked id kept snapshot [] = kept := by
  funext file
  exact Option.or_none

/-- Under its own name a source is kept when it was kept before, or else when it was asked for. -/
theorem keepAsked_id (snapshot : Snapshot) (file : String) :
    keepAsked id kept snapshot asked file =
      (kept file).or (if file ∈ asked then (snapshot file).toOption else none) := by
  rw [keepAsked]
  congr 1
  induction asked with
  | nil => rfl
  | cons other asked ih =>
    rw [List.findSome?_cons, ih]
    by_cases heq : other = file
    · subst heq
      cases (snapshot other).toOption with
      | some text => simp
      | none => simp
    · have hne : file ≠ other := fun h => heq h.symm
      simp [heq, hne]

/-- A text that is kept is the one in the snapshot. -/
theorem snapshotAt_of_kept {file text : String}
    (h : keepAsked id kept (snapshotAt root id kept files) asked file = some text) :
    snapshotAt root id kept files file = .ok text := by
  rw [keepAsked_id] at h
  cases hkept : kept file with
  | some before =>
    have hbefore : before = text := by simpa [hkept] using h
    simp [snapshotAt, hkept, hbefore]
  | none =>
    rw [hkept, Option.none_or] at h
    split at h
    · exact Stateful.eq_ok_of_toOption h
    · cases h

/-- A source of which nothing is kept is read from its file. -/
theorem snapshotAt_of_not_kept {file : String}
    (h : keepAsked id kept (snapshotAt root id kept files) asked file = none) :
    snapshotAt root id kept files file = files.read (Path.join root file) := by
  rw [keepAsked_id, Option.or_eq_none_iff] at h
  simp [snapshotAt, h.1]

/-- Asking for one more source keeps its text, if it has one. -/
theorem keepAsked_cons (file other : String) :
    keepAsked id kept (snapshotAt root id kept files) (file :: asked) other =
      if other = file then (snapshotAt root id kept files file).toOption
      else keepAsked id kept (snapshotAt root id kept files) asked other := by
  rw [keepAsked_id, keepAsked_id]
  by_cases heq : other = file
  · subst heq
    rw [if_pos rfl, if_pos List.mem_cons_self]
    cases hkept : kept other with
    | some text => simp [snapshotAt, hkept, Except.toOption]
    | none => rw [Option.none_or]
  · simp [heq]

/-- The session answers as a search on the snapshot does, in every state that holds what the search has
asked for so far, and afterwards holds what the search has asked for until then. -/
def Follows (root : String) (kept : String → Option String) (files : FileTree) {α : Type}
    (step : LocateM α) (afresh : AfreshM α) : Prop :=
  ∀ σ asked, σ.files = files → Holds σ (keepAsked id kept (snapshotAt root id kept files) asked) →
    (step.run.run σ).1 = (afresh.run.run asked).1 ∧ (step.run.run σ).2.files = files ∧
      Holds (step.run.run σ).2
        (keepAsked id kept (snapshotAt root id kept files) (afresh.run.run asked).2)

namespace Follows

variable {α β : Type}

theorem pure (a : α) : Follows root kept files (pure a) (pure a) :=
  fun _ _ hfiles hholds => ⟨rfl, hfiles, hholds⟩

theorem throw (fault : LocateFault) : Follows root kept files (α := α) (throw fault) (throw fault) :=
  fun _ _ hfiles hholds => ⟨rfl, hfiles, hholds⟩

theorem bind {step : LocateM α} {afresh : AfreshM α} {next : α → LocateM β} {next' : α → AfreshM β}
    (h : Follows root kept files step afresh) (hnext : ∀ a, Follows root kept files (next a) (next' a)) :
    Follows root kept files (step >>= next) (afresh >>= next') := by
  intro σ asked hfiles hholds
  have hstep := h σ asked hfiles hholds
  rw [Stateful.run_bind, Stateful.run_bind]
  rcases hs : step.run.run σ with ⟨o, τ⟩
  rcases ha : afresh.run.run asked with ⟨o', asked'⟩
  rw [hs, ha] at hstep
  obtain ⟨rfl, hfiles', hholds'⟩ := hstep
  cases o with
  | error fault => exact ⟨rfl, hfiles', hholds'⟩
  | ok a => exact hnext a τ asked' hfiles' hholds'

theorem attempt {step : LocateM α} {afresh : AfreshM α} (h : Follows root kept files step afresh) :
    Follows root kept files step.attempt (Afresh.attempt afresh) := by
  intro σ asked hfiles hholds
  obtain ⟨hsame, hfiles', hholds'⟩ := h σ asked hfiles hholds
  exact ⟨congrArg (fun o => Except.ok (Except.toOption o)) hsame, hfiles', hholds'⟩

end Follows

/-- What a search on a snapshot reads, and that it notes the name. -/
theorem afresh_linesOf_run (snapshot : Snapshot) (file : String) :
    (Afresh.linesOf root snapshot file).run.run asked =
      (match snapshot file with
        | .error fault => .error (.unreadable (Path.join root file) fault)
        | .ok text => .ok (lines text.toList), file :: asked) := by
  rw [Afresh.linesOf, Stateful.run_bind, Stateful.run_modify]
  cases snapshot file <;> rfl

/-- Keeping the text of a source that was asked for before changes nothing. -/
theorem holds_ask {σ : Session} {file : String}
    (h : Holds σ (keepAsked id kept (snapshotAt root id kept files) asked))
    (hkept : keepAsked id kept (snapshotAt root id kept files) asked file =
      (snapshotAt root id kept files file).toOption) :
    Holds σ (keepAsked id kept (snapshotAt root id kept files) (file :: asked)) := by
  refine ⟨?_, h.outlines⟩
  intro other
  rw [keepAsked_cons]
  split
  · next heq => rw [heq, h.lines, hkept]
  · exact h.lines other

/-- A session that has just read a source. -/
theorem holds_withLines {σ : Session} {file text : String}
    (h : Holds σ (keepAsked id kept (snapshotAt root id kept files) asked))
    (hnew : σ.cache.lines.get? file = none)
    (htext : snapshotAt root id kept files file = .ok text) :
    Holds (withLines σ file (lines text.toList))
      (keepAsked id kept (snapshotAt root id kept files) (file :: asked)) := by
  have hget : ∀ other, (withLines σ file (lines text.toList)).cache.lines.get? other =
      if other = file then some (lines text.toList) else σ.cache.lines.get? other :=
    fun other => OrderedMap.get?_insert _ _ _ _
  constructor
  · intro other
    rw [hget, keepAsked_cons]
    split
    · rw [htext]
      rfl
    · exact h.lines other
  · intro other outline houtline
    obtain ⟨found, hfound, heq⟩ := h.outlines other outline houtline
    refine ⟨found, ?_, heq⟩
    -- the source was not read before, so it has no outline yet
    rw [hget, if_neg, hfound]
    rintro rfl
    rw [hnew] at hfound
    cases hfound

theorem linesOf_follows (file : String) :
    Follows root kept files (linesOf root file)
      (Afresh.linesOf root (snapshotAt root id kept files) file) := by
  intro σ asked hfiles hholds
  rw [afresh_linesOf_run]
  have hcached := hholds.lines file
  cases hkept : keepAsked id kept (snapshotAt root id kept files) asked file with
  | some text =>
    have hsnapshot := snapshotAt_of_kept hkept
    rw [hkept] at hcached
    have hrun : (linesOf root file).run.run σ = (.ok (lines text.toList), σ) := by
      rw [linesOf, Stateful.run_bind, Stateful.run_get]
      simp only [hcached, Option.map_some]
      rfl
    rw [hrun, hsnapshot]
    exact ⟨rfl, hfiles, holds_ask hholds (by rw [hkept, hsnapshot]; rfl)⟩
  | none =>
    have hsnapshot := snapshotAt_of_not_kept hkept
    rw [hkept] at hcached
    have hrun : (linesOf root file).run.run σ =
        match files.read (Path.join root file) with
        | .error fault => (.error (.unreadable (Path.join root file) fault), σ)
        | .ok text => (.ok (lines text.toList), withLines σ file (lines text.toList)) := by
      rw [linesOf, Stateful.run_bind, Stateful.run_get]
      simp only [hcached, Option.map_none, hfiles]
      cases files.read (Path.join root file) <;> rfl
    rw [hrun]
    cases hread : files.read (Path.join root file) with
    | error fault =>
      rw [hread] at hsnapshot
      rw [hsnapshot]
      exact ⟨rfl, hfiles, holds_ask hholds (by rw [hkept, hsnapshot]; rfl)⟩
    | ok text =>
      rw [hread] at hsnapshot
      rw [hsnapshot]
      exact ⟨rfl, hfiles, holds_withLines hholds hcached hsnapshot⟩

/-- A session that has read a source and makes its outline. -/
theorem holds_withOutline {σ : Session} {file text : String}
    (h : Holds σ (keepAsked id kept (snapshotAt root id kept files) (file :: asked)))
    (htext : snapshotAt root id kept files file = .ok text) :
    Holds (withOutline σ file (Outline.ofSource (String.ofList (joinLines (lines text.toList)))))
      (keepAsked id kept (snapshotAt root id kept files) (file :: asked)) := by
  refine ⟨h.lines, ?_⟩
  intro other outline houtline
  rw [withOutline, OrderedMap.get?_insert] at houtline
  split at houtline
  · next heq =>
    refine ⟨lines text.toList, ?_, (Option.some.inj houtline).symm⟩
    show σ.cache.lines.get? other = _
    rw [h.lines, heq, keepAsked_cons, if_pos rfl, htext]
    rfl
  · exact h.outlines other outline houtline

theorem outlineOf_follows (file : String) :
    Follows root kept files (outlineOf root file)
      (Afresh.outlineOf root (snapshotAt root id kept files) file) := by
  intro σ asked hfiles hholds
  obtain ⟨hsame, hfiles', hholds'⟩ := linesOf_follows file σ asked hfiles hholds
  rw [afresh_linesOf_run] at hsame hholds'
  have hafresh : (Afresh.outlineOf root (snapshotAt root id kept files) file).run.run asked =
      (match snapshotAt root id kept files file with
        | .error fault => .error (.unreadable (Path.join root file) fault)
        | .ok text => .ok (Outline.ofSource (String.ofList (joinLines (lines text.toList)))),
        file :: asked) := by
    rw [Afresh.outlineOf, Stateful.run_bind, afresh_linesOf_run]
    cases snapshotAt root id kept files file <;> rfl
  rw [hafresh, outlineOf, Stateful.run_bind, Stateful.run_get]
  cases hc : σ.cache.outlines.get? file with
  | some outline =>
    obtain ⟨found, hfound, rfl⟩ := hholds.outlines file outline hc
    -- a source with an outline was read, so asking for it changes nothing
    rw [hholds.lines, Option.map_eq_some_iff] at hfound
    obtain ⟨text, hkept, rfl⟩ := hfound
    have hsnapshot := snapshotAt_of_kept hkept
    simp only [hc]
    rw [hsnapshot]
    exact ⟨rfl, hfiles, holds_ask hholds (by rw [hkept, hsnapshot]; rfl)⟩
  | none =>
    simp only [hc]
    rw [Stateful.run_bind]
    rcases hrun : (linesOf root file).run.run σ with ⟨o, τ⟩
    rw [hrun] at hsame hfiles' hholds'
    cases hsnapshot : snapshotAt root id kept files file with
    | error fault =>
      rw [hsnapshot] at hsame
      obtain rfl : o = _ := hsame
      exact ⟨rfl, hfiles', hholds'⟩
    | ok text =>
      rw [hsnapshot] at hsame
      obtain rfl : o = _ := hsame
      exact ⟨rfl, hfiles', holds_withOutline hholds' hsnapshot⟩

theorem siteAt_follows (file : String) (line : Nat) (shape : Shape) :
    Follows root kept files (siteAt root file line shape)
      (Afresh.siteAt root (snapshotAt root id kept files) file line shape) := by
  refine (linesOf_follows file).bind fun found => ?_
  cases Site.ofLines? file found line shape with
  | some site => exact .pure site
  | none => exact .throw _

theorem definitionLine_follows (s : Subject) (file name : String) (kind : MemberKind) :
    Follows root kept files (definitionLine root s file name kind)
      (Afresh.definitionLine root (snapshotAt root id kept files) s file name kind) := by
  unfold definitionLine Afresh.definitionLine
  cases recordedLine? s name kind with
  | some line => exact .pure _
  | none =>
    refine (outlineOf_follows file).attempt.bind fun outline => ?_
    cases outline <;> exact .pure _

theorem declarativeLine_follows (file name : String) :
    Follows root kept files (declarativeLine root file name)
      (Afresh.declarativeLine root (snapshotAt root id kept files) file name) := by
  refine (linesOf_follows file).attempt.bind fun found => ?_
  cases found <;> exact .pure _

theorem findDefinition_follows (name : String) (kind : MemberKind) (lineage : List Subject) :
    Follows root kept files (findDefinition root name kind lineage)
      (Afresh.findDefinition root (snapshotAt root id kept files) name kind lineage) := by
  induction lineage with
  | nil => exact .pure _
  | cons s rest ih =>
    rw [findDefinition, Afresh.findDefinition]
    cases s.file with
    | none => exact ih
    | some file =>
      refine (definitionLine_follows s file name kind).bind fun line => ?_
      cases line with
      | some line => exact (siteAt_follows file line _).bind fun site => .pure _
      | none => exact ih

theorem findDeclarative_follows (name : String) (lineage : List Subject) :
    Follows root kept files (findDeclarative root name lineage)
      (Afresh.findDeclarative root (snapshotAt root id kept files) name lineage) := by
  induction lineage with
  | nil => exact .pure _
  | cons s rest ih =>
    rw [findDeclarative, Afresh.findDeclarative]
    cases s.file with
    | none => exact ih
    | some file =>
      refine (declarativeLine_follows file name).bind fun line => ?_
      cases line with
      | none => exact ih
      | some line =>
        refine (siteAt_follows file line _).bind fun site => ?_
        cases site.hasComment with
        | true => exact .pure _
        | false => exact ih

theorem placedSite_follows (r : Reference) (context : Subject) (line : Nat) :
    Follows root kept files (placedSite root r context line)
      (Afresh.placedSite root (snapshotAt root id kept files) r context line) := by
  unfold placedSite Afresh.placedSite
  cases r.file <|> context.file with
  | some file => exact siteAt_follows file line _
  | none => exact .throw _

theorem locate_follows (registry : Registry) (r : Reference) (context : Subject) :
    Follows root kept files (locate root registry r context)
      (Afresh.locate root (snapshotAt root id kept files) registry r context) := by
  unfold locate Afresh.locate
  cases r.line with
  | some line => exact placedSite_follows r context line
  | none =>
    refine (findDefinition_follows r.name r.kind _).bind fun definition => ?_
    cases definition.filter Site.hasComment with
    | some site => exact .pure site
    | none =>
      have hlast : ∀ declarative : Option Site,
          Follows root kept files
            (match declarative <|> definition with
              | some site => pure site
              | none => throw (.undefined r.name context.name))
            (match declarative <|> definition with
              | some site => pure site
              | none => throw (.undefined r.name context.name)) := by
        intro declarative
        cases declarative <|> definition with
        | some site => exact .pure site
        | none => exact .throw _
      by_cases hkind : r.kind = .onInstance
      · simp only [hkind, if_true]
        exact (findDeclarative_follows r.name _).bind hlast
      · simp only [hkind, if_false]
        exact (Follows.pure none).bind hlast

theorem locateSubject_follows (s : Subject) :
    Follows root kept files (locateSubject root s)
      (Afresh.locateSubject root (snapshotAt root id kept files) s) := by
  unfold locateSubject Afresh.locateSubject
  cases s.file with
  | none => exact .throw _
  | some file =>
    cases s.line with
    | some line => exact siteAt_follows file line _
    | none =>
      refine (outlineOf_follows file).bind fun outline => ?_
      cases declarationOf? outline s.name with
      | some d => exact siteAt_follows file d.line _
      | none => exact .throw _

end Call

/-! ## Many calls -/

/-- A question to the locator. -/
inductive Call where
  /-- For the definition of a member. -/
  | member (registry : Registry) (r : Reference) (context : Subject)
  /-- For the declaration of a subject. -/
  | subject (s : Subject)

/-- The search that answers a call in a session. -/
def Call.search (root : String) : Call → LocateM Site
  | .member registry r context => locate root registry r context
  | .subject s => locateSubject root s

/-- The search that answers a call on a snapshot. -/
def Call.afresh (root : String) (snapshot : Snapshot) : Call → AfreshM Site
  | .member registry r context => Afresh.locate root snapshot registry r context
  | .subject s => Afresh.locateSubject root snapshot s

/-- What happens to a locator and to the files under it. -/
inductive Event where
  | call (c : Call)
  /-- The files become others. -/
  | change (files : FileTree)

/-- The answers of a session to the calls among some events, and the session behind them. -/
def serve (root : String) (σ : Session) : List Event → List (Except LocateFault Site) × Session
  | [] => ([], σ)
  | .change files :: rest => serve root { σ with files := files } rest
  | .call c :: rest =>
    let done := (c.search root).run.run σ
    let later := serve root done.2 rest
    (done.1 :: later.1, later.2)

/-- The answers to the calls among some events when each is given afresh, on the snapshot of its moment.
What was read successfully is kept under a key. -/
def answersOn {κ : Type} [DecidableEq κ] (root : String) (key : String → κ) (files : FileTree)
    (kept : κ → Option String) : List Event → List (Except LocateFault Site)
  | [] => []
  | .change files :: rest => answersOn root key files kept rest
  | .call c :: rest =>
    let snapshot := snapshotAt root key kept files
    let done := (c.afresh root snapshot).run.run []
    done.1 :: answersOn root key files (keepAsked key kept snapshot done.2) rest

theorem Call.follows (root : String) (kept : String → Option String) (files : FileTree) (c : Call) :
    Follows root kept files (c.search root) (c.afresh root (snapshotAt root id kept files)) := by
  cases c with
  | member registry r context => exact locate_follows registry r context
  | subject s => exact locateSubject_follows s

/-- One call: the session answers as on the snapshot, and then holds what the call has read as well. -/
theorem Call.step (root : String) {kept : String → Option String} {σ : Session} (c : Call)
    (h : Holds σ kept) :
    let snapshot := snapshotAt root id kept σ.files
    let done := (c.afresh root snapshot).run.run []
    ((c.search root).run.run σ).1 = done.1 ∧ ((c.search root).run.run σ).2.files = σ.files ∧
      Holds ((c.search root).run.run σ).2 (keepAsked id kept snapshot done.2) := by
  have hstart : Holds σ (keepAsked id kept (snapshotAt root id kept σ.files) []) := by
    rw [keepAsked_nil]
    exact h
  exact c.follows root kept σ.files σ [] rfl hstart

/-- All events: whatever a session holds, it answers each call on the snapshot of its moment. -/
theorem serve_of_holds (root : String) (events : List Event) {σ : Session}
    {kept : String → Option String} (h : Holds σ kept) :
    (serve root σ events).1 = answersOn root id σ.files kept events ∧
      ∃ kept', Holds (serve root σ events).2 kept' := by
  induction events generalizing σ kept with
  | nil => exact ⟨rfl, kept, h⟩
  | cons event rest ih =>
    cases event with
    | change files => exact ih ⟨h.lines, h.outlines⟩
    | call c =>
      obtain ⟨hanswer, hfiles, hholds⟩ := c.step root h
      obtain ⟨hrest, hend⟩ := ih hholds
      rw [hfiles] at hrest
      rw [serve, answersOn]
      exact ⟨by rw [hanswer, hrest], hend⟩

theorem holds_empty (files : FileTree) : Holds { files := files } fun _ => none :=
  ⟨fun _ => rfl, fun _ _ h => by cases h⟩

/-- A locator that has read nothing answers on the files as they are. -/
theorem search_of_empty (root : String) (files : FileTree) (c : Call) :
    ((c.search root).run.run { files := files }).1 =
      ((c.afresh root fun file => files.read (Path.join root file)).run.run []).1 :=
  (c.step root (holds_empty files)).1

/-- While the files stay the same, what is kept is what they hold, and so every answer is that of a
locator that has read nothing. -/
theorem answersOn_unchanged (root : String) (files : FileTree) {kept : String → Option String}
    (h : snapshotAt root id kept files = fun file => files.read (Path.join root file))
    (calls : List Call) :
    answersOn root id files kept (calls.map .call) =
      calls.map fun c => ((c.search root).run.run { files := files }).1 := by
  induction calls generalizing kept with
  | nil => rfl
  | cons c calls ih =>
    rw [List.map_cons, List.map_cons, answersOn, search_of_empty, ← h]
    refine congrArg (List.cons _) (ih ?_)
    funext file
    rw [snapshotAt]
    split
    · next text hkept =>
      have hread := snapshotAt_of_kept hkept
      rw [h] at hread
      exact hread.symm
    · rfl

/-- A locator answers each call, whatever was asked and whatever happened to the files before, as one
that has read nothing does on the snapshot in which every source that was read under its name before has
the text of the first successful reading, and every other source the text of its file. On the snapshot of
a tree this is the answer of a locator that has read nothing of this tree; so while the files stay the same,
no answer depends on the calls before. The outline that is kept of a source is always that of the lines
that are kept of it. -/
theorem serve_on_snapshots (root : String) (files : FileTree) (events : List Event) :
    (serve root { files := files } events).1 = answersOn root id files (fun _ => none) events ∧
    (∀ (tree : FileTree) (c : Call), ((c.search root).run.run { files := tree }).1 =
      ((c.afresh root fun file => tree.read (Path.join root file)).run.run []).1) ∧
    (∀ calls : List Call, (serve root { files := files } (calls.map .call)).1 =
      calls.map fun c => ((c.search root).run.run { files := files }).1) ∧
    (∀ file outline, (serve root { files := files } events).2.cache.outlines.get? file = some outline →
      ∃ found, (serve root { files := files } events).2.cache.lines.get? file = some found ∧
        outline = Outline.ofSource (String.ofList (joinLines found))) := by
  obtain ⟨hanswers, kept, hholds⟩ := serve_of_holds root events (holds_empty files)
  refine ⟨hanswers, search_of_empty root, ?_, hholds.outlines⟩
  intro calls
  rw [(serve_of_holds root (calls.map .call) (holds_empty files)).1]
  exact answersOn_unchanged root files rfl calls

/-! ## Two names of one file -/

/-- A class with one method, which has a comment. -/
def withComment (comment : String) : FileTree :=
  .ofFiles [("a.rb", "class A\n  # " ++ comment ++ "\n  def x\n  end\nend\n")]

/-- The method, placed in its file under a given name of the file. -/
def placedIn (file : String) : Call :=
  .member ⟨[]⟩ { kind := .onInstance, raw := "A#x", origin := "A", file := file, line := some 3 }
    { name := "A", file := "a.rb" }

/-- The site of the method. -/
def siteIn (file comment : String) : Site :=
  { file := file, line := 3, comment := comment ++ "\n", commentLine := 2, body := "  def x\n  end" }

/-- Texts are not kept for files but for their names: a file that is read, changed and read again under
another name gives both its texts, the later one under the later name. -/
theorem not_serve_on_places :
    let events := [.call (placedIn "a.rb"), .change (withComment "Two."), .call (placedIn "./a.rb"),
      .call (placedIn "a.rb")]
    let place := fun file => Path.destination? (Path.join "" file)
    place "./a.rb" = place "a.rb" ∧
    (serve "" { files := withComment "One." } events).1.map Except.toOption =
      [some (siteIn "a.rb" "One."), some (siteIn "./a.rb" "Two."), some (siteIn "a.rb" "One.")] ∧
    (answersOn "" place (withComment "One.") (fun _ => none) events).map Except.toOption =
      [some (siteIn "a.rb" "One."), some (siteIn "./a.rb" "One."), some (siteIn "a.rb" "One.")] ∧
    ¬ ∀ (root : String) (files : FileTree) (events : List Event),
      (serve root { files := files } events).1 =
        answersOn root (fun file => Path.destination? (Path.join root file)) files (fun _ => none)
          events := by
  intro events place
  have hserve : (serve "" { files := withComment "One." } events).1.map Except.toOption =
      [some (siteIn "a.rb" "One."), some (siteIn "./a.rb" "Two."), some (siteIn "a.rb" "One.")] := by
    decide +kernel
  have hplaces : (answersOn "" place (withComment "One.") (fun _ => none) events).map Except.toOption =
      [some (siteIn "a.rb" "One."), some (siteIn "./a.rb" "One."), some (siteIn "a.rb" "One.")] := by
    decide +kernel
  refine ⟨by decide +kernel, hserve, hplaces, ?_⟩
  intro h
  have heq := congrArg (List.map Except.toOption) (h "" (withComment "One.") events)
  rw [hserve, hplaces] at heq
  exact absurd heq (by decide +kernel)

end DocWeave.Locator
