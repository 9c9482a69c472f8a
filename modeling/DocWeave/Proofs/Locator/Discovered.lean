import DocWeave.Proofs.Locator.Outcomes
import DocWeave.Proofs.Manifest.RecordedLines
import DocWeave.Proofs.Outline.Places
import DocWeave.Proofs.Outline.Rejoined
import DocWeave.Proofs.Registry.Lineage

/-!
# Searches among discovered subjects

In a project without declared subjects every subject has the file in which it was seen first, and every
line recorded for a member stands there (`hasMemberAt_of_memberLine?`). Whatever that file declares of
the subject has such a line (`exists_memberLine?`). A search sees the same lines and outlines as the
discovery has seen (`linesIn_of_read`, `outlineIn_eq`), however the lines of a file end
(`outlines_agree`), and it meets registered subjects only, first of all the one it starts from
(`Registry.lineage_cons`).
-/

namespace DocWeave

open DocWeave.Text

/-! ## What was recorded -/

namespace Manifest

variable {m : Manifest} {files : FileTree} {subjects : List Subject} {s : Subject}

theorem declarationsIn_of_read {root file text : String}
    (h : files.read (Path.join root file) = .ok text) :
    declarationsIn files root file = Outline.ofLines (lines text.toList) := by
  refine declarationsIn_of_ok ?_
  delta outlineOf
  dsimp only
  rw [h]
  rfl

theorem mem_declarationsIn {root file : String} {d : Outline.Declaration}
    (h : d ∈ declarationsIn files root file) :
    ∃ text, files.read (Path.join root file) = .ok text ∧
      declarationsIn files root file = Outline.ofLines (lines text.toList) := by
  cases hread : files.read (Path.join root file) with
  | error fault =>
    delta declarationsIn outlineOf at h
    dsimp only at h
    rw [hread] at h
    cases h
  | ok text => exact ⟨text, rfl, declarationsIn_of_read hread⟩

theorem sightings_discovered (hm : m.subjects = []) (name : String) :
    m.sightings files name =
      ((m.sources files).toOption.getD []).flatMap (seenIn files m.project.root name) := by
  have hentries : m.entriesFor name = [] := by rw [entriesFor, hm, List.filter_nil]
  unfold sightings
  rw [hentries]
  split
  · next h => exact h.symm
  · rfl

theorem fileOf_discovered (hm : m.subjects = []) (name : String) :
    m.fileOf files name = homeFile (m.sightings files name) := by
  have hentries : m.entriesFor name = [] := by rw [entriesFor, hm, List.filter_nil]
  rw [fileOf, hentries]
  rfl

/-- What the file shows in which a subject is seen first comes before all else. -/
theorem flatMap_seenIn {root name file : String} {sources : List String}
    (h : homeFile (sources.flatMap (seenIn files root name)) = some file) :
    ∃ later, sources.flatMap (seenIn files root name) = seenIn files root name file ++ later := by
  induction sources with
  | nil => cases h
  | cons first sources ih =>
    rw [List.flatMap_cons] at h ⊢
    cases hseen : seenIn files root name first with
    | nil =>
      rw [hseen] at h
      exact ih h
    | cons g seen =>
      have hfile : g.file = first := by
        have hg : g ∈ seenIn files root name first := by
          rw [hseen]
          exact List.mem_cons_self
        obtain ⟨d, _, rfl⟩ := List.mem_map.mp hg
        rfl
      rw [hseen] at h
      obtain rfl : g.file = file := Option.some.inj h
      rw [hfile, hseen]
      exact ⟨_, rfl⟩

/-- A recorded line is one of the subject's own file. -/
theorem hasMemberAt_of_memberLine? (hm : m.subjects = []) (hcollect : m.collect files = .ok subjects)
    (hs : s ∈ subjects) {name : String} {kind : MemberKind} {line : Nat}
    (hline : s.memberLine? name kind = some line) :
    ∃ file, s.file = some file ∧
      HasMemberAt (declarationsIn files m.project.root file) s.name name kind line := by
  have hrecords := collect_records (fun d hd => by rw [hm] at hd; cases hd) hcollect hs
  rw [hrecords.memberLine] at hline
  obtain ⟨⟨home, line'⟩, hfirst, hhome⟩ := Option.bind_eq_some_iff.mp hline
  split at hhome
  · next hfile =>
    obtain rfl : line' = some line := hhome
    refine ⟨home, ?_, firstMember_at (fun g hg => mem_sightings hg) hfirst⟩
    rw [hrecords.file, fileOf_discovered hm, hfile]
  · cases hhome

/-- What its own file declares of a subject has a recorded line. -/
theorem exists_memberLine? (hm : m.subjects = []) (hcollect : m.collect files = .ok subjects)
    (hs : s ∈ subjects) {file : String} (hfile : s.file = some file) {d : Outline.Declaration}
    (hd : d ∈ declarationsIn files m.project.root file) (hname : d.name = s.name) {x : Member}
    (hx : x ∈ d.members) : ∃ line, s.memberLine? x.name x.kind = some line := by
  have hrecords := collect_records (fun d hd => by rw [hm] at hd; cases hd) hcollect hs
  have hhome : homeFile (m.sightings files s.name) = some file := by
    rw [← fileOf_discovered hm, ← hrecords.file, hfile]
  -- the member is seen in the home file, so its first sighting is there too
  obtain ⟨later, hsplit⟩ : ∃ later, m.sightings files s.name =
      seenIn files m.project.root s.name file ++ later := by
    rw [sightings_discovered hm] at hhome ⊢
    exact flatMap_seenIn hhome
  have hseen : (⟨file, d⟩ : Sighting) ∈ seenIn files m.project.root s.name file :=
    List.mem_map_of_mem (List.mem_filter.mpr ⟨hd, by simpa using hname⟩)
  obtain ⟨first, hfirst⟩ : ∃ first,
      firstMember (seenIn files m.project.root s.name file) x.name x.kind = some first := by
    refine Option.isSome_iff_exists.mp (List.findSome?_isSome_iff.mpr ⟨_, hseen, ?_⟩)
    rw [Option.isSome_map, List.find?_isSome]
    exact ⟨x, hx, Member.isCalled_iff.mpr rfl⟩
  obtain ⟨g, hg, hmap⟩ := List.exists_of_findSome?_eq_some hfirst
  obtain ⟨y, hy, rfl⟩ := Option.map_eq_some_iff.mp hmap
  obtain ⟨e, he, rfl⟩ := List.mem_map.mp hg
  obtain ⟨text, _, hdecls⟩ := mem_declarationsIn hd
  obtain ⟨start, _, _, hline, _⟩ := Outline.ofLines_placed (hdecls ▸ (List.mem_filter.mp he).1)
    (List.mem_of_find?_eq_some hy)
  refine ⟨start + 1, ?_⟩
  rw [hrecords.memberLine, firstMember, hsplit, List.findSome?_append, ← firstMember, hfirst,
    Option.some_or, Option.bind_some, ← hsplit, if_pos hhome, hline]

end Manifest

/-! ## What a search sees of the files -/

namespace Locator

open DocWeave.Manifest (declarationsIn)

theorem recordedLine?_eq_memberLine? (s : Subject) (name : String) {kind : MemberKind}
    (h : kind ≠ .constant) : recordedLine? s name kind = s.memberLine? name kind := by
  cases kind with
  | constant => exact absurd rfl h
  | onInstance => rfl
  | onClass => rfl

variable {root file : String} {files : FileTree} {σ : Session}

theorem linesIn_of_read (hσ : Alike root { files } σ) {text : String}
    (hread : files.read (Path.join root file) = .ok text) :
    linesIn root σ file = .ok (lines text.toList) := by
  rw [← hσ.lines file]
  simp only [linesIn, OrderedMap.get?, hread]

theorem read_of_linesIn (hσ : Alike root { files } σ) {found : List (List Char)}
    (h : linesIn root σ file = .ok found) :
    ∃ text, files.read (Path.join root file) = .ok text ∧ found = lines text.toList := by
  rw [← hσ.lines file] at h
  cases hread : files.read (Path.join root file) with
  | error fault =>
    simp only [linesIn, OrderedMap.get?, hread] at h
    cases h
  | ok text =>
    simp only [linesIn, OrderedMap.get?, hread] at h
    cases h
    exact ⟨text, rfl, rfl⟩

/-- The outline of the lines that a search keeps of a file is that of its text. -/
theorem outlineIn_of_read (hσ : Alike root { files } σ) {text : String}
    (hread : files.read (Path.join root file) = .ok text) :
    outlineIn root σ file = .ok (Outline.ofSource text) := by
  rw [← hσ.outlines file]
  change (linesIn root { files } file).map _ = _
  rw [linesIn_of_read (Alike.refl root { files }) hread]
  exact congrArg Except.ok (Outline.ofSource_joinLines text)

/-- The outline that a search makes of a file is the one that the discovery has made. -/
theorem outlineIn_eq (hσ : Alike root { files } σ) {ds : List Outline.Declaration}
    (h : outlineIn root σ file = .ok ds) : ds = declarationsIn files root file := by
  cases hread : files.read (Path.join root file) with
  | error fault =>
    rw [← hσ.outlines file] at h
    simp only [outlineIn, linesIn, OrderedMap.get?, hread] at h
    cases h
  | ok text =>
    rw [outlineIn_of_read hσ hread] at h
    rw [Manifest.declarationsIn_of_read hread, ← Except.ok.inj h]
    rfl

/-- **One outline.** Joining the lines of a text again changes nothing in its outline, whatever the line
ends are and whatever is left open at the end. So discovery and search see the same outline of a file, and
it is that of the text. -/
theorem outlines_agree (text : String) :
    Outline.ofSource (String.ofList (joinLines (lines text.toList))) = Outline.ofSource text ∧
      ∀ (files : FileTree) (root file : String), files.read (Path.join root file) = .ok text →
        Manifest.outlineOf files root file = .ok (Outline.ofSource text) ∧
          ∀ σ, Alike root { files } σ →
            outcome σ (outlineOf root file) = .ok (Outline.ofSource text) := by
  refine ⟨Outline.ofSource_joinLines text, fun files root file hread => ⟨?_, fun σ hσ => ?_⟩⟩
  · delta Manifest.outlineOf
    dsimp only
    rw [hread]
  · rw [outcome_outlineOf]
    exact outlineIn_of_read hσ hread

/-- A source with several kinds of line ends, in which a class and a constant are left open. -/
def openEnded : String := "class A\r\n  def x\n    1\r\r\n  end\r\n  K = [1,\r\n\r\n\n"

/-- A project with this source. -/
def openEndedFiles : FileTree := { files := [(["a.rb"], openEnded)] }

/-- A session that has kept the lines of the source. -/
def openEndedSession : Session :=
  withLines { files := openEndedFiles } "a.rb"
    (["class A", "  def x", "    1\r", "  end", "  K = [1,", "", ""].map String.toList)

theorem outlines_agree_openEnded :
    openEndedFiles.read (Path.join "." "a.rb") = .ok openEnded ∧
      Alike "." { files := openEndedFiles } openEndedSession ∧
      Manifest.outlineOf openEndedFiles "." "a.rb" = .ok (Outline.ofSource openEnded) ∧
      outcome openEndedSession (outlineOf "." "a.rb") = .ok (Outline.ofSource openEnded) ∧
      (Outline.ofSource openEnded).map (fun d => (d.name, d.members.length, d.constants.length)) =
        [("A", 1, 1)] := by
  have hread : openEndedFiles.read (Path.join "." "a.rb") = .ok openEnded :=
    Stateful.eq_ok_of_toOption (by decide +kernel)
  have hlines : linesIn "." { files := openEndedFiles } "a.rb" = .ok
      (["class A", "  def x", "    1\r", "  end", "  K = [1,", "", ""].map String.toList) :=
    Stateful.eq_ok_of_toOption (by decide +kernel)
  have hσ : Alike "." { files := openEndedFiles } openEndedSession := alike_withLines hlines
  obtain ⟨hfound, hsearch⟩ := (outlines_agree openEnded).2 openEndedFiles "." "a.rb" hread
  exact ⟨hread, hσ, hfound, hsearch _ hσ, by decide +kernel⟩

/-! ## Subjects that inherit nothing -/

/-- What the site of a member depends on, as far as the subject alone is searched. -/
structure Sketch where
  name : String
  file : Option String
  parent : Option String := none
  includes : List String := []
  line : Option Nat
deriving DecidableEq

def sketch (name : String) (kind : MemberKind) (s : Subject) : Sketch :=
  ⟨s.name, s.file, s.parent, s.includes, s.memberLine? name kind⟩

/-- A project of one source file. -/
def oneFile : Manifest := { patterns := ["a.rb"] }

/-- The subjects of one source file, as a look at its declarations shows them. -/
theorem exists_sketched (files : FileTree) (name : String) (kind : MemberKind) (sketches : List Sketch)
    (hfile : (Manifest.filesOf files "." "a.rb").toOption = some ["a.rb"])
    (h : (Manifest.discoverFile files "." [] "a.rb").toOption.map
      (fun found => (OrderedMap.values found).map (sketch name kind)) = some sketches) :
    ∃ subjects, oneFile.collect files = .ok subjects ∧ subjects.map (sketch name kind) = sketches := by
  have hsources : oneFile.sources files = .ok ["a.rb"] := by
    refine Manifest.sources_of_sorted [["a.rb"]] ?_ (by decide)
    show (["a.rb"].mapM (Manifest.filesOf files ".")).toOption = _
    rw [List.mapM_cons, Stateful.eq_ok_of_toOption hfile]
    rfl
  obtain ⟨found, hfound, rfl⟩ := Option.map_eq_some_iff.mp h
  refine ⟨found.values, ?_, rfl⟩
  rw [Manifest.collect, hsources]
  show ((Manifest.discoverFile files "." [] "a.rb" >>= pure) >>= fun found => _) = _
  rw [Stateful.eq_ok_of_toOption hfound]
  rfl

variable {registry : Registry} {S : Subject} {name subject : String} {kind : MemberKind} {line : Nat}

theorem sketch_lineage (h : sketch name kind S = { name := subject, file := some file, line := some line })
    (hget : registry.get? subject = some S) : registry.lineage S.name = [S] := by
  obtain ⟨hname, _, hparent, hincludes, _⟩ := Sketch.mk.inj h
  rw [hname]
  exact Registry.lineage_eq_singleton hget hparent hincludes

theorem sketch_findDefinition
    (h : sketch name kind S = { name := subject, file := some file, line := some line })
    (hget : registry.get? subject = some S) (hkind : kind ≠ .constant) {s : Site}
    (hs : outcome σ (siteAt root file line (shapeOf kind)) = .ok s) :
    outcome σ (findDefinition root name kind (registry.lineage S.name)) = .ok (some s) := by
  rw [sketch_lineage h hget, outcome_findDefinition_cons]
  obtain ⟨_, hfile, _, _, hline⟩ := Sketch.mk.inj h
  rw [hfile]
  dsimp only
  rw [definedLine, recordedLine?_eq_memberLine? S name hkind, hline]
  show (outcome σ (siteAt root file line (shapeOf kind))).map some = _
  rw [hs]
  rfl

theorem sketch_findDeclarative
    (h : sketch name kind S = { name := subject, file := some file, line := some line })
    (hget : registry.get? subject = some S) (named : Nat)
    (hnamed : namedLine root σ file name = some named) {s : Site}
    (hs : outcome σ (siteAt root file named .statement) = .ok s) (hcomment : s.hasComment = true) :
    outcome σ (findDeclarative root name (registry.lineage S.name)) = .ok (some s) := by
  rw [sketch_lineage h hget, outcome_findDeclarative_cons]
  obtain ⟨_, hfile, _, _, _⟩ := Sketch.mk.inj h
  simp only [hfile, hnamed, hs, hcomment, if_true]

theorem get?_sketched (rest : List Subject) {file : Option String} {line : Option Nat}
    (h : sketch name kind S = { name := "A", file, line }) :
    Registry.get? ⟨S :: rest⟩ "A" = some S := by
  have hname : S.name = "A" := congrArg Sketch.name h
  simp [Registry.get?, hname, dropScopes]

end Locator

end DocWeave
