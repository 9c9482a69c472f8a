import DocWeave.Proofs.Locator.Discovered
import DocWeave.Proofs.Site.Body

/-!
# Searches and the bounds of classes

In a project of discovered subjects a search ends in the file of a subject of the lineage. A definition
stands between the head and the end of a declaration of that subject, which has the member at this line.
A declarative line that is taken because the definition has no comment is the first one of the file that
declares the name, and may as well belong to another subject of the same file (`locate_within`).
-/

namespace DocWeave

open DocWeave.Text
open DocWeave.Manifest (declarationsIn HasMemberAt)

namespace Locator

variable {m : Manifest} {files : FileTree} {subjects : List Subject} {σ : Session} {r : Reference}
  {context : Subject} {s : Site}

/-- A member stands between the lines of the declaration of its subject that has it. -/
theorem encloses_of_hasMemberAt {root file subject name : String} {kind : MemberKind} {line : Nat}
    (h : HasMemberAt (declarationsIn files root file) subject name kind line) :
    ∃ d ∈ declarationsIn files root file, d.name = subject ∧ d.Encloses line ∧
      ∃ x ∈ d.members, x.key = (name, kind) ∧ x.line = some line := by
  obtain ⟨d, hd, hname, x, hx, hkey, hline⟩ := h
  obtain ⟨text, _, hdecls⟩ := Manifest.mem_declarationsIn hd
  exact ⟨d, hd, hname, Outline.ofLines_encloses (hdecls ▸ hd) hx hline, x, hx, hkey, hline⟩

/-- The line that is recorded or outlined for a member of a discovered subject. -/
theorem hasMemberAt_of_definedLine (hm : m.subjects = []) (hcollect : m.collect files = .ok subjects)
    (hσ : Alike m.project.root { files } σ) {S : Subject} (hS : S ∈ subjects) {file name : String}
    (hfile : S.file = some file) {kind : MemberKind} (hkind : kind ≠ .constant) {line : Nat}
    (h : definedLine m.project.root σ S file name kind = some line) :
    HasMemberAt (declarationsIn files m.project.root file) S.name name kind line := by
  rw [definedLine, recordedLine?_eq_memberLine? S name hkind] at h
  cases hrecorded : S.memberLine? name kind with
  | some recorded =>
    rw [hrecorded] at h
    obtain rfl : recorded = line := Option.some.inj h
    obtain ⟨home, hhome, hat⟩ := Manifest.hasMemberAt_of_memberLine? hm hcollect hS hrecorded
    cases hfile.symm.trans hhome
    exact hat
  | none =>
    rw [hrecorded] at h
    obtain ⟨ds, hds, h⟩ := Option.bind_eq_some_iff.mp h
    obtain ⟨d, hd, hline⟩ := Option.bind_eq_some_iff.mp h
    rw [← outlineIn_eq hσ (Stateful.eq_ok_of_toOption hds)]
    have hmember : (d.members.find? (·.isCalled name kind)).bind (·.line) = some line := by
      cases kind with
      | constant => exact absurd rfl hkind
      | onInstance => exact hline
      | onClass => exact hline
    obtain ⟨x, hx, hxline⟩ := Option.bind_eq_some_iff.mp hmember
    have hcalled : x.isCalled name kind = true := by simpa using List.find?_some hx
    exact ⟨d, List.mem_of_find?_eq_some hd, by simpa using List.find?_some hd, x,
      List.mem_of_find?_eq_some hx, Member.isCalled_iff.mp hcalled, hxline⟩

/-- **Bounds of classes.** Where all subjects are discovered, the site of a member stands in the file of
a subject of the lineage. It lies between the lines of a declaration of that subject, which has the
member at this line. Or else the member is one of instances, its definition is missing or has no comment,
and the site is the first line of the file that declares the name, with its comment. -/
theorem locate_within (hm : m.subjects = []) (hcollect : m.collect files = .ok subjects)
    (hσ : Alike m.project.root { files } σ) (hline : r.line = none) (hkind : r.kind ≠ .constant)
    (hs : outcome σ (locate m.project.root ⟨subjects⟩ r context) = .ok s) :
    ∃ S ∈ Registry.lineage ⟨subjects⟩ context.name, S.file = some s.file ∧
      ((∃ d ∈ declarationsIn files m.project.root s.file, d.name = S.name ∧ d.Encloses s.line ∧
          ∃ x ∈ d.members, x.key = (r.name, r.kind) ∧ x.line = some s.line) ∨
        (r.kind = .onInstance ∧ s.hasComment = true ∧
          namedLine m.project.root σ s.file r.name = some s.line ∧
          ∃ definition : Option Site,
            outcome σ (findDefinition m.project.root r.name r.kind
              (Registry.lineage ⟨subjects⟩ context.name)) = .ok definition ∧
            ∀ site ∈ definition, site.hasComment = false)) := by
  rcases locate_cases hline hs with hdef | ⟨hinstance, hdecl, definition, hdef, hbare⟩
  · obtain ⟨S, hS, file, line, found, hfile, hdefined, _, hcut⟩ := findDefinition_some hdef
    obtain rfl := Site.ofLines?_file hcut
    obtain rfl := Site.ofLines?_line hcut
    have hat := hasMemberAt_of_definedLine hm hcollect hσ (Registry.mem_of_mem_lineage hS) hfile hkind
      hdefined
    exact ⟨S, hS, hfile, .inl (encloses_of_hasMemberAt hat)⟩
  · obtain ⟨hcomment, S, hS, file, line, found, hfile, hnamed, _, hcut⟩ := findDeclarative_some hdecl
    obtain rfl := Site.ofLines?_file hcut
    obtain rfl := Site.ofLines?_line hcut
    refine ⟨S, hS, hfile, .inr ⟨hinstance, hcomment, hnamed, definition, hdef, ?_⟩⟩
    intro site hsite
    obtain rfl : definition = some site := hsite
    simpa using Option.filter_eq_none_iff.mp hbare site rfl

/-! ## Two classes in one file, and one without an end -/

/-- A class with a method that has no comment, and another one that declares the same name. -/
def twoClasses : FileTree :=
  { files := [(["a.rb"],
      "class A\n  def owner\n    1\n  end\nend\n\nclass B\n  # The owner of B.\n  attribute :owner\nend\n")] }

/-- The site of the declaration in the second class. -/
def secondOwner : Site where
  file := "a.rb"
  line := 9
  comment := "The owner of B.\n"
  commentLine := 8
  body := "  attribute :owner"

/-- What the file is read and discovered as, and where its lines lead. -/
theorem reading_twoClasses :
    (linesIn "." { files := twoClasses } "a.rb").toOption = some
      (["class A", "  def owner", "    1", "  end", "end", "", "class B", "  # The owner of B.",
        "  attribute :owner", "end"].map String.toList) ∧
    (Manifest.filesOf twoClasses "." "a.rb").toOption = some ["a.rb"] ∧
    (Manifest.discoverFile twoClasses "." [] "a.rb").toOption.map
      (fun found => (OrderedMap.values found).map (sketch "owner" .onInstance)) =
        some [{ name := "A", file := some "a.rb", line := some 2 },
          { name := "B", file := some "a.rb", line := some 9 }] ∧
    namedLine "." { files := twoClasses } "a.rb" "owner" = some 9 ∧
    Site.ofLines? "a.rb" (["class A", "  def owner", "    1", "  end", "end", "", "class B",
      "  # The owner of B.", "  attribute :owner", "end"].map String.toList) 9 .statement =
        some secondOwner := by
  decide +kernel

theorem linesIn_twoClasses : linesIn "." { files := twoClasses } "a.rb" = .ok
    (["class A", "  def owner", "    1", "  end", "end", "", "class B", "  # The owner of B.",
      "  attribute :owner", "end"].map String.toList) :=
  Stateful.eq_ok_of_toOption reading_twoClasses.1

theorem collect_twoClasses : ∃ a b : Subject, oneFile.collect twoClasses = .ok [a, b] ∧
    sketch "owner" .onInstance a = { name := "A", file := some "a.rb", line := some 2 } := by
  obtain ⟨-, hfile, hfound, -⟩ := reading_twoClasses
  obtain ⟨subjects, hrun, hsketch⟩ := exists_sketched twoClasses "owner" .onInstance _ hfile hfound
  obtain ⟨a, rest, rfl, ha, hrest⟩ := List.map_eq_cons_iff.mp hsketch
  obtain ⟨b, rest, rfl, _, hrest⟩ := List.map_eq_cons_iff.mp hrest
  obtain rfl := List.map_eq_nil_iff.mp hrest
  exact ⟨a, b, hrun, ha⟩

/-- The method of the first class has no comment, so the declaration in the second is found. -/
theorem locate_twoClasses {a : Subject} {registry : Registry}
    (ha : sketch "owner" .onInstance a = { name := "A", file := some "a.rb", line := some 2 })
    (hget : registry.get? "A" = some a) :
    outcome { files := twoClasses } (locate "." registry (.member "A" "owner" .onInstance .named) a) =
      .ok secondOwner := by
  obtain ⟨-, -, -, hnamed, hsite⟩ := reading_twoClasses
  have hr : (Reference.member "A" "owner" .onInstance .named).name = "owner" := by decide
  refine outcome_locate_declarative rfl rfl
    (some ⟨"a.rb", 2, "", 2, "  def owner\n    1\n  end"⟩) ?_ (by decide) ?_
  · rw [hr]
    exact sketch_findDefinition ha hget (by decide)
      (outcome_siteAt.mpr ⟨_, linesIn_twoClasses, by decide⟩)
  · rw [hr]
    exact sketch_findDeclarative ha hget 9 hnamed
      (outcome_siteAt.mpr ⟨_, linesIn_twoClasses, hsite⟩) (by decide)

/-- A class that is never closed. -/
def openClass : FileTree := { files := [(["a.rb"], "class A\n  # Doc.\n  def x\n  end\n")] }

def openMethod : Site where
  file := "a.rb"
  line := 3
  comment := "Doc.\n"
  commentLine := 2
  body := "  def x\n  end"

/-- What the file is discovered as and where its method stands. -/
theorem reading_openClass :
    (Manifest.filesOf openClass "." "a.rb").toOption = some ["a.rb"] ∧
    (Manifest.discoverFile openClass "." [] "a.rb").toOption.map
      (fun found => (OrderedMap.values found).map (sketch "x" .onInstance)) =
        some [{ name := "A", file := some "a.rb", line := some 3 }] ∧
    (outcome { files := openClass } (siteAt "." "a.rb" 3 .block)).toOption = some openMethod := by
  decide +kernel

theorem collect_openClass : ∃ a : Subject, oneFile.collect openClass = .ok [a] ∧
    sketch "x" .onInstance a = { name := "A", file := some "a.rb", line := some 3 } := by
  obtain ⟨hfile, hfound, -⟩ := reading_openClass
  obtain ⟨subjects, hrun, hsketch⟩ := exists_sketched openClass "x" .onInstance _ hfile hfound
  obtain ⟨a, rest, rfl, ha, hrest⟩ := List.map_eq_cons_iff.mp hsketch
  obtain rfl := List.map_eq_nil_iff.mp hrest
  exact ⟨a, hrun, ha⟩

theorem locate_openClass {a : Subject} {registry : Registry}
    (ha : sketch "x" .onInstance a = { name := "A", file := some "a.rb", line := some 3 })
    (hget : registry.get? "A" = some a) :
    outcome { files := openClass } (locate "." registry (.member "A" "x" .onInstance .named) a) =
      .ok openMethod := by
  have hr : (Reference.member "A" "x" .onInstance .named).name = "x" := by decide
  refine outcome_locate_definition rfl ?_ (.inl (by decide))
  rw [hr]
  exact sketch_findDefinition ha hget (by decide) (Stateful.eq_ok_of_toOption reading_openClass.2.2)

theorem locate_within_twoClasses : ∃ a b : Subject, oneFile.subjects = [] ∧
    oneFile.collect twoClasses = .ok [a, b] ∧
    outcome { files := twoClasses } (locate "." ⟨[a, b]⟩ (.member "A" "owner" .onInstance .named) a) =
      .ok secondOwner ∧
    ∃ S ∈ Registry.lineage ⟨[a, b]⟩ a.name, S.file = some "a.rb" ∧
      ((∃ d ∈ declarationsIn twoClasses "." "a.rb", d.name = S.name ∧ d.Encloses 9 ∧
          ∃ x ∈ d.members, x.key =
            ((Reference.member "A" "owner" .onInstance .named).name, .onInstance) ∧ x.line = some 9) ∨
        (MemberKind.onInstance = .onInstance ∧ secondOwner.hasComment = true ∧
          namedLine "." { files := twoClasses } "a.rb"
            (Reference.member "A" "owner" .onInstance .named).name = some 9 ∧
          ∃ definition : Option Site,
            outcome { files := twoClasses } (findDefinition "."
              (Reference.member "A" "owner" .onInstance .named).name .onInstance
              (Registry.lineage ⟨[a, b]⟩ a.name)) = .ok definition ∧
            ∀ site ∈ definition, site.hasComment = false)) := by
  obtain ⟨a, b, hrun, ha⟩ := collect_twoClasses
  have hs := locate_twoClasses ha (get?_sketched [b] ha)
  exact ⟨a, b, rfl, hrun, hs, locate_within (m := oneFile) rfl hrun (Alike.refl _ _) rfl (by decide) hs⟩

/-- A site between the lines of a declaration of some subject of the lineage. -/
def StandsWithin (files : FileTree) (root : String) (registry : Registry) (context : Subject)
    (s : Site) : Prop :=
  ∃ S ∈ registry.lineage context.name, S.file = some s.file ∧
    ∃ d ∈ declarationsIn files root s.file, d.name = S.name ∧ d.line ≤ s.line ∧ s.line ≤ d.endLine

/-- Sites are not always between these lines: a declaration in another class of the file is taken, and
a class that is never closed has no line of its end. -/
theorem not_locate_standsWithin :
    (∃ a b : Subject, oneFile.subjects = [] ∧ oneFile.collect twoClasses = .ok [a, b] ∧
      outcome { files := twoClasses } (locate "." ⟨[a, b]⟩ (.member "A" "owner" .onInstance .named) a) =
        .ok secondOwner ∧
      ¬ StandsWithin twoClasses "." ⟨[a, b]⟩ a secondOwner) ∧
    ∃ a : Subject, oneFile.collect openClass = .ok [a] ∧
      outcome { files := openClass } (locate "." ⟨[a]⟩ (.member "A" "x" .onInstance .named) a) =
        .ok openMethod ∧
      ¬ StandsWithin openClass "." ⟨[a]⟩ a openMethod := by
  constructor
  · obtain ⟨a, b, hrun, ha⟩ := collect_twoClasses
    have hget := get?_sketched [b] ha
    have hlines : ∀ d ∈ declarationsIn twoClasses "." "a.rb", d.name = "A" →
        ¬ (d.line ≤ 9 ∧ 9 ≤ d.endLine) := by decide +kernel
    refine ⟨a, b, rfl, hrun, locate_twoClasses ha hget, ?_⟩
    rintro ⟨S, hS, _, d, hd, hname, hwithin⟩
    rw [sketch_lineage ha hget, List.mem_singleton] at hS
    exact hlines d hd (hname.trans (hS ▸ congrArg Sketch.name ha)) hwithin
  · obtain ⟨a, hrun, ha⟩ := collect_openClass
    have hget := get?_sketched [] ha
    have hlines : ∀ d ∈ declarationsIn openClass "." "a.rb", ¬ (d.line ≤ 3 ∧ 3 ≤ d.endLine) := by
      decide +kernel
    refine ⟨a, hrun, locate_openClass ha hget, ?_⟩
    rintro ⟨S, hS, _, d, hd, _, hwithin⟩
    exact hlines d hd hwithin

end Locator

end DocWeave
