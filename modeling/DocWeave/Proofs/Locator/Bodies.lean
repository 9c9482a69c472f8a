import DocWeave.Proofs.Locator.Discovered
import DocWeave.Proofs.Site.Body

/-!
# The bodies of members

A member that the outline of a file has for a discovered subject of that file is always located
(`locate_member`). Where the line recorded for it is the head of a method, the body is the block of the
method, and no other member stands in it. Where the member is declared on its line, the body is not the
declaration alone: the line is taken for the head of a block, and the body goes on to the next `end` of
the same indentation. Only a declaration that is found because the definition has no comment is cut as a
statement.
-/

namespace DocWeave

open DocWeave.Text
open DocWeave.Manifest (declarationsIn HasMemberAt)

/-- No member that stands on another line than the first is in the body. -/
def Site.Alone (s : Site) (ds : List Outline.Declaration) : Prop :=
  ∀ d ∈ ds, ∀ x ∈ d.members, ∀ line, x.line = some line → s.Spans line → line = s.line

namespace Locator

variable {root file : String} {files : FileTree} {σ : Session} {registry : Registry} {r : Reference}
  {S : Subject}

/-- A body that is cut out at the place of a member: alone at the head of a method, and else a block
that begins with the declaration of the member. -/
structure OwnBody (files : FileTree) (root file subject : String) (x : Member)
    (found : List (List Char)) (s : Site) : Prop where
  inFile : s.file = file
  member : HasMemberAt (declarationsIn files root file) subject x.name x.kind s.line
  spans : ∀ line, s.Spans line ↔
    s.line ≤ line ∧ line ≤ Outline.blockEnd found (s.line - 1) + 1
  form : ∃ raw, found[s.line - 1]? = some raw ∧
    (((Outline.methodHead? (trim raw)).isSome = true ∧ s.Alone (declarationsIn files root file)) ∨
      x.name ∈ Outline.declarativeNames raw)

/-- What is cut out at the line of a member. -/
theorem ownBody_of_hasMemberAt {subject : String} {line : Nat} {x : Member} {text : String}
    (hread : files.read (Path.join root file) = .ok text)
    (h : HasMemberAt (declarationsIn files root file) subject x.name x.kind line) :
    ∃ s, Site.ofLines? file (lines text.toList) line .block = some s ∧
      OwnBody files root file subject x (lines text.toList) s := by
  obtain ⟨d, hd, hname, y, hy, hkey, hyline⟩ := h
  have hdecls := Manifest.declarationsIn_of_read hread
  obtain ⟨start, raw, rest, hstart, hlines, hplace⟩ := Outline.ofLines_placed (hdecls ▸ hd) hy
  cases hyline.symm.trans hstart
  have hlength := Outline.length_eq_of_drop hlines
  have hlt : start < (lines text.toList).length := by omega
  obtain ⟨s, hcut⟩ := Site.exists_ofLines? file .block hlt
  have hspans : ∀ number, s.Spans number ↔
      start + 1 ≤ number ∧ number ≤ Outline.blockEnd (lines text.toList) start + 1 :=
    Site.spans_iff hcut fun l hl => newline_not_mem_lines hl
  have hline : s.line = start + 1 := Site.ofLines?_line hcut
  refine ⟨s, hcut, Site.ofLines?_file hcut, ?_, ?_, raw, ?_, ?_⟩
  · rw [hline]
    exact ⟨d, hd, hname, y, hy, hkey, hstart⟩
  · rw [hline]
    exact hspans
  · rw [hline, Nat.add_sub_cancel, ← List.head?_drop, hlines]
    rfl
  · refine hplace.imp ?_ ?_
    · rintro ⟨hmethod, hapart⟩
      refine ⟨hmethod, fun e he z hz number hnumber hin => ?_⟩
      have hwithin := (hspans number).mp hin
      have houtside := hapart e (hdecls ▸ he) z hz number hnumber
      omega
    · intro hdeclared
      have hyname : y.name = x.name := congrArg Prod.fst hkey
      rw [← hyname]
      exact hdeclared

/-- The subject was registered from a file: that is its own file, and what the declarations there have of
its members is recorded with a line at which they have it. -/
structure RegisteredFrom (files : FileTree) (root file : String) (S : Subject) : Prop where
  inFile : S.file = some file
  lines : ∀ d ∈ declarationsIn files root file, d.name = S.name → ∀ x ∈ d.members, ∃ line,
    S.memberLine? x.name x.kind = some line ∧
      HasMemberAt (declarationsIn files root file) S.name x.name x.kind line

/-- A discovered subject is registered from its file. -/
theorem registeredFrom_of_collect {m : Manifest} (hm : m.subjects = []) {subjects : List Subject}
    (hcollect : m.collect files = .ok subjects) (hS : S ∈ subjects) (hfile : S.file = some file) :
    RegisteredFrom files m.project.root file S := by
  refine ⟨hfile, fun d hd hname x hx => ?_⟩
  obtain ⟨line, hline⟩ := Manifest.exists_memberLine? hm hcollect hS hfile hd hname hx
  obtain ⟨home, hhome, hat⟩ := Manifest.hasMemberAt_of_memberLine? hm hcollect hS hline
  cases hfile.symm.trans hhome
  exact ⟨line, hline, hat⟩

/-- **Bodies of members.** A member that the outline of a file has for a subject registered from this file
is located. Its site is cut out at a line where the file has this very member: the body is a block, in
which no other member stands if the line is the head of a method. Or else the definition of a member of
instances has no comment, and the site is a statement on the first line of a file that declares the
name. -/
theorem locate_member (hσ : Alike root { files } σ) (hS : RegisteredFrom files root file S)
    (hget : registry.get? S.name = some S) {d : Outline.Declaration}
    (hd : d ∈ declarationsIn files root file) (hname : d.name = S.name) {x : Member}
    (hx : x ∈ d.members) (hline : r.line = none) (hrname : r.name = x.name) (hrkind : r.kind = x.kind) :
    ∃ s found, outcome σ (locate root registry r S) = .ok s ∧ linesIn root σ s.file = .ok found ∧
      (OwnBody files root file S.name x found s ∨
        (x.kind = .onInstance ∧ s.hasComment = true ∧ namedLine root σ s.file x.name = some s.line ∧
          ∀ line, s.Spans line ↔
            s.line ≤ line ∧ line ≤ Outline.statementEnd found (s.line - 1) + 1)) := by
  obtain ⟨text, hread, hdecls⟩ := Manifest.mem_declarationsIn hd
  have hkind : x.kind ≠ .constant := Outline.ofLines_kind (hdecls ▸ hd) hx
  have hfound := linesIn_of_read hσ hread
  obtain ⟨line, hrecorded, hat⟩ := hS.lines d hd hname x hx
  obtain ⟨t, hcut, hown⟩ := ownBody_of_hasMemberAt hread hat
  -- the subject is the first of its lineage, so the definition is found at the recorded line
  have hdef : outcome σ (findDefinition root r.name r.kind (registry.lineage S.name)) =
      .ok (some t) := by
    obtain ⟨rest, hlineage⟩ := Registry.lineage_cons hget
    have hdefined : definedLine root σ S file x.name x.kind = some line := by
      rw [definedLine, recordedLine?_eq_memberLine? S x.name hkind, hrecorded]
      rfl
    have hshape : shapeOf x.kind = .block := by
      cases hk : x.kind with
      | constant => exact absurd hk hkind
      | onInstance => rfl
      | onClass => rfl
    have hsite : outcome σ (siteAt root file line .block) = .ok t :=
      outcome_siteAt.mpr ⟨_, hfound, hcut⟩
    rw [hrname, hrkind, hlineage, outcome_findDefinition_cons, hS.inFile]
    dsimp only
    rw [hdefined]
    dsimp only
    rw [hshape, hsite]
    rfl
  rcases exists_locate hline hdef with hs | ⟨hinstance, s, hdecl, hs⟩
  · exact ⟨t, _, hs, hown.inFile.symm ▸ hfound, .inl hown⟩
  · obtain ⟨hcomment, _, _, other, named, found, _, hnamed, hfound', hcut'⟩ := findDeclarative_some hdecl
    obtain rfl := Site.ofLines?_file hcut'
    obtain rfl := Site.ofLines?_line hcut'
    obtain ⟨text', _, rfl⟩ := read_of_linesIn hσ hfound'
    have hspans := Site.spans_iff hcut' fun l hl => newline_not_mem_lines hl
    exact ⟨s, _, hs, hfound', .inr ⟨hrkind ▸ hinstance, hcomment, hrname ▸ hnamed, hspans⟩⟩

/-! ## A declaration above a method -/

/-- A class with a declared member and a method below it. -/
def declaredOwner : FileTree :=
  { files := [(["a.rb"],
      "class A\n  # The owner.\n  attribute :owner\n\n  def total\n    1\n  end\nend\n")] }

/-- What the file is read, discovered and outlined as. -/
theorem reading_declaredOwner :
    (linesIn "." { files := declaredOwner } "a.rb").toOption = some
      (["class A", "  # The owner.", "  attribute :owner", "", "  def total", "    1", "  end",
        "end"].map String.toList) ∧
    (Manifest.filesOf declaredOwner "." "a.rb").toOption = some ["a.rb"] ∧
    (Manifest.discoverFile declaredOwner "." [] "a.rb").toOption.map
      (fun found => (OrderedMap.values found).map (sketch "owner" .onInstance)) =
        some [{ name := "A", file := some "a.rb", line := some 3 }] ∧
    HasMemberAt (declarationsIn declaredOwner "." "a.rb") "A" "owner" .onInstance 3 ∧
    HasMemberAt (declarationsIn declaredOwner "." "a.rb") "A" "total" .onInstance 5 := by
  decide +kernel

theorem linesIn_declaredOwner : linesIn "." { files := declaredOwner } "a.rb" = .ok
    (["class A", "  # The owner.", "  attribute :owner", "", "  def total", "    1", "  end",
      "end"].map String.toList) := Stateful.eq_ok_of_toOption reading_declaredOwner.1

theorem collect_declaredOwner : ∃ a : Subject, oneFile.collect declaredOwner = .ok [a] ∧
    RegisteredFrom declaredOwner "." "a.rb" a ∧
    sketch "owner" .onInstance a = { name := "A", file := some "a.rb", line := some 3 } := by
  obtain ⟨-, hfile, hfound, -⟩ := reading_declaredOwner
  obtain ⟨subjects, hrun, hsketch⟩ := exists_sketched declaredOwner "owner" .onInstance _ hfile hfound
  obtain ⟨a, rest, rfl, ha, hrest⟩ := List.map_eq_cons_iff.mp hsketch
  obtain rfl := List.map_eq_nil_iff.mp hrest
  exact ⟨a, hrun, registeredFrom_of_collect (m := oneFile) rfl hrun List.mem_cons_self
    (congrArg Sketch.file ha), ha⟩

theorem hasMemberAt_declaredOwner :
    HasMemberAt (declarationsIn declaredOwner "." "a.rb") "A" "owner" .onInstance 3 ∧
      HasMemberAt (declarationsIn declaredOwner "." "a.rb") "A" "total" .onInstance 5 :=
  reading_declaredOwner.2.2.2

theorem locate_member_total : ∃ (a : Subject) (d : Outline.Declaration) (x : Member),
    RegisteredFrom declaredOwner "." "a.rb" a ∧ Registry.get? ⟨[a]⟩ a.name = some a ∧
    d ∈ declarationsIn declaredOwner "." "a.rb" ∧ d.name = a.name ∧ x ∈ d.members ∧
    x.name = "total" ∧ x.kind = .onInstance ∧
    ∃ s found, outcome { files := declaredOwner } (locate "." ⟨[a]⟩
        (.member "A" "total" .onInstance .named) a) = .ok s ∧
      linesIn "." { files := declaredOwner } s.file = .ok found ∧
      (OwnBody declaredOwner "." "a.rb" a.name x found s ∨
        (x.kind = .onInstance ∧ s.hasComment = true ∧
          namedLine "." { files := declaredOwner } s.file x.name = some s.line ∧
          ∀ line, s.Spans line ↔
            s.line ≤ line ∧ line ≤ Outline.statementEnd found (s.line - 1) + 1)) := by
  obtain ⟨a, _, hfrom, ha⟩ := collect_declaredOwner
  have hname : a.name = "A" := congrArg Sketch.name ha
  have hget : Registry.get? ⟨[a]⟩ a.name = some a := by
    rw [hname]
    exact get?_sketched [] ha
  obtain ⟨d, hd, hdname, x, hx, hkey, _⟩ := hasMemberAt_declaredOwner.2
  obtain ⟨hxname, hxkind⟩ := Prod.mk.inj hkey
  have hdname : d.name = a.name := hdname.trans hname.symm
  have hrname : (Reference.member "A" "total" .onInstance .named).name = x.name := by
    rw [hxname]
    decide
  exact ⟨a, d, x, hfrom, hget, hd, hdname, hx, hxname, hxkind,
    locate_member (Alike.refl _ _) hfrom hget hd hdname hx rfl hrname hxkind.symm⟩

/-- The site of the declaration, whose body has the method in it. -/
def stretchedOwner : Site where
  file := "a.rb"
  line := 3
  comment := "The owner.\n"
  commentLine := 2
  body := "  attribute :owner\n\n  def total\n    1\n  end"

/-- The body of a declared member is not only its own declaration: it has the method below in it. -/
theorem not_locate_alone : ∃ a : Subject, oneFile.collect declaredOwner = .ok [a] ∧
    RegisteredFrom declaredOwner "." "a.rb" a ∧
    HasMemberAt (declarationsIn declaredOwner "." "a.rb") a.name "owner" .onInstance 3 ∧
    outcome { files := declaredOwner } (locate "." ⟨[a]⟩
      (.member "A" "owner" .onInstance .named) a) = .ok stretchedOwner ∧
    ¬ stretchedOwner.Alone (declarationsIn declaredOwner "." "a.rb") := by
  obtain ⟨a, hrun, hfrom, ha⟩ := collect_declaredOwner
  have hname : a.name = "A" := congrArg Sketch.name ha
  have hr : (Reference.member "A" "owner" .onInstance .named).name = "owner" := by decide
  refine ⟨a, hrun, hfrom, ?_, ?_, ?_⟩
  · rw [hname]
    exact hasMemberAt_declaredOwner.1
  · refine outcome_locate_definition rfl ?_ (.inl (by decide +kernel))
    rw [hr]
    exact sketch_findDefinition ha (get?_sketched [] ha) (by decide)
      (outcome_siteAt.mpr ⟨_, linesIn_declaredOwner, by decide +kernel⟩)
  · intro halone
    obtain ⟨d, hd, _, x, hx, _, hline⟩ := hasMemberAt_declaredOwner.2
    exact absurd (halone d hd x hx 5 hline (by decide +kernel)) (by decide)

end Locator

end DocWeave
