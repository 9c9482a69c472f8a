import DocWeave.Proofs.Locator.Bodies
import DocWeave.Proofs.Locator.Boundaries
import DocWeave.Proofs.Outline.Names
import DocWeave.Proofs.Reference.Grammar
import DocWeave.Proofs.Registry.Population
import DocWeave.Workspace

/-!
# Finding what was registered

In a project of discovered subjects the members of a subject are those of all its declarations, in
whatever file, but a search goes through the files in which the subjects of the lineage were seen first.
So a registered member is found exactly if one of these files declares it there, or names it on a
declarative line with a comment (`exists_locate_iff`). Moreover its reference must lead back to the
subject, which fails for a name with the mark of members of instances in it (`ownerOf_marked`).
-/

namespace DocWeave

open DocWeave.Text

/-! ## Names and members of discovered subjects -/

namespace Manifest

variable {m : Manifest} {files : FileTree} {subjects : List Subject} {s : Subject}

/-- A discovered subject is made of its sightings alone. -/
theorem assemble_discovered (hm : m.subjects = []) (hcollect : m.collect files = .ok subjects)
    (hs : s ∈ subjects) : assemble (m.sightings files s.name) = some s := by
  obtain ⟨sources, found, all, hsources, hfound, hall, rfl⟩ := collect_cases hcollect
  rw [hm] at hall
  cases hall
  have hnodup : found.keys.Nodup :=
    foldlM_invariant (fun _ _ _ hstep => nodup_discoverFile hstep) hfound .nil
  obtain ⟨name, hname⟩ := OrderedMap.get?_of_mem_values hnodup hs
  have hseen : assemble (m.sightings files name) = some s := by
    rw [sightings_discovered hm, hsources, ← hname]
    exact (get?_discovered hfound name).symm
  rwa [assemble_name (fun g hg => (mem_sightings hg).2) hseen]

theorem isSubjectName_discovered (hm : m.subjects = []) (hcollect : m.collect files = .ok subjects)
    (hs : s ∈ subjects) : Outline.IsSubjectName s.name.toList := by
  have hmade := assemble_discovered hm hcollect hs
  cases hseen : m.sightings files s.name with
  | nil =>
    rw [hseen] at hmade
    cases hmade
  | cons g seen =>
    obtain ⟨hfound, hname⟩ := mem_sightings (hseen ▸ List.mem_cons_self : g ∈ m.sightings files s.name)
    obtain ⟨text, _, hdecls⟩ := mem_declarationsIn hfound
    exact hname ▸ (Outline.ofLines_named (hdecls ▸ hfound)).subject

/-- A member that is added has the name and kind of one of the members to add. -/
theorem mem_addMembers {sameFile : Bool} {t : Subject} {members : List Member} {x : Member}
    (h : x ∈ (addMembers sameFile t members).members) :
    x ∈ t.members ∨ ∃ y ∈ members, y.key = x.key := by
  refine List.foldlRecOn (motive := fun u : Subject => ∀ x ∈ u.members,
    x ∈ t.members ∨ ∃ y ∈ members, y.key = x.key) members _ (fun x hx => .inl hx) ?_ x h
  intro u hu y hy x hx
  split at hx
  · exact hu x hx
  · rcases List.mem_append.mp hx with hx | hx
    · exact hu x hx
    · rw [List.mem_singleton.mp hx]
      refine .inr ⟨y, hy, ?_⟩
      unfold memberFrom
      split <;> rfl

/-- Every member was seen in a declaration. -/
theorem member_discovered (hm : m.subjects = []) (hcollect : m.collect files = .ok subjects)
    (hs : s ∈ subjects) {x : Member} (hx : x ∈ s.members) :
    ∃ g ∈ m.sightings files s.name, ∃ y ∈ g.found.members, y.key = x.key := by
  refine assemble_induction (P := fun t => ∀ x ∈ t.members,
    ∃ g ∈ m.sightings files s.name, ∃ y ∈ g.found.members, y.key = x.key)
    (fun g _ x hx => by cases hx) ?_ (assemble_discovered hm hcollect hs) x hx
  intro t ht g hg x hx
  rcases mem_addMembers hx with hx | ⟨y, hy, hkey⟩
  · exact ht x hx
  · exact ⟨g, hg, y, hy, hkey⟩

theorem isMethodName_discovered (hm : m.subjects = []) (hcollect : m.collect files = .ok subjects)
    (hs : s ∈ subjects) {x : Member} (hx : x ∈ s.members) (hkind : x.kind = .onClass) :
    Outline.IsMethodName x.name.toList := by
  obtain ⟨g, hg, y, hy, hkey⟩ := member_discovered hm hcollect hs hx
  obtain ⟨hname, hkinds⟩ := Prod.mk.inj hkey
  obtain ⟨text, _, hdecls⟩ := mem_declarationsIn (mem_sightings hg).1
  exact hname ▸ (Outline.ofLines_named (hdecls ▸ (mem_sightings hg).1)).onClass y hy (hkinds.trans hkind)

end Manifest

/-! ## From a reference back to the subject -/

namespace Registry

variable {r : Registry} {S : Subject} {name context : String} {kind : MemberKind}
  {visibility : Visibility}

theorem mem_dropScopes {s : List Char} (h : '#' ∈ s) : '#' ∈ dropScopes s := by
  fun_induction dropScopes s with
  | case1 s ih => exact ih (by simpa using h)
  | case2 s _ => exact h

/-- No name leads to a subject if it has a mark that no subject has. -/
theorem resolve?_marked (hr : ∀ s ∈ r.subjects, '#' ∉ s.name.toList) (h : '#' ∈ name.toList) :
    r.resolve? name context = none := by
  have hget : ∀ full : String, '#' ∈ full.toList → r.get? full = none := by
    intro full hfull
    refine List.find?_eq_none.mpr fun s hs hname => hr s hs ?_
    rw [eq_of_beq hname, String.toList_ofList]
    exact mem_dropScopes hfull
  rw [resolve?, hget name h]
  dsimp only
  split
  · rfl
  · refine List.findSome?_eq_none_iff.mpr fun scope _ => hget _ ?_
    rw [String.toList_append]
    exact List.mem_append_right _ h

/-- A reference to a member leads back to the subject and the name, unless the mark of the kind stands in
the name. -/
theorem ownerOf_member (hr : r.Distinct) (hS : S ∈ r.subjects)
    (hsubject : Outline.IsSubjectName S.name.toList) {mark : Char}
    (hmark : kind.separator.toList = [mark]) (hname : mark ∉ name.toList) (visibility : Visibility) :
    r.ownerOf (.member S.name name kind visibility) = .ok S ∧
      (Reference.member S.name name kind visibility).name = name := by
  have howner : (Reference.member S.name name kind visibility).owner? = some S.name := by
    rw [Reference.owner?, Reference.splitLast?_member hmark hname]
    simp [List.isEmpty_iff, hsubject.ne_nil]
  refine ⟨?_, Reference.name_member hmark hname S.name visibility⟩
  rw [ownerOf, howner]
  dsimp only
  rw [resolve, resolve?, hr.get?_of_mem hS hsubject.not_startsWith]

/-- A name with the mark of members of instances in it is cut at that mark, so that no subject is found. -/
theorem ownerOf_marked (hr : ∀ s ∈ r.subjects, '#' ∉ s.name.toList) (hname : '#' ∈ name.toList)
    (subject : String) (visibility : Visibility) :
    ∃ owner, r.ownerOf (.member subject name .onInstance visibility) =
      .error (.of (.unknownSubject owner subject)) := by
  obtain ⟨⟨front, rest⟩, hcut⟩ : ∃ cut, splitLast? ['#'] name.toList = some cut := by
    refine Option.ne_none_iff_exists'.mp fun hnone => splitLast?_eq_none_iff.mp hnone ?_
    exact (List.singleton_infix_iff '#' _).mpr hname
  have hsplit : splitLast? ['#'] (Reference.member subject name .onInstance visibility).raw.toList =
      some (subject.toList ++ ['#'] ++ front, rest) := by
    rw [Reference.raw_member]
    exact splitLast?_append_left _ hcut
  refine ⟨String.ofList (subject.toList ++ ['#'] ++ front), ?_⟩
  have howner : (Reference.member subject name .onInstance visibility).owner? =
      some (String.ofList (subject.toList ++ ['#'] ++ front)) := by
    rw [Reference.owner?]
    dsimp only [Reference.member] at hsplit ⊢
    rw [show MemberKind.onInstance.separator.toList = ['#'] from rfl, hsplit]
    simp
  rw [ownerOf, howner]
  dsimp only
  rw [resolve, resolve?_marked hr (by simp)]
  rfl

end Registry

/-! ## The search for a registered member -/

namespace Locator

open DocWeave.Manifest (declarationsIn HasMemberAt)

/-- The subject's own file declares the member there. -/
def DeclaredAtHome (files : FileTree) (root : String) (S : Subject) (name : String)
    (kind : MemberKind) : Prop :=
  ∃ file line, S.file = some file ∧ HasMemberAt (declarationsIn files root file) S.name name kind line

/-- The first line of the subject's own file that declares the name, for whatever subject, has a
comment. -/
def NamedAtHome (files : FileTree) (root : String) (S : Subject) (name : String) : Prop :=
  ∃ file line site, S.file = some file ∧ namedLine root { files } file name = some line ∧
    outcome { files } (siteAt root file line .statement) = .ok site ∧ site.hasComment = true

variable {m : Manifest} {files : FileTree} {subjects lineage : List Subject} {name root : String}
  {kind : MemberKind} {r : Reference} {context : Subject}

/-- A line is known for a member exactly if the subject's own file declares it. -/
theorem definedLine_iff (hm : m.subjects = []) (hcollect : m.collect files = .ok subjects) {S : Subject}
    (hS : S ∈ subjects) {file : String} (hfile : S.file = some file) (hkind : kind ≠ .constant) :
    (∃ line, definedLine m.project.root { files } S file name kind = some line) ↔
      DeclaredAtHome files m.project.root S name kind := by
  constructor
  · rintro ⟨line, hline⟩
    exact ⟨file, line, hfile,
      hasMemberAt_of_definedLine hm hcollect (Alike.refl _ _) hS hfile hkind hline⟩
  · rintro ⟨home, _, hhome, d, hd, hname, x, hx, hkey, _⟩
    cases hfile.symm.trans hhome
    obtain ⟨line, hline⟩ := Manifest.exists_memberLine? hm hcollect hS hfile hd hname hx
    refine ⟨line, ?_⟩
    obtain ⟨rfl, rfl⟩ := Prod.mk.inj hkey
    rw [definedLine, recordedLine?_eq_memberLine? S x.name hkind, hline]
    rfl

/-- A member can be cut out where a file declares it. -/
theorem siteAt_hasMemberAt {file subject : String} {line : Nat} (hkind : kind ≠ .constant)
    (h : HasMemberAt (declarationsIn files root file) subject name kind line) :
    ∃ site, outcome { files } (siteAt root file line (shapeOf kind)) = .ok site := by
  obtain ⟨d, hd, -⟩ := id h
  obtain ⟨text, hread, _⟩ := Manifest.mem_declarationsIn hd
  obtain ⟨site, hcut, -⟩ := ownBody_of_hasMemberAt (x := { name, kind }) hread h
  have hshape : shapeOf kind = .block := by
    cases kind with
    | constant => exact absurd rfl hkind
    | onInstance => rfl
    | onClass => rfl
  rw [hshape]
  exact ⟨site, outcome_siteAt.mpr ⟨_, linesIn_of_read (Alike.refl _ _) hread, hcut⟩⟩

/-- The search for a definition does not fail, and finds one if a file on its way declares the member. -/
theorem findDefinition_isSome_iff (hm : m.subjects = []) (hcollect : m.collect files = .ok subjects)
    (hkind : kind ≠ .constant) (name : String) (hlineage : ∀ S ∈ lineage, S ∈ subjects) :
    ∃ definition, outcome { files } (findDefinition m.project.root name kind lineage) = .ok definition ∧
      (definition.isSome = true ↔
        ∃ S ∈ lineage, DeclaredAtHome files m.project.root S name kind) := by
  induction lineage with
  | nil => exact ⟨none, rfl, by simp⟩
  | cons S lineage ih =>
    obtain ⟨definition, hrun, hfound⟩ := ih fun T hT => hlineage T (List.mem_cons_of_mem _ hT)
    -- a subject that declares nothing of the kind is passed over
    have hpass : ¬ DeclaredAtHome files m.project.root S name kind →
        (definition.isSome = true ↔
          ∃ T ∈ S :: lineage, DeclaredAtHome files m.project.root T name kind) := by
      intro hnot
      rw [hfound, List.exists_mem_cons_iff, or_iff_right hnot]
    rw [outcome_findDefinition_cons]
    cases hfile : S.file with
    | none =>
      refine ⟨definition, hrun, hpass ?_⟩
      rintro ⟨file, _, hhome, _⟩
      cases hfile.symm.trans hhome
    | some file =>
      have hline : (∃ line, definedLine m.project.root { files } S file name kind = some line) ↔
          DeclaredAtHome files m.project.root S name kind :=
        definedLine_iff hm hcollect (hlineage S List.mem_cons_self) hfile hkind
      dsimp only
      cases hdefined : definedLine m.project.root { files } S file name kind with
      | none =>
        rw [hdefined] at hline
        exact ⟨definition, hrun, hpass fun hat => by obtain ⟨_, h⟩ := hline.mpr hat; cases h⟩
      | some line =>
        have hat := hasMemberAt_of_definedLine hm hcollect (Alike.refl _ _)
          (hlineage S List.mem_cons_self) hfile hkind hdefined
        obtain ⟨site, hsite⟩ := siteAt_hasMemberAt hkind hat
        dsimp only
        rw [hsite]
        exact ⟨some site, rfl, by simpa using .inl ⟨file, line, hfile, hat⟩⟩

theorem findDeclarative_isSome_iff (files : FileTree) (root name : String) (lineage : List Subject) :
    ∃ declarative, outcome { files } (findDeclarative root name lineage) = .ok declarative ∧
      (declarative.isSome = true ↔ ∃ S ∈ lineage, NamedAtHome files root S name) := by
  induction lineage with
  | nil => exact ⟨none, rfl, by simp⟩
  | cons S lineage ih =>
    obtain ⟨declarative, hrun, hfound⟩ := ih
    have hpass : ¬ NamedAtHome files root S name →
        (declarative.isSome = true ↔ ∃ T ∈ S :: lineage, NamedAtHome files root T name) := by
      intro hnot
      rw [hfound, List.exists_mem_cons_iff, or_iff_right hnot]
    rw [outcome_findDeclarative_cons]
    cases hfile : S.file with
    | none =>
      refine ⟨declarative, hrun, hpass ?_⟩
      rintro ⟨file, _, _, hhome, _⟩
      cases hfile.symm.trans hhome
    | some file =>
      dsimp only
      cases hnamed : namedLine root { files } file name with
      | none =>
        refine ⟨declarative, hrun, hpass ?_⟩
        rintro ⟨home, line, _, hhome, hline, _⟩
        cases hfile.symm.trans hhome
        cases hnamed.symm.trans hline
      | some line =>
        obtain ⟨site, hsite⟩ := siteAt_namedLine hnamed .statement
        dsimp only
        rw [hsite]
        dsimp only
        split
        · next hcomment =>
          exact ⟨some site, rfl, by simpa using .inl ⟨file, line, site, hfile, hnamed, hsite, hcomment⟩⟩
        · next hbare =>
          refine ⟨declarative, hrun, hpass ?_⟩
          rintro ⟨home, line', site', hhome, hline, hsite', hcomment⟩
          cases hfile.symm.trans hhome
          cases hnamed.symm.trans hline
          cases hsite.symm.trans hsite'
          exact hbare hcomment

/-- A search ends with a site exactly if the own file of a subject of the lineage declares the member, or
names a member of instances on a line with a comment. -/
theorem exists_locate_iff (hm : m.subjects = []) (hcollect : m.collect files = .ok subjects)
    {σ : Session} (hσ : Alike m.project.root { files } σ) (hline : r.line = none)
    (hkind : r.kind ≠ .constant) (context : Subject) :
    (∃ site, outcome σ (locate m.project.root ⟨subjects⟩ r context) = .ok site) ↔
      (∃ S ∈ Registry.lineage ⟨subjects⟩ context.name,
          DeclaredAtHome files m.project.root S r.name r.kind) ∨
        (r.kind = .onInstance ∧ ∃ S ∈ Registry.lineage ⟨subjects⟩ context.name,
          NamedAtHome files m.project.root S r.name) := by
  have hfresh : outcome σ (locate m.project.root ⟨subjects⟩ r context) =
      outcome { files } (locate m.project.root ⟨subjects⟩ r context) :=
    ((locate_settled _ _ _ _).agrees _ _ hσ).symm
  obtain ⟨definition, hdef, hdefined⟩ := findDefinition_isSome_iff hm hcollect hkind r.name
    fun S (hS : S ∈ Registry.lineage ⟨subjects⟩ context.name) => Registry.mem_of_mem_lineage hS
  obtain ⟨declarative, hdecl, hnamed⟩ := findDeclarative_isSome_iff files m.project.root r.name
    (Registry.lineage ⟨subjects⟩ context.name)
  rw [hfresh, outcome_locate hline, hdef, ← hdefined, ← hnamed]
  cases definition with
  | none =>
    by_cases hinstance : r.kind = .onInstance
    · rw [if_pos hinstance, hdecl]
      cases declarative with
      | none => simp
      | some site => simp [hinstance]
    · simp [hinstance]
  | some site =>
    cases hcomment : site.hasComment with
    | true => simp [Option.filter, hcomment]
    | false =>
      by_cases hinstance : r.kind = .onInstance
      · rw [if_pos hinstance, hdecl]
        cases declarative <;> simp [Option.filter, hcomment]
      · simp [Option.filter, hcomment, if_neg hinstance]

end Locator

/-! ## Members of a population -/

namespace Workspace

open DocWeave.Locator
open DocWeave.Manifest (declarationsIn HasMemberAt threeFiles reopening sources_reopening)

variable {w : Workspace} {m : Manifest} {files : FileTree} {subjects : List Subject} {S : Subject}
  {i : Registry.Inhabitant} {σ : Session}

theorem exists_outcome_locate_iff {r : Reference} :
    (∃ site, outcome σ (w.locate r) = .ok site) ↔
      ∃ owner, w.registry.ownerOf r = .ok owner ∧
        ∃ site, outcome σ (Locator.locate w.root w.registry r owner) = .ok site := by
  rw [outcome_locate]
  cases w.registry.ownerOf r with
  | error e => simp [Except.bind]
  | ok owner =>
    simp only [Except.bind, Except.ok.injEq, exists_eq_left']
    cases outcome σ (Locator.locate w.root w.registry r owner) <;> simp [Except.mapError]

/-- The discovery registers a member in the population of a subject. No subject is declared, and all
source files can be read. -/
structure Registers (m : Manifest) (files : FileTree) (w : Workspace) (S : Subject)
    (i : Registry.Inhabitant) : Prop where
  undeclared : m.subjects = []
  collected : ∃ subjects, m.collect files = .ok subjects ∧ Registry.make subjects = .ok w.registry ∧
    S ∈ subjects
  root : w.root = m.project.root
  member : i ∈ w.registry.population S.name

/-- Where the mark of the kind does not stand in the name, the reference leads back to the subject, and
the search decides. -/
theorem locate_unmarked_iff (h : Registers m files w S i) (hσ : Alike w.root { files } σ) (mark : Char)
    (hmark : i.member.kind.separator.toList = [mark]) (hname : mark ∉ i.member.name.toList) :
    (∃ site, outcome σ (w.locate (.member S.name i.member.name i.member.kind i.visibility)) = .ok site) ↔
      (∃ T ∈ w.registry.lineage S.name,
          DeclaredAtHome files w.root T i.member.name i.member.kind) ∨
        (i.member.kind = .onInstance ∧ ∃ T ∈ w.registry.lineage S.name,
          NamedAtHome files w.root T i.member.name) := by
  obtain ⟨subjects, hcollect, hmake, hS⟩ := h.collected
  obtain ⟨hsubjects, hdistinct⟩ := Registry.make_spec hmake
  have hregistry : w.registry = ⟨subjects⟩ := by rw [← hsubjects]
  have hkind : i.member.kind ≠ .constant := by
    intro hconstant
    rw [hconstant] at hmark
    cases hmark
  obtain ⟨howner, hrname⟩ := Registry.ownerOf_member hdistinct (hsubjects ▸ hS)
    (Manifest.isSubjectName_discovered h.undeclared hcollect hS) hmark hname i.visibility
  have hlocate := exists_locate_iff h.undeclared hcollect (h.root ▸ hσ)
    (r := .member S.name i.member.name i.member.kind i.visibility) rfl hkind S
  rw [hrname, ← hregistry, ← h.root] at hlocate
  simp only [exists_outcome_locate_iff, howner, Except.ok.injEq, exists_eq_left', hlocate]
  rfl

/-- **Registered members.** In a project of discovered subjects, the reference that a page makes for a
member of a subject's population leads to a definition if and only if the name of a member of instances
has no `#` in it, and the file in which a subject of the lineage was seen first declares the member for
this subject, or names a member of instances on a declarative line with a comment. -/
theorem locate_population_iff (h : Registers m files w S i) (hσ : Alike w.root { files } σ) :
    (∃ site, outcome σ (w.locate (.member S.name i.member.name i.member.kind i.visibility)) = .ok site) ↔
      (i.member.kind = .onInstance → '#' ∉ i.member.name.toList) ∧
        ((∃ T ∈ w.registry.lineage S.name,
            DeclaredAtHome files w.root T i.member.name i.member.kind) ∨
          (i.member.kind = .onInstance ∧ ∃ T ∈ w.registry.lineage S.name,
            NamedAtHome files w.root T i.member.name)) := by
  obtain ⟨subjects, hcollect, hmake, hS⟩ := h.collected
  obtain ⟨hsubjects, hdistinct⟩ := Registry.make_spec hmake
  have hnames : ∀ s ∈ w.registry.subjects, Outline.IsSubjectName s.name.toList := fun s hs =>
    Manifest.isSubjectName_discovered h.undeclared hcollect (hsubjects ▸ hs)
  have hmem : S ∈ w.registry.subjects := hsubjects ▸ hS
  obtain ⟨rest, hlineage⟩ := Registry.lineage_cons
    (hdistinct.get?_of_mem hmem (hnames S hmem).not_startsWith)
  obtain ⟨hkind, hfind, _⟩ := (Registry.mem_population_iff hlineage).mp h.member
  cases hcase : i.member.kind with
  | constant => exact absurd hcase hkind
  | onInstance =>
    by_cases hname : '#' ∈ i.member.name.toList
    · obtain ⟨owner, herror⟩ := Registry.ownerOf_marked
        (fun s hs => (hnames s hs).not_mem_mark) hname S.name i.visibility
      simp [exists_outcome_locate_iff, herror, hname]
    · have hsearch := locate_unmarked_iff h hσ '#' (by rw [hcase]; rfl) hname
      rw [hcase] at hsearch
      simp [hsearch, hname]
  | onClass =>
    obtain ⟨T, hT, hmap⟩ := List.exists_of_findSome?_eq_some hfind
    obtain ⟨x, hx, heq⟩ := Option.map_eq_some_iff.mp hmap
    obtain ⟨rfl, rfl⟩ := Prod.mk.inj heq
    have hname := Manifest.isMethodName_discovered h.undeclared hcollect
      (hsubjects ▸ Registry.mem_of_mem_lineage hT) (List.mem_of_find?_eq_some hx) hcase
    have hsearch := locate_unmarked_iff h hσ '.' (by rw [hcase]; rfl) hname.not_mem_mark.2
    rw [hcase] at hsearch
    simp [hsearch]

/-! ## A subject in two files, and a delegation with a remark -/

/-- What a subject itself declares is in its population. -/
theorem mem_population_of_member? {r : Registry} {name : String} {x : Member}
    (hget : r.get? name = some S) (hkind : x.kind ≠ .constant)
    (hx : S.member? x.name x.kind = some x) : ⟨S, x, .native⟩ ∈ r.population name := by
  obtain ⟨rest, hlineage⟩ := Registry.lineage_cons hget
  refine (Registry.mem_population_iff hlineage).mpr ⟨hkind, ?_, (if_pos rfl).symm⟩
  rw [Registry.findMember?, hlineage, List.findSome?_cons, hx]
  rfl

/-- A workspace with one subject. -/
def lone (S : Subject) : Workspace where
  registry := ⟨[S]⟩
  root := "."
  links := .local "docs"
  tokens := {}

/-- What a run gives if it finds one subject, as a look at that subject shows it. -/
theorem exists_registered (m : Manifest) (files : FileTree) (name : String) (line : Option Nat)
    (hm : m.subjects = []) (hroot : m.project.root = ".")
    (h : (m.collect files).toOption.map (List.map fun s =>
      (sketch name .onInstance s, (s.member? name .onInstance).isSome)) =
        some [({ name := "A", file := some "a.rb", line }, true)]) :
    ∃ S x, Registers m files (lone S) S ⟨S, x, .native⟩ ∧ S.name = "A" ∧ S.file = some "a.rb" ∧
      (lone S).registry.lineage S.name = [S] ∧ x.name = name ∧ x.kind = .onInstance := by
  obtain ⟨subjects, hrun, hlook⟩ := Option.map_eq_some_iff.mp h
  obtain ⟨S, rest, rfl, hS, hrest⟩ := List.map_eq_cons_iff.mp hlook
  obtain rfl := List.map_eq_nil_iff.mp hrest
  obtain ⟨hsketch, hmember⟩ := Prod.mk.inj hS
  obtain ⟨hname, hfile, hparent, hincludes, _⟩ := Sketch.mk.inj hsketch
  obtain ⟨x, hx⟩ := Option.isSome_iff_exists.mp hmember
  have hcalled : x.isCalled name .onInstance = true := by simpa using List.find?_some hx
  obtain ⟨rfl, hkind⟩ := Prod.mk.inj (Member.isCalled_iff.mp hcalled)
  have hget : (lone S).registry.get? S.name = some S := by
    rw [hname]
    exact get?_sketched [] hsketch
  refine ⟨S, x, ⟨hm, ⟨[S], Stateful.eq_ok_of_toOption hrun, rfl, List.mem_cons_self⟩, hroot.symm, ?_⟩,
    hname, hfile, Registry.lineage_eq_singleton hget hparent hincludes, rfl, hkind⟩
  exact mem_population_of_member? hget (by rw [hkind]; decide) (hkind ▸ hx)

/-- The member of the first file is found. -/
theorem locate_population_reopening : ∃ S x,
    Registers reopening threeFiles (lone S) S ⟨S, x, .native⟩ ∧ x.name = "x" ∧
    ∃ site, outcome { files := threeFiles } ((lone S).locate (.member S.name x.name x.kind .native)) =
      .ok site := by
  obtain ⟨S, x, hreg, hname, hfile, hlineage, hx, hkind⟩ :=
    exists_registered reopening threeFiles "x" (some 3) rfl rfl
      (by rw [Manifest.collect, sources_reopening]; decide +kernel)
  refine ⟨S, x, hreg, hx, (locate_population_iff hreg (Alike.refl _ _)).mpr ?_⟩
  dsimp only
  rw [hlineage, hx, hkind]
  have hat : HasMemberAt (declarationsIn threeFiles "." "a.rb") "A" "x" .onInstance 3 := by
    decide +kernel
  exact ⟨fun _ => by decide, .inl ⟨S, List.mem_cons_self, "a.rb", 3, hfile, hname ▸ hat⟩⟩

/-- A class that passes a name on, with a remark behind it. -/
def remarked : FileTree :=
  { files := [(["a.rb"], "class A\n  def_delegators :owner, :name # of the owner\nend\n")] }

theorem sources_remarked : oneFile.sources remarked = .ok ["a.rb"] :=
  Manifest.sources_of_sorted [["a.rb"]] (by decide +kernel) (by decide +kernel)

/-- Not everything that is registered can be located: a member of a further file in which the subject is
opened has no line and is not looked for there, and the remark behind a delegation becomes a part of the
name, at whose mark the reference is cut. -/
theorem not_locate_population :
    (∃ S x, Registers reopening threeFiles (lone S) S ⟨S, x, .native⟩ ∧ x.name = "y" ∧
      HasMemberAt (declarationsIn threeFiles "." "b.rb") S.name "y" x.kind 4 ∧
      ¬ ∃ site, outcome { files := threeFiles }
        ((lone S).locate (.member S.name x.name x.kind .native)) = .ok site) ∧
    ∃ S x, Registers oneFile remarked (lone S) S ⟨S, x, .native⟩ ∧ x.name = "name # of the owner" ∧
      ¬ ∃ site, outcome { files := remarked }
        ((lone S).locate (.member S.name x.name x.kind .native)) = .ok site := by
  constructor
  · obtain ⟨S, x, hreg, hname, hfile, hlineage, hx, hkind⟩ :=
      exists_registered reopening threeFiles "y" none rfl rfl
        (by rw [Manifest.collect, sources_reopening]; decide +kernel)
    have habsent : ∀ d ∈ declarationsIn threeFiles "." "a.rb", ∀ y ∈ d.members,
        y.key ≠ ("y", .onInstance) := by decide +kernel
    have hnamed : namedLine "." { files := threeFiles } "a.rb" "y" = none := by decide +kernel
    refine ⟨S, x, hreg, hx, by rw [hname, hkind]; decide +kernel, ?_⟩
    have hsearch := locate_unmarked_iff hreg (Alike.refl _ _) '#'
    dsimp only at hsearch
    rw [hkind, hx, hlineage] at hsearch
    rw [hkind, hx, hsearch rfl (by decide)]
    rintro (⟨T, hT, file, line, hhome, d, hd, _, y, hy, hkey, _⟩ |
      ⟨_, T, hT, file, line, _, hhome, hline, _⟩)
    · cases List.mem_singleton.mp hT
      cases hfile.symm.trans hhome
      exact habsent d hd y hy hkey
    · cases List.mem_singleton.mp hT
      cases hfile.symm.trans hhome
      cases hnamed.symm.trans hline
  · obtain ⟨S, x, hreg, hname, hfile, hlineage, hx, hkind⟩ :=
      exists_registered oneFile remarked "name # of the owner" (some 2) rfl rfl
        (by rw [Manifest.collect, sources_remarked]; decide +kernel)
    refine ⟨S, x, hreg, hx, ?_⟩
    rw [exists_outcome_locate_iff, hkind, hx]
    rintro ⟨owner, howner, _⟩
    have hnames : ∀ s ∈ (lone S).registry.subjects, '#' ∉ s.name.toList := by
      intro s hs
      rw [List.mem_singleton.mp hs, hname]
      decide
    have hmarked : '#' ∈ "name # of the owner".toList := by decide
    obtain ⟨_, herror⟩ := Registry.ownerOf_marked hnames hmarked S.name .native
    cases herror.symm.trans howner

end Workspace

end DocWeave
