import DocWeave.Proofs.Manifest.RecordedLines
import DocWeave.Proofs.Outline.Places
import DocWeave.Proofs.Registry.Scopes

/-!
# Merging loses and doubles nothing

A subject is merged from the declarations that the source files have of it, or else from the one that
the search for its first entry finds, and from its entries in the manifest. The names come in the order
in which they turn up (`names_collect`). A member is what its first sighting makes it, supplemented by
each entry that declares it (`member?_collected`), so the last one that gives a line or a result decides,
and without one what was found stays. Nothing that was found is ever dropped (`collect_complete`).
-/

namespace DocWeave.Manifest

open DocWeave.Text

/-! ## The order of names -/

/-- The source files; there are none if a pattern is faulty. -/
def sourceFiles (m : Manifest) (files : FileTree) : List String := (m.sources files).toOption.getD []

/-- The names that the source files declare, file by file. -/
def foundNames (m : Manifest) (files : FileTree) : List String :=
  (m.sourceFiles files).flatMap fun file =>
    (declarationsIn files m.project.root file).map (·.name)

/-- Names that are there already are left out. -/
theorem addNames_eq (names new : List String) :
    addNames names new = names ++ (new.removeAll names).eraseDups := by
  induction new generalizing names with
  | nil => simp [addNames]
  | cons n new ih =>
    have hfold : addNames names (n :: new) =
        addNames (if names.contains n then names else names ++ [n]) new := rfl
    rw [hfold, ih, List.cons_removeAll]
    by_cases hknown : names.contains n = true
    · rw [if_pos hknown, if_neg (by rw [hknown]; decide)]
    · have hrest : new.removeAll (names ++ [n]) =
          (new.removeAll names).filter fun k => !k == n := by
        simp only [List.removeAll, List.filter_filter, List.elem_eq_mem, List.mem_append,
          List.mem_singleton]
        refine List.filter_congr fun k _ => ?_
        by_cases hk : k = n <;> simp [hk]
      rw [if_neg hknown, if_pos (by simpa using hknown), hrest, List.eraseDups_cons,
        List.append_assoc, List.singleton_append]

theorem addNames_append (names new more : List String) :
    addNames names (new ++ more) = addNames (addNames names new) more :=
  List.foldl_append

theorem addNames_twice (names : List String) (n : String) :
    addNames (addNames names [n]) [n] = addNames names [n] := by
  simp only [addNames, List.foldl_cons, List.foldl_nil]
  split <;> simp_all

/-- Inserting a subject adds its name. -/
theorem keys_insert_eq (subjects : Collection) (name : String) (s : Subject) :
    (subjects.insert name s).keys = addNames subjects.keys [name] := by
  rw [OrderedMap.keys_insert]
  simp only [addNames, List.foldl_cons, List.foldl_nil, List.contains_iff_mem]

theorem keys_discoverFile {files : FileTree} {root file : String} {subjects subjects' : Collection}
    (h : discoverFile files root subjects file = .ok subjects') :
    subjects'.keys = addNames subjects.keys ((declarationsIn files root file).map (·.name)) := by
  rw [eq_of_discoverFile h, addNames, List.foldl_map]
  refine (List.foldl_hom OrderedMap.keys fun c d => ?_).symm
  exact (keys_insert_eq c d.name _).symm

theorem keys_declareSubject {files : FileTree} {root : String} {subjects subjects' : Collection}
    {d : DeclaredSubject} (h : declareSubject files root subjects d = .ok subjects') :
    subjects'.keys = addNames subjects.keys [d.name] := by
  obtain ⟨between, hsearch, rfl⟩ := eq_of_declareSubject h
  rw [keys_insert_eq]
  rcases searchDeclared_cases hsearch with ⟨rfl, -⟩ | ⟨g, -, -, hg, rfl⟩
  · rfl
  · -- the search has added the name already
    rw [mergeDeclaration, hg, keys_insert_eq, addNames_twice]

/-- The key of a subject is its name. -/
theorem names_values {m : Manifest} {files : FileTree} {sources : List String}
    {found all : Collection} (hsources : m.sources files = .ok sources)
    (hfound : sources.foldlM (discoverFile files m.project.root) [] = .ok found)
    (hall : m.subjects.foldlM (declareSubject files m.project.root) found = .ok all) :
    all.values.map (·.name) = all.keys := by
  rw [OrderedMap.values, OrderedMap.keys, List.map_map]
  refine List.map_congr_left fun entry hentry => ?_
  have hget := OrderedMap.get?_of_mem (nodup_collected hfound hall) hentry
  exact (get?_collected hsources hfound hall hget).1

/-- No two collected subjects have the same name. -/
theorem nodup_names_collect {m : Manifest} {files : FileTree} {subjects : List Subject}
    (h : m.collect files = .ok subjects) : (subjects.map (·.name)).Nodup := by
  obtain ⟨sources, found, all, hsources, hfound, hall, rfl⟩ := collect_cases h
  rw [names_values hsources hfound hall]
  exact nodup_collected hfound hall

/-- The names of collected subjects: those that the files declare, in the order in which they turn up
first, and then the new ones that the manifest declares, in the same way. -/
theorem names_collect {m : Manifest} {files : FileTree} {subjects : List Subject}
    (h : m.collect files = .ok subjects) :
    subjects.map (·.name) = (m.foundNames files).eraseDups ++
      ((m.subjects.map (·.name)).removeAll (m.foundNames files)).eraseDups := by
  obtain ⟨sources, found, all, hsources, hfound, hall, rfl⟩ := collect_cases h
  have hnames := names_values hsources hfound hall
  have hfoundKeys : found.keys = addNames [] (m.foundNames files) := by
    rw [foldlM_view OrderedMap.keys
      (fun names file => addNames names ((declarationsIn files m.project.root file).map (·.name)))
      (fun _ _ _ hstep => keys_discoverFile hstep) hfound, foundNames, sourceFiles, hsources, addNames,
      List.foldl_flatMap]
    rfl
  have hallKeys : all.keys = addNames found.keys (m.subjects.map (·.name)) := by
    rw [foldlM_view OrderedMap.keys (fun names d => addNames names [d.name])
      (fun _ _ _ hstep => keys_declareSubject hstep) hall, addNames, List.foldl_map]
    rfl
  rw [hnames, hallKeys, hfoundKeys, ← addNames_append, addNames_eq, List.nil_append,
    ← List.eraseDups_append]
  simp [List.removeAll]

/-! ## What was found of a subject -/

/-- A declaration in a source file is a sighting of its subject. -/
theorem mem_sightings_of_found {m : Manifest} {files : FileTree} {file : String}
    {d : Outline.Declaration} (hfile : file ∈ m.sourceFiles files)
    (hd : d ∈ declarationsIn files m.project.root file) : ⟨file, d⟩ ∈ m.sightings files d.name := by
  have hseen : (⟨file, d⟩ : Sighting) ∈
      (m.sourceFiles files).flatMap (seenIn files m.project.root d.name) := by
    refine List.mem_flatMap.mpr ⟨file, hfile, List.mem_map_of_mem ?_⟩
    exact List.mem_filter.mpr ⟨hd, beq_self_eq_true _⟩
  unfold sightings
  rw [← sourceFiles]
  split
  · next hnone =>
    rw [hnone] at hseen
    cases hseen
  · exact hseen

/-- What was found of a member: its first sighting, with the line if that was in the home file. -/
def foundMember (m : Manifest) (files : FileTree) (subject name : String) (kind : MemberKind) :
    Option Member :=
  (firstFound (m.sightings files subject) name kind).map fun p =>
    memberFrom (homeFile (m.sightings files subject) == some p.1) p.2

theorem foundMember_isSome {m : Manifest} {files : FileTree} {g : Sighting} {subject : String}
    (hg : g ∈ m.sightings files subject) {x : Member} (hx : x ∈ g.found.members) :
    (m.foundMember files subject x.name x.kind).isSome = true := by
  have hfind : (g.found.members.find? (·.isCalled x.name x.kind)).isSome = true :=
    List.find?_isSome.mpr ⟨x, hx, Member.isCalled_iff.mpr rfl⟩
  rw [foundMember, Option.isSome_map, firstFound, List.findSome?_isSome_iff]
  exact ⟨g, hg, by rw [Option.isSome_map]; exact hfind⟩

theorem firstValue_isSome {seen : List Sighting} {g : Sighting} (hg : g ∈ seen) {c : Constant}
    (hc : c ∈ g.found.constants) : (firstValue seen c.name).isSome = true := by
  rw [firstValue, List.findSome?_isSome_iff]
  exact ⟨g, hg, List.find?_isSome.mpr ⟨c, hc, beq_self_eq_true _⟩⟩

/-! ## What entries add -/

/-- The declaration is one of the member. What is declared as a constant is no member. -/
def declares (x : DeclaredMember) (name : String) (kind : MemberKind) : Bool :=
  x.kind != .constant && (x.name == name && x.kind == kind)

/-- A member with one more declaration of it: what that one does not give stays. -/
def supplement (name : String) (kind : MemberKind) (known : Option Member) (x : DeclaredMember) :
    Option Member :=
  some
    { name, kind, line := x.line <|> known.bind (·.line),
      returns := x.returns <|> known.bind (·.returns) }

/-- The last value that declarations of a member give. -/
def lastGiven {α : Type} (field : DeclaredMember → Option α) (ds : List DeclaredMember) : Option α :=
  (ds.filterMap field).getLast?

/-- All declarations of a member in the entries of its subject, in order. -/
def declarationsOf (m : Manifest) (subject name : String) (kind : MemberKind) : List DeclaredMember :=
  ((m.entriesFor subject).flatMap (·.members)).filter (declares · name kind)

theorem member?_declareMember (s : Subject) (x : DeclaredMember) (name : String) (kind : MemberKind) :
    (declareMember s x).member? name kind =
      if declares x name kind then supplement name kind (s.member? name kind) x
      else s.member? name kind := by
  unfold declareMember declares
  split
  · next hconstant => simp [hconstant, Subject.member?]
  · next hother =>
    have hkind : (x.kind != .constant) = true := by simpa using hother
    rw [hkind, Bool.true_and]
    rw [Subject.member?, Subject.upsert, find?_upsertMember, ← Subject.member?]
    show (if (x.name == name && x.kind == kind) = true then _ else _) = _
    split
    · next hcalled =>
      obtain ⟨rfl, rfl⟩ : x.name = name ∧ x.kind = kind := by simpa using hcalled
      cases hknown : s.member? x.name x.kind with
      | none => simp [supplement]
      | some old =>
        have hold : old.isCalled x.name x.kind = true := by simpa using List.find?_some hknown
        obtain ⟨hname, hkinds⟩ := Prod.mk.inj (Member.isCalled_iff.mp hold)
        simp [supplement, Member.complete, hname, hkinds]
    · rfl

/-- An entry supplements a member by its own declarations of it. -/
theorem member?_declare (s : Subject) (d : DeclaredSubject) (name : String) (kind : MemberKind) :
    (declare s d).member? name kind =
      (d.members.filter (declares · name kind)).foldl (supplement name kind)
        (s.member? name kind) := by
  have hmembers : ∀ t : Subject, (d.members.foldl declareMember t).member? name kind =
      (d.members.filter (declares · name kind)).foldl (supplement name kind)
        (t.member? name kind) := by
    intro t
    rw [List.foldl_filter]
    refine (List.foldl_hom (fun t : Subject => t.member? name kind) fun t x => ?_).symm
    exact (member?_declareMember t x name kind).symm
  -- constants and the other fields are no members
  have hconstants : ∀ t : Subject,
      (d.constants.foldl declareConstant t).member? name kind = t.member? name kind :=
    fun t => List.foldlRecOn (motive := fun u : Subject => u.member? name kind = t.member? name kind)
      d.constants declareConstant rfl fun _ hu _ _ => hu
  obtain ⟨_, hmove⟩ := moveTo_frame s d.file
  refine (hconstants _).trans ((hmembers _).trans ?_)
  rw [hmove]
  rfl

theorem member?_foldl_declare (entries : List DeclaredSubject) (s : Subject) (name : String)
    (kind : MemberKind) :
    (entries.foldl declare s).member? name kind =
      ((entries.flatMap (·.members)).filter (declares · name kind)).foldl (supplement name kind)
        (s.member? name kind) := by
  rw [List.filter_flatMap, List.foldl_flatMap]
  refine (List.foldl_hom (fun t : Subject => t.member? name kind) fun t d => ?_).symm
  exact (member?_declare t d name kind).symm

/-- Each field of a member is the last one given, or else what it was before. -/
theorem foldl_supplement {α : Type} {name : String} {kind : MemberKind} (get : Member → Option α)
    (field : DeclaredMember → Option α)
    (hstep : ∀ known x, (supplement name kind known x).bind get = (field x <|> known.bind get))
    (ds : List DeclaredMember) (known : Option Member) :
    (ds.foldl (supplement name kind) known).bind get = (lastGiven field ds <|> known.bind get) := by
  induction ds generalizing known with
  | nil => simp [lastGiven]
  | cons x rest ih =>
    rw [List.foldl_cons, ih, hstep, lastGiven, lastGiven, List.filterMap_cons]
    cases field x with
    | none => simp
    | some a => cases h : (rest.filterMap field).getLast? <;> simp [h, List.getLast?_cons]

theorem foldl_supplement_isSome {name : String} {kind : MemberKind} (ds : List DeclaredMember)
    {known : Option Member} (h : ds ≠ [] ∨ known.isSome = true) :
    (ds.foldl (supplement name kind) known).isSome = true := by
  induction ds generalizing known with
  | nil => simpa using h
  | cons x rest ih => exact ih (.inr rfl)

/-- A constant that is there stays there. -/
theorem constant?_declare_isSome (s : Subject) (d : DeclaredSubject) (name : String)
    (h : (s.constants.get? name).isSome = true) :
    ((declare s d).constants.get? name).isSome = true := by
  have hset : ∀ (t : Subject) (c : Constant), (t.constants.get? name).isSome = true →
      ((t.setConstant c).constants.get? name).isSome = true := by
    intro t c ht
    rw [Subject.setConstant, OrderedMap.get?_insert]
    split
    · rfl
    · exact ht
  obtain ⟨_, hmove⟩ := moveTo_frame s d.file
  refine declare_induction (P := fun t => (t.constants.get? name).isSome = true) s d
    (fun _ _ _ _ _ _ ht => ht) (by rw [hmove]; exact h) ?_ ?_
  · intro t ht x _
    rcases declareMember_cases t x with ⟨c, _, heq⟩ | ⟨y, _, heq⟩
    · rw [heq]
      exact hset t c ht
    · rw [heq]
      exact ht
  · intro t ht e _
    rw [declareConstant_eq]
    exact hset t _ ht

/-! ## Collected subjects -/

variable {m : Manifest} {files : FileTree} {subjects : List Subject}

/-- A member of a collected subject is what was found of it, supplemented by all its declarations. -/
theorem member?_collected (h : m.collect files = .ok subjects) {s : Subject} (hs : s ∈ subjects)
    (name : String) (kind : MemberKind) :
    s.member? name kind = (m.declarationsOf s.name name kind).foldl (supplement name kind)
      (m.foundMember files s.name name kind) := by
  refine (congrArg (·.member? name kind) (collect_spec h hs)).trans ?_
  rw [member?_foldl_declare, member?_assemble]
  rfl

/-- A constant that was found is there. -/
theorem constant?_collected_isSome (h : m.collect files = .ok subjects) {s : Subject}
    (hs : s ∈ subjects) {name : String}
    (hfound : (firstValue (m.sightings files s.name) name).isSome = true) :
    (s.constants.get? name).isSome = true := by
  rw [collect_spec h hs]
  refine List.foldlRecOn (motive := fun t : Subject => (t.constants.get? name).isSome = true) _
    declare ?_ fun t ht d _ => constant?_declare_isSome t d name ht
  rw [constant?_assemble]
  exact hfound

/-- A member that a look-up finds stands in the subject. -/
theorem exists_member {s : Subject} {name : String} {kind : MemberKind}
    (h : (s.member? name kind).isSome = true) :
    ∃ y ∈ s.members, y.key = (name, kind) ∧ s.member? name kind = some y := by
  obtain ⟨y, hy⟩ := Option.isSome_iff_exists.mp h
  have hcalled : y.isCalled name kind = true := by simpa using List.find?_some hy
  exact ⟨y, List.mem_of_find?_eq_some hy, Member.isCalled_iff.mp hcalled, hy⟩

/-- Every name that a source file or an entry declares is that of a collected subject. -/
theorem exists_subject (h : m.collect files = .ok subjects) {name : String}
    (hname : name ∈ m.foundNames files ∨ name ∈ m.subjects.map (·.name)) :
    ∃ s ∈ subjects, s.name = name := by
  refine List.mem_map.mp ?_
  rw [names_collect h, ← List.eraseDups_append, List.mem_eraseDups]
  exact List.mem_append.mpr hname

/-- What a source file has in a declaration is there. -/
theorem found_collected (h : m.collect files = .ok subjects) {file : String}
    (hfile : file ∈ m.sourceFiles files) {d : Outline.Declaration}
    (hd : d ∈ declarationsIn files m.project.root file) :
    ∃ s ∈ subjects, s.name = d.name ∧ (∀ x ∈ d.members, ∃ y ∈ s.members, y.key = x.key) ∧
      ∀ c ∈ d.constants, ∃ b ∈ s.constants.values, b.name = c.name := by
  have hname : d.name ∈ m.foundNames files :=
    List.mem_flatMap.mpr ⟨file, hfile, List.mem_map_of_mem hd⟩
  obtain ⟨s, hs, hsname⟩ := exists_subject h (.inl hname)
  have hseen := mem_sightings_of_found hfile hd
  rw [← hsname] at hseen
  refine ⟨s, hs, hsname, fun x hx => ?_, fun c hc => ?_⟩
  · have hmember : (s.member? x.name x.kind).isSome = true := by
      rw [member?_collected h hs]
      exact foldl_supplement_isSome _ (.inr (foundMember_isSome hseen hx))
    obtain ⟨y, hy, hkey, -⟩ := exists_member hmember
    exact ⟨y, hy, hkey⟩
  · obtain ⟨b, hb⟩ := Option.isSome_iff_exists.mp
      (constant?_collected_isSome h hs (firstValue_isSome hseen hc))
    refine ⟨b, List.mem_map_of_mem (f := Prod.snd) (OrderedMap.mem_of_get? hb), ?_⟩
    exact (keyed_collected h hs).names c.name b hb

/-- What an entry declares is there, with the last line and the last result given. -/
theorem declared_collected (h : m.collect files = .ok subjects) {d : DeclaredSubject}
    (hd : d ∈ m.subjects) {x : DeclaredMember} (hx : x ∈ d.members) (hkind : x.kind ≠ .constant) :
    ∃ s ∈ subjects, s.name = d.name ∧ ∃ y ∈ s.members, y.key = (x.name, x.kind) ∧
      y.line = (lastGiven (·.line) (m.declarationsOf d.name x.name x.kind) <|>
        (m.foundMember files d.name x.name x.kind).bind (·.line)) ∧
      y.returns = (lastGiven (·.returns) (m.declarationsOf d.name x.name x.kind) <|>
        (m.foundMember files d.name x.name x.kind).bind (·.returns)) := by
  obtain ⟨s, hs, hsname⟩ := exists_subject h (.inr (List.mem_map_of_mem hd))
  have hdeclared : x ∈ m.declarationsOf d.name x.name x.kind := by
    refine List.mem_filter.mpr ⟨List.mem_flatMap.mpr ⟨d, ?_, hx⟩, by simp [declares, hkind]⟩
    exact List.mem_filter.mpr ⟨hd, beq_self_eq_true _⟩
  have hmember := member?_collected h hs x.name x.kind
  rw [hsname] at hmember
  have hsome : (s.member? x.name x.kind).isSome = true := by
    rw [hmember]
    exact foldl_supplement_isSome _ (.inl (List.ne_nil_of_mem hdeclared))
  obtain ⟨y, hy, hkey, hlook⟩ := exists_member hsome
  rw [hlook] at hmember
  refine ⟨s, hs, hsname, y, hy, hkey, ?_, ?_⟩
  · have hline := congrArg (·.bind (·.line)) hmember
    rw [foldl_supplement (·.line) (·.line) fun _ _ => rfl] at hline
    exact hline
  · have hreturns := congrArg (·.bind (·.returns)) hmember
    rw [foldl_supplement (·.returns) (·.returns) fun _ _ => rfl] at hreturns
    exact hreturns

/-- Subjects to which nothing is lost and in which nothing is there twice. They have the names that the
source files declare and then those that the manifest adds, each where it turns up first. Each subject
has every member and every constant that a source file has in a declaration of it, and every member that
an entry declares, with the last line and the last result that its declarations give, or else those that
were found. -/
structure Complete (m : Manifest) (files : FileTree) (subjects : List Subject) : Prop where
  distinct : (subjects.map (·.name)).Nodup
  registered : Registry.make subjects = .ok ⟨subjects⟩
  ordered : subjects.map (·.name) = (m.foundNames files).eraseDups ++
    ((m.subjects.map (·.name)).removeAll (m.foundNames files)).eraseDups
  keyed : ∀ s ∈ subjects, s.Keyed
  found : ∀ file ∈ m.sourceFiles files, ∀ d ∈ declarationsIn files m.project.root file,
    ∃ s ∈ subjects, s.name = d.name ∧ (∀ x ∈ d.members, ∃ y ∈ s.members, y.key = x.key) ∧
      ∀ c ∈ d.constants, ∃ b ∈ s.constants.values, b.name = c.name
  declared : ∀ d ∈ m.subjects, ∀ x ∈ d.members, x.kind ≠ .constant →
    ∃ s ∈ subjects, s.name = d.name ∧ ∃ y ∈ s.members, y.key = (x.name, x.kind) ∧
      y.line = (lastGiven (·.line) (m.declarationsOf d.name x.name x.kind) <|>
        (m.foundMember files d.name x.name x.kind).bind (·.line)) ∧
      y.returns = (lastGiven (·.returns) (m.declarationsOf d.name x.name x.kind) <|>
        (m.foundMember files d.name x.name x.kind).bind (·.returns))

/-- **Nothing is lost, nothing is doubled.** Whatever files and entries subjects are collected from, they
are complete. -/
theorem collect_complete (h : m.collect files = .ok subjects) : m.Complete files subjects where
  distinct := nodup_names_collect h
  registered := Registry.make_of_nodup (nodup_names_collect h)
  ordered := names_collect h
  keyed _ hs := keyed_collected h hs
  found _ hfile _ hd := found_collected h hfile hd
  declared _ hd _ hx hkind := declared_collected h hd hx hkind

/-- A manifest whose subject is found in two files and declared twice, with a new one in between. -/
def overlaying : Manifest :=
  { patterns := ["a.rb", "c.rb"],
    subjects :=
      [{ name := "A", members := [{ name := "x", kind := .onInstance, line := some 9 }] },
        { name := "B" },
        { name := "A",
          members := [{ name := "x", kind := .onInstance, returns := some (.int 5) }] }] }

theorem sources_overlaying : overlaying.sources threeFiles = .ok ["a.rb", "c.rb"] :=
  sources_of_sorted [["a.rb"], ["c.rb"]] (by decide +kernel) (by decide +kernel)

/-- The line is given by the first of two declarations, the result by the second. -/
theorem collect_complete_overlaying :
    ∃ subjects s, overlaying.collect threeFiles = .ok subjects ∧ s ∈ subjects ∧ s.name = "A" ∧
      s.memberLine? "x" .onInstance = some 9 ∧ s.constantLine? "K" = some 2 ∧
      overlaying.Complete threeFiles subjects := by
  obtain ⟨subjects, s, hrun, hs, hname, -, hmember, hconstant⟩ :=
    exists_collected overlaying threeFiles "A" "a.rb" ("x", .onInstance, 9) ("K", 2)
      (by rw [collect, sources_overlaying]; decide +kernel)
  exact ⟨subjects, s, hrun, hs, hname, hmember, hconstant, collect_complete hrun⟩

end DocWeave.Manifest
