import DocWeave.Proofs.Manifest.Keyed

/-!
# The files that recorded lines belong to

A collected subject has a file, and lines of definition with its members and constants. The line of a
member is that of its first sighting, and is kept only from the file in which the subject itself was
seen first (`memberLine?_assemble`). The line of a constant is that of its first sighting, in whatever
file (`constantLine?_assemble`). Entries of the manifest that give no lines keep the recorded ones, also
where they move the subject to another file (`memberLine?_declare`). Hence the lines of a subject are
lines of its file exactly if those that come from other files happen to stand there as well.
-/

namespace DocWeave.Manifest

/-! ## The lines that sightings record -/

/-- A member that is added does not displace one that is there. -/
theorem member?_addMembers (sameFile : Bool) (s : Subject) (members : List Member) (name : String)
    (kind : MemberKind) :
    (addMembers sameFile s members).member? name kind =
      (s.member? name kind).or ((members.find? (·.isCalled name kind)).map (memberFrom sameFile)) := by
  induction members generalizing s with
  | nil => simp [addMembers]
  | cons x rest ih =>
    have hfold : addMembers sameFile s (x :: rest) =
        addMembers sameFile (if (s.member? x.name x.kind).isSome then s
          else { s with members := s.members ++ [memberFrom sameFile x] }) rest := rfl
    have hcalled : (memberFrom sameFile x).isCalled name kind = x.isCalled name kind := by
      unfold memberFrom
      split <;> rfl
    rw [hfold, ih, List.find?_cons]
    split
    · -- a member of this name and kind is there already
      next hknown =>
      split
      · next hx =>
        cases Member.isCalled_iff.mp hx
        obtain ⟨y, hy⟩ := Option.isSome_iff_exists.mp hknown
        rw [hy, Option.some_or, Option.some_or]
      · rfl
    · next hnone =>
      simp only [Subject.member?, List.find?_append, List.find?_singleton, hcalled]
      cases hx : x.isCalled name kind with
      | true =>
        cases Member.isCalled_iff.mp hx
        have hnew : s.members.find? (·.isCalled x.name x.kind) = none := by
          simpa [Subject.member?] using hnone
        simp [hnew]
      | false => simp

/-- A constant that is added does not displace one that is there. -/
theorem get?_addConstants (constants : OrderedMap String Constant) (new : List Constant)
    (name : String) :
    (addConstants constants new).get? name =
      (constants.get? name).or (new.find? (·.name == name)) := by
  induction new generalizing constants with
  | nil => simp [addConstants]
  | cons c rest ih =>
    have hfold : addConstants constants (c :: rest) =
        addConstants (if constants.hasKey c.name then constants
          else constants.insert c.name c) rest := rfl
    rw [hfold, ih, List.find?_cons]
    split
    · next hknown =>
      split
      · next hc =>
        cases eq_of_beq hc
        obtain ⟨b, hb⟩ := Option.isSome_iff_exists.mp hknown
        rw [hb, Option.some_or, Option.some_or]
      · rfl
    · next hnone =>
      rw [OrderedMap.get?_insert]
      by_cases hc : c.name = name
      · subst hc
        have hnew : constants.get? c.name = none := by
          simpa [OrderedMap.hasKey] using hnone
        simp [hnew]
      · have hbeq : (c.name == name) = false := by simpa using hc
        simp [hbeq, Ne.symm hc]

/-- A subject keeps the file in which it was seen first. -/
theorem absorb_file (file : String) (s : Subject) (d : Outline.Declaration) :
    (absorb file s d).file = s.file := by
  obtain ⟨_, _, _, h⟩ := absorb_frame file s d
  rw [h]

theorem absorb_member? (file : String) (s : Subject) (d : Outline.Declaration) (name : String)
    (kind : MemberKind) :
    (absorb file s d).member? name kind =
      (s.member? name kind).or
        ((d.members.find? (·.isCalled name kind)).map (memberFrom (s.file == some file))) :=
  member?_addMembers _ _ _ name kind

theorem absorb_constant? (file : String) (s : Subject) (d : Outline.Declaration) (name : String) :
    (absorb file s d).constants.get? name =
      (s.constants.get? name).or (d.constants.find? (·.name == name)) := by
  obtain ⟨_, _, _, h⟩ := absorb_frame file s d
  rw [h]
  exact get?_addConstants s.constants d.constants name

/-- The file and the line at which a member is seen first. -/
def firstMember (seen : List Sighting) (name : String) (kind : MemberKind) :
    Option (String × Option Nat) :=
  seen.findSome? fun g =>
    (g.found.members.find? (·.isCalled name kind)).map fun x => (g.file, x.line)

/-- The file and the line at which a constant is seen first. -/
def firstConstant (seen : List Sighting) (name : String) : Option (String × Option Nat) :=
  seen.findSome? fun g => (g.found.constants.find? (·.name == name)).map fun c => (g.file, c.line)

/-- The file in which a subject is seen first. -/
def homeFile (seen : List Sighting) : Option String := seen.head?.map (·.file)

/-- The line of a member is kept from the subject's own file only. -/
theorem memberFrom_line (sameFile : Bool) (x : Member) :
    (memberFrom sameFile x).line = if sameFile then x.line else none := by
  unfold memberFrom
  split <;> rfl

/-- The first sighting of a member, with its file. -/
def firstFound (seen : List Sighting) (name : String) (kind : MemberKind) : Option (String × Member) :=
  seen.findSome? fun g => (g.found.members.find? (·.isCalled name kind)).map fun x => (g.file, x)

/-- The first sighting of a constant. -/
def firstValue (seen : List Sighting) (name : String) : Option Constant :=
  seen.findSome? fun g => g.found.constants.find? (·.name == name)

/-- A run of sightings seen from one member: what is there stays, else the first sighting decides. -/
theorem member?_foldl_absorb (seen : List Sighting) (s : Subject) (name : String)
    (kind : MemberKind) :
    (seen.foldl (fun s g => absorb g.file s g.found) s).member? name kind =
      (s.member? name kind).or
        ((firstFound seen name kind).map fun p => memberFrom (s.file == some p.1) p.2) := by
  induction seen generalizing s with
  | nil => simp [firstFound]
  | cons g rest ih =>
    rw [List.foldl_cons, ih, absorb_file, absorb_member?, Option.or_assoc]
    -- if this sighting has the member it is the first one, else the first one is among the rest
    cases hfound : g.found.members.find? (·.isCalled name kind) with
    | none => simp [firstFound, hfound]
    | some x => simp [firstFound, hfound]

/-- A run of sightings seen from one constant. -/
theorem constant?_foldl_absorb (seen : List Sighting) (s : Subject) (name : String) :
    (seen.foldl (fun s g => absorb g.file s g.found) s).constants.get? name =
      (s.constants.get? name).or (firstValue seen name) := by
  induction seen generalizing s with
  | nil => simp [firstValue]
  | cons g rest ih =>
    rw [List.foldl_cons, ih, absorb_constant?, Option.or_assoc]
    cases hfound : g.found.constants.find? (·.name == name) with
    | none => simp [firstValue, hfound]
    | some c => simp [firstValue, hfound]

/-- The member of a subject that sightings make: that of the first sighting, with its line if that was in
the home file. -/
theorem member?_assemble (seen : List Sighting) (subject name : String) (kind : MemberKind) :
    ((assemble seen).getD { name := subject }).member? name kind =
      (firstFound seen name kind).map fun p => memberFrom (homeFile seen == some p.1) p.2 := by
  cases seen with
  | nil => rfl
  | cons g rest =>
    rw [assemble_cons, Option.getD_some, member?_foldl_absorb]
    rfl

/-- The constant of a subject that sightings make. -/
theorem constant?_assemble (seen : List Sighting) (subject name : String) :
    ((assemble seen).getD { name := subject }).constants.get? name = firstValue seen name := by
  cases seen with
  | nil => rfl
  | cons g rest =>
    rw [assemble_cons, Option.getD_some, constant?_foldl_absorb]
    rfl

/-- A subject that was seen is at home in the file of its first sighting. -/
theorem assemble_file (seen : List Sighting) (name : String) :
    ((assemble seen).getD { name }).file = homeFile seen := by
  cases seen with
  | nil => rfl
  | cons g rest =>
    rw [assemble_cons, Option.getD_some]
    refine List.foldlRecOn (motive := fun t : Subject => t.file = some g.file) _ _ rfl ?_
    intro t ht g' _
    rw [absorb_file, ht]

/-- The line of a member is that of its first sighting, if that was in the home file. -/
theorem memberLine?_assemble (seen : List Sighting) (subject name : String) (kind : MemberKind) :
    ((assemble seen).getD { name := subject }).memberLine? name kind =
      (firstMember seen name kind).bind fun p => if homeFile seen = some p.1 then p.2 else none := by
  have hfirst : firstMember seen name kind =
      (firstFound seen name kind).map fun p => (p.1, p.2.line) := by
    simp [firstMember, firstFound, List.map_findSome?, Function.comp_def]
  rw [Subject.memberLine?, member?_assemble, hfirst]
  cases firstFound seen name kind with
  | none => rfl
  | some p => simp [memberFrom_line]

/-- The line of a constant is that of its first sighting, in whatever file. -/
theorem constantLine?_assemble (seen : List Sighting) (subject name : String) :
    ((assemble seen).getD { name := subject }).constantLine? name =
      (firstConstant seen name).bind (·.2) := by
  rw [Subject.constantLine?, constant?_assemble]
  -- both go through the sightings up to the first that has the constant
  induction seen with
  | nil => rfl
  | cons g rest ih =>
    cases hfound : g.found.constants.find? (·.name == name) with
    | none => simpa [firstValue, firstConstant, hfound] using ih
    | some c => simp [firstValue, firstConstant, hfound]

/-! ## The lines that entries keep -/

/-- An entry without lines keeps the line of every member. -/
theorem memberLine?_declare {d : DeclaredSubject} (hd : ∀ x ∈ d.members, x.line = none) (s : Subject)
    (name : String) (kind : MemberKind) :
    (declare s d).memberLine? name kind = s.memberLine? name kind := by
  obtain ⟨_, hmove⟩ := moveTo_frame s d.file
  refine declare_induction (P := fun t => t.memberLine? name kind = s.memberLine? name kind) s d
    (fun _ _ _ _ _ _ h => h) (by rw [hmove]; rfl) ?_ (fun _ h _ _ => h)
  · intro t ht x hx
    rcases declareMember_cases t x with ⟨c, _, heq⟩ | ⟨y, hy, heq⟩
    · rw [heq]
      exact ht
    · rw [heq, ← ht]
      exact find?_upsertMember_line (hy.trans (hd x hx)) t.members name kind

/-- An entry without lines keeps the line of every constant. -/
theorem constantLine?_declare {d : DeclaredSubject} (hd : ∀ x ∈ d.members, x.line = none)
    (s : Subject) (name : String) :
    (declare s d).constantLine? name = s.constantLine? name := by
  -- a constant that is set with the line recorded for it changes no line
  have hset : ∀ (t : Subject) (c : Constant), c.line = t.constantLine? c.name →
      (t.setConstant c).constantLine? name = t.constantLine? name := by
    intro t c hc
    unfold Subject.constantLine? Subject.setConstant
    rw [OrderedMap.get?_insert]
    split
    · next hname =>
      rw [Option.bind_some, hc, hname]
      rfl
    · rfl
  obtain ⟨_, hmove⟩ := moveTo_frame s d.file
  refine declare_induction (P := fun t => t.constantLine? name = s.constantLine? name) s d
    (fun _ _ _ _ _ _ h => h) (by rw [hmove]; rfl) ?_ ?_
  · intro t ht x hx
    rcases declareMember_cases t x with ⟨c, hc, heq⟩ | ⟨y, _, heq⟩
    · rw [heq, hset t c (by rw [hc, hd x hx]; rfl), ht]
    · rw [heq]
      exact ht
  · intro t ht e _
    rw [declareConstant_eq, hset t _ rfl, ht]

/-- The file of an entry, if it has one, replaces the file of the subject. -/
theorem declare_file (s : Subject) (d : DeclaredSubject) :
    (declare s d).file = (d.file <|> s.file) := by
  obtain ⟨_, hmove⟩ := moveTo_frame s d.file
  refine declare_induction (P := fun t => t.file = (d.file <|> s.file)) s d
    (fun _ _ _ _ _ _ h => h) (by rw [hmove]) ?_ (fun _ h _ _ => h)
  intro t ht x _
  rcases declareMember_cases t x with ⟨c, _, heq⟩ | ⟨y, _, heq⟩ <;> rw [heq] <;> exact ht

/-- The last file that entries give to a subject replaces the others. -/
theorem foldl_declare_file (entries : List DeclaredSubject) (s : Subject) :
    (entries.foldl declare s).file = ((entries.filterMap (·.file)).getLast? <|> s.file) := by
  induction entries generalizing s with
  | nil => simp
  | cons d rest ih =>
    rw [List.foldl_cons, ih, declare_file, List.filterMap_cons]
    cases d.file with
    | none => simp
    | some f => cases h : (rest.filterMap (·.file)).getLast? <;> simp [h, List.getLast?_cons]

/-! ## Lines in a file -/

/-- Some declaration of the subject has the member at the line. -/
def HasMemberAt (ds : List Outline.Declaration) (subject name : String) (kind : MemberKind)
    (line : Nat) : Prop :=
  ∃ d ∈ ds, d.name = subject ∧ ∃ x ∈ d.members, x.key = (name, kind) ∧ x.line = some line

/-- Some declaration of the subject has the constant at the line. -/
def HasConstantAt (ds : List Outline.Declaration) (subject name : String) (line : Nat) : Prop :=
  ∃ d ∈ ds, d.name = subject ∧ ∃ c ∈ d.constants, c.name = name ∧ c.line = some line

instance (ds : List Outline.Declaration) (subject name : String) (kind : MemberKind) (line : Nat) :
    Decidable (HasMemberAt ds subject name kind line) :=
  inferInstanceAs (Decidable (∃ d ∈ ds, d.name = subject ∧
    ∃ x ∈ d.members, x.key = (name, kind) ∧ x.line = some line))

instance (ds : List Outline.Declaration) (subject name : String) (line : Nat) :
    Decidable (HasConstantAt ds subject name line) :=
  inferInstanceAs (Decidable (∃ d ∈ ds, d.name = subject ∧
    ∃ c ∈ d.constants, c.name = name ∧ c.line = some line))

/-- Every line recorded in a subject is one at which the declarations have the member or constant. -/
structure LinesIn (ds : List Outline.Declaration) (s : Subject) : Prop where
  members : ∀ x ∈ s.members, ∀ line, x.line = some line → HasMemberAt ds s.name x.name x.kind line
  constants : ∀ c ∈ s.constants.values, ∀ line, c.line = some line →
    HasConstantAt ds s.name c.name line

/-- The lines that come from other files than the given one are among the lines of the declarations:
those of members seen first in another home file, and those of constants seen first in any other. -/
structure ForeignLinesIn (ds : List Outline.Declaration) (seen : List Sighting)
    (subject file : String) : Prop where
  members : ∀ home name kind line, homeFile seen = some home → home ≠ file →
    firstMember seen name kind = some (home, some line) → HasMemberAt ds subject name kind line
  constants : ∀ other name line, other ≠ file →
    firstConstant seen name = some (other, some line) → HasConstantAt ds subject name line

/-- In a keyed subject the recorded lines can be asked for by name. -/
theorem linesIn_iff {s : Subject} (h : s.Keyed) (ds : List Outline.Declaration) :
    LinesIn ds s ↔
      (∀ name kind line, s.memberLine? name kind = some line →
          HasMemberAt ds s.name name kind line) ∧
        ∀ name line, s.constantLine? name = some line → HasConstantAt ds s.name name line := by
  constructor
  · intro hlines
    refine ⟨fun name kind line hline => ?_, fun name line hline => ?_⟩
    · obtain ⟨x, hx, hxline⟩ := Option.bind_eq_some_iff.mp hline
      have hcalled : x.isCalled name kind = true := by simpa using List.find?_some hx
      cases Member.isCalled_iff.mp hcalled
      exact hlines.members x (List.mem_of_find?_eq_some hx) line hxline
    · obtain ⟨c, hc, hcline⟩ := Option.bind_eq_some_iff.mp hline
      have hmem : c ∈ s.constants.values :=
        List.mem_map_of_mem (f := Prod.snd) (OrderedMap.mem_of_get? hc)
      rw [← h.names name c hc]
      exact hlines.constants c hmem line hcline
  · rintro ⟨hmembers, hconstants⟩
    refine ⟨fun x hx line hline => ?_, fun c hc line hline => ?_⟩
    · refine hmembers x.name x.kind line ?_
      have hfind : s.member? x.name x.kind = some x := find?_isCalled_of_mem h.members hx
      rw [Subject.memberLine?, hfind, Option.bind_some, hline]
    · refine hconstants c.name line ?_
      rw [Subject.constantLine?, h.constant? hc, Option.bind_some, hline]

/-- A member is declared where it is seen first. -/
theorem firstMember_at {files : FileTree} {root subject : String} {seen : List Sighting}
    (hseen : ∀ g ∈ seen, g.found ∈ declarationsIn files root g.file ∧ g.found.name = subject)
    {name file : String} {kind : MemberKind} {line : Nat}
    (h : firstMember seen name kind = some (file, some line)) :
    HasMemberAt (declarationsIn files root file) subject name kind line := by
  obtain ⟨g, hg, hmap⟩ := List.exists_of_findSome?_eq_some h
  obtain ⟨x, hx, heq⟩ := Option.map_eq_some_iff.mp hmap
  obtain ⟨rfl, hline⟩ := Prod.mk.inj heq
  have hcalled : x.isCalled name kind = true := by simpa using List.find?_some hx
  exact ⟨g.found, (hseen g hg).1, (hseen g hg).2, x, List.mem_of_find?_eq_some hx,
    Member.isCalled_iff.mp hcalled, hline⟩

/-- A constant is declared where it is seen first. -/
theorem firstConstant_at {files : FileTree} {root subject : String} {seen : List Sighting}
    (hseen : ∀ g ∈ seen, g.found ∈ declarationsIn files root g.file ∧ g.found.name = subject)
    {name file : String} {line : Nat}
    (h : firstConstant seen name = some (file, some line)) :
    HasConstantAt (declarationsIn files root file) subject name line := by
  obtain ⟨g, hg, hmap⟩ := List.exists_of_findSome?_eq_some h
  obtain ⟨c, hc, heq⟩ := Option.map_eq_some_iff.mp hmap
  obtain ⟨rfl, hline⟩ := Prod.mk.inj heq
  have hname : c.name = name := by simpa using List.find?_some hc
  exact ⟨g.found, (hseen g hg).1, (hseen g hg).2, c, List.mem_of_find?_eq_some hc, hname, hline⟩

/-- Nothing is foreign in a subject that is in its home file and has constants in no other. -/
theorem foreignLinesIn_of_home {ds : List Outline.Declaration} {seen : List Sighting}
    {subject file : String} (hhome : homeFile seen = some file)
    (hconstants : ∀ g ∈ seen, g.found.constants.isEmpty = true ∨ g.file = file) :
    ForeignLinesIn ds seen subject file := by
  constructor
  · intro home _ _ _ h hne _
    cases hhome.symm.trans h
    exact absurd rfl hne
  · intro other name line hne hfirst
    obtain ⟨g, hg, hmap⟩ := List.exists_of_findSome?_eq_some hfirst
    obtain ⟨c, hc, heq⟩ := Option.map_eq_some_iff.mp hmap
    obtain ⟨rfl, _⟩ := Prod.mk.inj heq
    rcases hconstants g hg with hnone | hsame
    · rw [List.isEmpty_iff.mp hnone] at hc
      cases hc
    · exact absurd hsame hne

/-! ## The lines of collected subjects -/

/-- No entry gives the line of a member. -/
def WithoutLines (m : Manifest) : Prop := ∀ d ∈ m.subjects, ∀ x ∈ d.members, x.line = none

instance (m : Manifest) : Decidable m.WithoutLines :=
  inferInstanceAs (Decidable (∀ d ∈ m.subjects, ∀ x ∈ d.members, x.line = none))

/-- The file of a subject: the last one that an entry gives, or else the home file. -/
def fileOf (m : Manifest) (files : FileTree) (name : String) : Option String :=
  ((m.entriesFor name).filterMap (·.file)).getLast? <|> homeFile (m.sightings files name)

/-- What is recorded in a collected subject. -/
structure Records (m : Manifest) (files : FileTree) (s : Subject) : Prop where
  keyed : s.Keyed
  file : s.file = m.fileOf files s.name
  memberLine : ∀ name kind, s.memberLine? name kind =
    (firstMember (m.sightings files s.name) name kind).bind fun p =>
      if homeFile (m.sightings files s.name) = some p.1 then p.2 else none
  constantLine : ∀ name, s.constantLine? name =
    (firstConstant (m.sightings files s.name) name).bind (·.2)

/-- A collected subject has a member once and its constants under their names. -/
theorem keyed_collected {m : Manifest} {files : FileTree} {subjects : List Subject}
    (h : m.collect files = .ok subjects) {s : Subject} (hs : s ∈ subjects) : s.Keyed := by
  rw [collect_spec h hs]
  refine List.foldlRecOn (motive := Subject.Keyed) _ declare ?_ fun t ht d _ => keyed_declare ht d
  cases hseen : assemble (m.sightings files s.name) with
  | none => exact ⟨.nil, .nil, fun _ _ hc => by cases hc⟩
  | some t => exact keyed_assemble hseen

/-- The records of every collected subject, whatever the files and the manifest are. -/
theorem collect_records {m : Manifest} {files : FileTree} (hm : m.WithoutLines)
    {subjects : List Subject} (h : m.collect files = .ok subjects) {s : Subject} (hs : s ∈ subjects) :
    m.Records files s := by
  have hmade := collect_spec h hs
  have hentry : ∀ d ∈ m.entriesFor s.name, ∀ x ∈ d.members, x.line = none := fun d hd =>
    hm d (List.mem_filter.mp hd).1
  refine ⟨keyed_collected h hs, ?_, fun name kind => ?_, fun name => ?_⟩
  · have hfile := congrArg Subject.file hmade
    rw [foldl_declare_file, assemble_file] at hfile
    exact hfile
  · refine (congrArg (·.memberLine? name kind) hmade).trans ?_
    rw [← memberLine?_assemble _ s.name]
    refine List.foldlRecOn (motive := fun t : Subject => t.memberLine? name kind = _) _ declare
      rfl ?_
    intro t ht d hd
    rw [memberLine?_declare (hentry d hd), ht]
  · refine (congrArg (·.constantLine? name) hmade).trans ?_
    rw [← constantLine?_assemble _ s.name]
    refine List.foldlRecOn (motive := fun t : Subject => t.constantLine? name = _) _ declare rfl ?_
    intro t ht d hd
    rw [constantLine?_declare (hentry d hd), ht]

/-- **Recorded lines.** A collected subject is in the last file that the manifest gives it, or else in
the file where it was seen first. Its recorded lines are lines of that file if and only if those that
come from other files stand there too. -/
theorem collect_lines_iff {m : Manifest} {files : FileTree} (hm : m.WithoutLines)
    {subjects : List Subject} (h : m.collect files = .ok subjects) {s : Subject} (hs : s ∈ subjects)
    {file : String} (hfile : s.file = some file) :
    m.fileOf files s.name = some file ∧
      (LinesIn (declarationsIn files m.project.root file) s ↔
        ForeignLinesIn (declarationsIn files m.project.root file) (m.sightings files s.name)
          s.name file) := by
  have hrec := collect_records hm h hs
  have hseen : ∀ g ∈ m.sightings files s.name,
      g.found ∈ declarationsIn files m.project.root g.file ∧ g.found.name = s.name :=
    fun _ hg => mem_sightings hg
  refine ⟨hrec.file.symm.trans hfile, ?_⟩
  rw [linesIn_iff hrec.keyed]
  constructor
  · rintro ⟨hmembers, hconstants⟩
    refine ⟨fun home name kind line hhome _ hfirst => ?_, fun other name line _ hfirst => ?_⟩
    · refine hmembers name kind line ?_
      rw [hrec.memberLine, hfirst, Option.bind_some, if_pos hhome]
    · refine hconstants name line ?_
      rw [hrec.constantLine, hfirst, Option.bind_some]
  · intro hforeign
    refine ⟨fun name kind line hline => ?_, fun name line hline => ?_⟩
    · -- the line is from the home file: either that is the file, or the line is foreign
      rw [hrec.memberLine] at hline
      obtain ⟨⟨home, found⟩, hfirst, hkept⟩ := Option.bind_eq_some_iff.mp hline
      by_cases hhome : homeFile (m.sightings files s.name) = some home
      · rw [if_pos hhome] at hkept
        subst hkept
        by_cases hsame : home = file
        · exact hsame ▸ firstMember_at hseen hfirst
        · exact hforeign.members home name kind line hhome hsame hfirst
      · rw [if_neg hhome] at hkept
        cases hkept
    · rw [hrec.constantLine] at hline
      obtain ⟨⟨other, found⟩, hfirst, hkept⟩ := Option.bind_eq_some_iff.mp hline
      cases hkept
      by_cases hsame : other = file
      · exact hsame ▸ firstConstant_at hseen hfirst
      · exact hforeign.constants other name line hsame hfirst

/-! ## Three projects -/

/-- Sources that are found in the order of their paths stay in that order. -/
theorem sources_of_sorted {m : Manifest} {files : FileTree} (found : List (List String))
    (h : (m.patterns.mapM (filesOf files m.project.root)).toOption = some found)
    (hsorted : found.flatten.Pairwise fun a b => decide (a ≤ b) = true) :
    m.sources files = .ok (dropRepeats found.flatten) := by
  unfold sources
  cases hfound : m.patterns.mapM (filesOf files m.project.root) with
  | error e => simp [hfound, Except.toOption] at h
  | ok all =>
    have hall : all = found := by simpa [hfound, Except.toOption] using h
    subst hall
    simp only [bind, Except.bind, pure, Except.pure, List.mergeSort_of_pairwise hsorted]

/-- A subject with a name, a file and certain lines is in the outcome of a run if a look at that outcome
shows it. -/
theorem exists_collected (m : Manifest) (files : FileTree) (name file : String)
    (member : String × MemberKind × Nat) (constant : String × Nat)
    (h : (m.collect files).toOption.any (·.any fun s => s.name == name && s.file == some file &&
      s.memberLine? member.1 member.2.1 == some member.2.2 &&
      s.constantLine? constant.1 == some constant.2) = true) :
    ∃ subjects s, m.collect files = .ok subjects ∧ s ∈ subjects ∧ s.name = name ∧
      s.file = some file ∧ s.memberLine? member.1 member.2.1 = some member.2.2 ∧
      s.constantLine? constant.1 = some constant.2 := by
  cases hrun : m.collect files with
  | error e => simp [hrun, Except.toOption] at h
  | ok subjects =>
    rw [hrun] at h
    obtain ⟨s, hs, hlook⟩ := List.any_eq_true.mp h
    simp only [Bool.and_eq_true, beq_iff_eq] at hlook
    obtain ⟨⟨⟨hname, hfile⟩, hmember⟩, hconstant⟩ := hlook
    exact ⟨subjects, s, rfl, hs, hname, hfile, hmember, hconstant⟩

/-- Three files that declare the same subject. -/
def threeFiles : FileTree :=
  { files :=
      [(["a.rb"], "class A\n  K = 1\n  def x\n  end\nend\n"),
        (["b.rb"], "class A\n\n\n  def y\n  end\n  L = 2\nend\n"),
        (["c.rb"], "class A\n  def x\n  end\n  def z\n  end\nend\n")] }

/-- A manifest whose subject is found in two files and completed in the first of them. -/
def completing : Manifest :=
  { patterns := ["a.rb", "c.rb"],
    subjects := [{ name := "A", file := some "a.rb", constants := [("K", .int 5)] }] }

theorem sources_completing : completing.sources threeFiles = .ok ["a.rb", "c.rb"] :=
  sources_of_sorted [["a.rb"], ["c.rb"]] (by decide +kernel) (by decide +kernel)

/-- The constants come from the first file alone, so all lines are lines of that file. -/
theorem collect_lines_completing : completing.WithoutLines ∧
    ∃ subjects s, completing.collect threeFiles = .ok subjects ∧ s ∈ subjects ∧
      s.file = some "a.rb" ∧ s.memberLine? "x" .onInstance = some 3 ∧
      s.constantLine? "K" = some 2 ∧ LinesIn (declarationsIn threeFiles "." "a.rb") s := by
  have hlines : completing.WithoutLines := by decide
  obtain ⟨subjects, s, hrun, hs, hname, hfile, hmember, hconstant⟩ :=
    exists_collected completing threeFiles "A" "a.rb" ("x", .onInstance, 3) ("K", 2)
      (by rw [collect, sources_completing]; decide +kernel)
  have hseen : homeFile (completing.sightings threeFiles "A") = some "a.rb" ∧
      ∀ g ∈ completing.sightings threeFiles "A",
        g.found.constants.isEmpty = true ∨ g.file = "a.rb" := by
    rw [sightings, sources_completing]
    decide +kernel
  refine ⟨hlines, subjects, s, hrun, hs, hfile, hmember, hconstant, ?_⟩
  refine (collect_lines_iff hlines hrun hs hfile).2.mpr ?_
  rw [hname]
  exact foreignLinesIn_of_home hseen.1 hseen.2

/-- A manifest whose subject is found in two files, with a constant in the second. -/
def reopening : Manifest := { patterns := ["a.rb", "b.rb"] }

theorem sources_reopening : reopening.sources threeFiles = .ok ["a.rb", "b.rb"] :=
  sources_of_sorted [["a.rb"], ["b.rb"]] (by decide +kernel) (by decide +kernel)

/-- A manifest whose subject is found in one file and moved to another. -/
def moving : Manifest :=
  { patterns := ["a.rb"], subjects := [{ name := "A", file := some "b.rb" }] }

theorem sources_moving : moving.sources threeFiles = .ok ["a.rb"] :=
  sources_of_sorted [["a.rb"]] (by decide +kernel) (by decide +kernel)

/-- Recorded lines are not always lines of the subject's own file: the line of a constant is kept from
a file in which the subject is reopened, and all lines are kept when the subject is moved. -/
theorem not_collect_linesIn :
    (reopening.WithoutLines ∧ ∃ subjects s, reopening.collect threeFiles = .ok subjects ∧
      s ∈ subjects ∧ s.file = some "a.rb" ∧ ¬ LinesIn (declarationsIn threeFiles "." "a.rb") s) ∧
    moving.WithoutLines ∧ ∃ subjects s, moving.collect threeFiles = .ok subjects ∧
      s ∈ subjects ∧ s.file = some "b.rb" ∧ ¬ LinesIn (declarationsIn threeFiles "." "b.rb") s := by
  have hreopening : reopening.WithoutLines := by decide
  have hmoving : moving.WithoutLines := by decide
  constructor
  · obtain ⟨subjects, s, hrun, hs, hname, hfile, _, hline⟩ :=
      exists_collected reopening threeFiles "A" "a.rb" ("x", .onInstance, 3) ("L", 6)
        (by rw [collect, sources_reopening]; decide +kernel)
    refine ⟨hreopening, subjects, s, hrun, hs, hfile, fun hown => ?_⟩
    have hkeyed := (collect_records hreopening hrun hs).keyed
    have hat := ((linesIn_iff hkeyed _).mp hown).2 "L" 6 hline
    rw [hname] at hat
    revert hat
    decide +kernel
  · obtain ⟨subjects, s, hrun, hs, hname, hfile, hline, _⟩ :=
      exists_collected moving threeFiles "A" "b.rb" ("x", .onInstance, 3) ("K", 2)
        (by rw [collect, sources_moving]; decide +kernel)
    refine ⟨hmoving, subjects, s, hrun, hs, hfile, fun hown => ?_⟩
    have hkeyed := (collect_records hmoving hrun hs).keyed
    have hat := ((linesIn_iff hkeyed _).mp hown).1 "x" .onInstance 3 hline
    rw [hname] at hat
    revert hat
    decide +kernel

end DocWeave.Manifest
