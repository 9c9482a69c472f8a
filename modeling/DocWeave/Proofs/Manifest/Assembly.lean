import DocWeave.Manifest.Discovery
import DocWeave.Proofs.OrderedMap
import DocWeave.Proofs.Stateful

/-!
# How a subject is put together

`Manifest.collect` works on all subjects at once. Seen from one name, it does three things: it goes
through the *sightings* of the subject, that is the declarations of it with the files they stand in,
absorbs them one after the other, and lays the manifest's entries of that name over the result. The
main statement is `collect_spec`: every collected subject is exactly what its own sightings and its own
entries make of it, whatever else is collected.
-/

namespace DocWeave.Manifest

open DocWeave.Text

/-! ## Folds that may fail -/

section Folds

variable {σ α β ε : Type} {f : σ → α → Except ε σ}

/-- What every step keeps, a whole run keeps. -/
theorem foldlM_invariant {P : σ → Prop} (hstep : ∀ s x s', f s x = .ok s' → P s → P s')
    {xs : List α} {s s' : σ} (h : xs.foldlM f s = .ok s') (hs : P s) : P s' := by
  induction xs generalizing s with
  | nil =>
    cases h
    exact hs
  | cons x rest ih =>
    rw [List.foldlM_cons] at h
    obtain ⟨t, hx, hrest⟩ := Stateful.bind_eq_ok h
    exact ih hrest (hstep s x t hx hs)

/-- Where every step acts on a view of the state as `g` does, a whole run acts on it as a fold of `g`. -/
theorem foldlM_view (view : σ → β) (g : β → α → β)
    (hstep : ∀ s x s', f s x = .ok s' → view s' = g (view s) x)
    {xs : List α} {s s' : σ} (h : xs.foldlM f s = .ok s') : view s' = xs.foldl g (view s) := by
  induction xs generalizing s with
  | nil =>
    cases h
    rfl
  | cons x rest ih =>
    rw [List.foldlM_cons] at h
    obtain ⟨t, hx, hrest⟩ := Stateful.bind_eq_ok h
    rw [List.foldl_cons, ← hstep s x t hx]
    exact ih hrest

end Folds

/-! ## Sightings -/

/-- A declaration with the file it was seen in. -/
structure Sighting where
  file : String
  found : Outline.Declaration

/-- The declarations of a file; a file that cannot be read has none. -/
def declarationsIn (files : FileTree) (root file : String) : List Outline.Declaration :=
  (outlineOf files root file).toOption.getD []

theorem declarationsIn_of_ok {files : FileTree} {root file : String}
    {ds : List Outline.Declaration} (h : outlineOf files root file = .ok ds) :
    declarationsIn files root file = ds := by
  simp [declarationsIn, h, Except.toOption]

/-- All that a file shows of a subject. -/
def seenIn (files : FileTree) (root name file : String) : List Sighting :=
  ((declarationsIn files root file).filter (·.name == name)).map (⟨file, ·⟩)

/-- What the search for a declared subject shows: the first declaration of it in its file. -/
def searched (files : FileTree) (root : String) (d : DeclaredSubject) : List Sighting :=
  match d.file with
  | some file =>
    if d.discover then
      ((declarationsIn files root file).find? (·.name == d.name)).toList.map (⟨file, ·⟩)
    else []
  | none => []

/-- The entries of a manifest about one subject. -/
def entriesFor (m : Manifest) (name : String) : List DeclaredSubject :=
  m.subjects.filter (·.name == name)

/-- All that is seen of a subject, in order: what the source files show, or else what the search for its
first entry does. -/
def sightings (m : Manifest) (files : FileTree) (name : String) : List Sighting :=
  match ((m.sources files).toOption.getD []).flatMap (seenIn files m.project.root name) with
  | [] => ((m.entriesFor name).take 1).flatMap (searched files m.project.root)
  | seen => seen

/-- A subject, if it was seen before, with one more sighting of it. -/
def see (s : Option Subject) (g : Sighting) : Option Subject :=
  some (absorb g.file (s.getD (subjectOf g.file g.found)) g.found)

/-- The subject that sightings make. -/
def assemble (seen : List Sighting) : Option Subject := seen.foldl see none

/-- Once a subject is there, every further sighting is absorbed. -/
theorem foldl_see_some (seen : List Sighting) (s : Subject) :
    seen.foldl see (some s) = some (seen.foldl (fun s g => absorb g.file s g.found) s) := by
  induction seen generalizing s with
  | nil => rfl
  | cons g rest ih => exact ih (absorb g.file s g.found)

/-- The first sighting makes the subject, and all of them are absorbed. -/
theorem assemble_cons (g : Sighting) (rest : List Sighting) :
    assemble (g :: rest) =
      some ((g :: rest).foldl (fun s g => absorb g.file s g.found) (subjectOf g.file g.found)) :=
  foldl_see_some rest (absorb g.file (subjectOf g.file g.found) g.found)

/-- Every sighting is a declaration of the subject in the file it names. -/
theorem mem_seenIn {files : FileTree} {root name file : String} {g : Sighting}
    (h : g ∈ seenIn files root name file) :
    g.found ∈ declarationsIn files root g.file ∧ g.found.name = name := by
  obtain ⟨d, hd, rfl⟩ := List.mem_map.mp h
  obtain ⟨hmem, hname⟩ := List.mem_filter.mp hd
  exact ⟨hmem, by simpa using hname⟩

theorem mem_searched {files : FileTree} {root : String} {d : DeclaredSubject} {g : Sighting}
    (h : g ∈ searched files root d) :
    g.found ∈ declarationsIn files root g.file ∧ g.found.name = d.name := by
  unfold searched at h
  split at h
  · split at h
    · obtain ⟨found, hfound, rfl⟩ := List.mem_map.mp h
      have hfind := Option.mem_toList.mp hfound
      exact ⟨List.mem_of_find?_eq_some hfind, by simpa using List.find?_some hfind⟩
    · simp at h
  · simp at h

theorem mem_sightings {m : Manifest} {files : FileTree} {name : String} {g : Sighting}
    (h : g ∈ m.sightings files name) :
    g.found ∈ declarationsIn files m.project.root g.file ∧ g.found.name = name := by
  unfold sightings at h
  split at h
  · obtain ⟨d, hd, hg⟩ := List.mem_flatMap.mp h
    obtain ⟨hfound, hname⟩ := mem_searched hg
    have hentry : d.name = name := by
      simpa using (List.mem_filter.mp (List.mem_of_mem_take hd)).2
    exact ⟨hfound, hname.trans hentry⟩
  · obtain ⟨file, _, hg⟩ := List.mem_flatMap.mp h
    exact mem_seenIn hg

/-! ## What one step does to one name -/

/-- A source file has its declarations merged, one after the other. -/
theorem eq_of_discoverFile {files : FileTree} {root file : String} {subjects subjects' : Collection}
    (h : discoverFile files root subjects file = .ok subjects') :
    subjects' = (declarationsIn files root file).foldl (mergeDeclaration file) subjects := by
  obtain ⟨ds, ho, h⟩ := Stateful.bind_eq_ok h
  cases h
  rw [declarationsIn_of_ok ho]

/-- An entry is laid over what is there behind the search for it. -/
theorem eq_of_declareSubject {files : FileTree} {root : String} {subjects subjects' : Collection}
    {d : DeclaredSubject} (h : declareSubject files root subjects d = .ok subjects') :
    ∃ between, searchDeclared files root subjects d = .ok between ∧
      subjects' =
        between.insert d.name (declare ((between.get? d.name).getD { name := d.name }) d) := by
  obtain ⟨between, hsearch, h⟩ := Stateful.bind_eq_ok h
  cases h
  exact ⟨between, hsearch, rfl⟩

/-- A declaration changes the subject of its name and no other. -/
theorem get?_mergeDeclaration (file : String) (subjects : Collection) (d : Outline.Declaration)
    (name : String) :
    (mergeDeclaration file subjects d).get? name =
      if d.name == name then see (subjects.get? name) ⟨file, d⟩ else subjects.get? name := by
  unfold mergeDeclaration
  rw [OrderedMap.get?_insert]
  by_cases h : d.name = name
  · simp [h, see]
  · simp [h, Ne.symm h]

/-- A source file adds its sightings to each subject. -/
theorem get?_discoverFile {files : FileTree} {root file : String} {subjects subjects' : Collection}
    (h : discoverFile files root subjects file = .ok subjects') (name : String) :
    subjects'.get? name = (seenIn files root name file).foldl see (subjects.get? name) := by
  -- looking at one name turns the fold over the collection into a fold over its own subject
  rw [eq_of_discoverFile h, seenIn, List.foldl_map, List.foldl_filter]
  refine (List.foldl_hom (fun s : Collection => s.get? name) fun s d => ?_).symm
  exact (get?_mergeDeclaration file s d name).symm

/-- The subject that an entry is laid over: the known one, or else what the search for the entry
shows. -/
def underlying (files : FileTree) (root : String) (known : Option Subject) (d : DeclaredSubject) :
    Option Subject :=
  known <|> assemble (searched files root d)

/-- The subject of a name with an entry laid over it; a subject that nothing shows begins empty. -/
def layOver (files : FileTree) (root name : String) (known : Option Subject) (d : DeclaredSubject) :
    Option Subject :=
  some (declare ((underlying files root known d).getD { name }) d)

/-- The two outcomes of the search for an entry: there was nothing to look for or to find, or one
declaration of a new subject was found. -/
theorem searchDeclared_cases {files : FileTree} {root : String} {subjects subjects' : Collection}
    {d : DeclaredSubject} (h : searchDeclared files root subjects d = .ok subjects') :
    (subjects' = subjects ∧
        ((subjects.get? d.name).isSome = true ∨ searched files root d = [])) ∨
      ∃ g, subjects.get? d.name = none ∧ searched files root d = [g] ∧ g.found.name = d.name ∧
        subjects' = mergeDeclaration g.file subjects g.found := by
  unfold searchDeclared at h
  unfold searched
  cases hf : d.file with
  | none =>
    rw [hf] at h
    cases h
    exact .inl ⟨rfl, .inr rfl⟩
  | some file =>
    rw [hf] at h
    dsimp only at h ⊢
    split at h
    · next hskip =>
      cases h
      refine .inl ⟨rfl, ?_⟩
      rcases Bool.or_eq_true_iff.mp hskip with hknown | hoff
      · exact .inl hknown
      · exact .inr (if_neg (by simpa using hoff))
    · next hgo =>
      have hboth : subjects.get? d.name = none ∧ d.discover = true := by
        simpa [OrderedMap.hasKey] using hgo
      obtain ⟨ds, ho, h⟩ := Stateful.bind_eq_ok h
      rw [declarationsIn_of_ok ho, if_pos hboth.2]
      cases hd : ds.find? (·.name == d.name) with
      | none =>
        rw [hd] at h
        cases h
        exact .inl ⟨rfl, .inr rfl⟩
      | some found =>
        rw [hd] at h
        cases h
        exact .inr ⟨⟨file, found⟩, hboth.1, rfl, by simpa using List.find?_some hd, rfl⟩

/-- The search for an entry gives the subject that the entry is laid over. -/
theorem get?_searchDeclared {files : FileTree} {root : String} {subjects subjects' : Collection}
    {d : DeclaredSubject} (h : searchDeclared files root subjects d = .ok subjects') (name : String) :
    subjects'.get? name =
      if d.name == name then underlying files root (subjects.get? name) d
      else subjects.get? name := by
  by_cases hname : d.name = name
  · subst hname
    rw [if_pos (beq_self_eq_true _)]
    rcases searchDeclared_cases h with ⟨rfl, hsome | hnil⟩ | ⟨g, hnew, hone, hg, rfl⟩
    · obtain ⟨s, hs⟩ := Option.isSome_iff_exists.mp hsome
      simp [underlying, hs]
    · simp [underlying, hnil, assemble]
    · rw [get?_mergeDeclaration]
      simp [underlying, hnew, hone, hg, assemble]
  · rw [if_neg (by simpa using hname)]
    rcases searchDeclared_cases h with ⟨rfl, _⟩ | ⟨g, _, _, hg, rfl⟩
    · rfl
    · rw [get?_mergeDeclaration, if_neg (by simpa [hg] using hname)]

/-- An entry changes the subject of its name and no other. -/
theorem get?_declareSubject {files : FileTree} {root : String} {subjects subjects' : Collection}
    {d : DeclaredSubject} (h : declareSubject files root subjects d = .ok subjects') (name : String) :
    subjects'.get? name =
      if d.name == name then layOver files root name (subjects.get? name) d
      else subjects.get? name := by
  obtain ⟨between, hsearch, rfl⟩ := eq_of_declareSubject h
  have hget := get?_searchDeclared hsearch name
  rw [OrderedMap.get?_insert]
  by_cases hname : d.name = name
  · subst hname
    rw [if_pos (beq_self_eq_true _)] at hget
    simp [layOver, hget]
  · rw [if_neg (Ne.symm hname)]
    simpa [hname] using hget

/-! ## Whole runs -/

theorem nodup_discoverFile {files : FileTree} {root file : String} {subjects subjects' : Collection}
    (h : discoverFile files root subjects file = .ok subjects') (hn : subjects.keys.Nodup) :
    subjects'.keys.Nodup := by
  rw [eq_of_discoverFile h]
  refine List.foldlRecOn (motive := fun s : Collection => s.keys.Nodup) _ (mergeDeclaration file) hn
    fun s hs d _ => ?_
  exact OrderedMap.nodup_keys_insert hs _ _

theorem nodup_declareSubject {files : FileTree} {root : String} {subjects subjects' : Collection}
    {d : DeclaredSubject} (h : declareSubject files root subjects d = .ok subjects')
    (hn : subjects.keys.Nodup) : subjects'.keys.Nodup := by
  obtain ⟨between, hsearch, rfl⟩ := eq_of_declareSubject h
  refine OrderedMap.nodup_keys_insert ?_ _ _
  rcases searchDeclared_cases hsearch with ⟨rfl, _⟩ | ⟨g, _, _, _, rfl⟩
  · exact hn
  · exact OrderedMap.nodup_keys_insert hn _ _

/-- The first entry of a name is laid over what is known or found, the others over one another. -/
theorem foldl_declared (files : FileTree) (root name : String) (entries : List DeclaredSubject)
    (known : Option Subject) (s : Subject)
    (h : entries.foldl (layOver files root name) known = some s) :
    s = entries.foldl declare
      ((known <|> assemble ((entries.take 1).flatMap (searched files root))).getD { name }) := by
  -- behind the first entry the subject is known, so no search takes place
  have hknown : ∀ (rest : List DeclaredSubject) (t : Subject),
      rest.foldl (layOver files root name) (some t) = some (rest.foldl declare t) := by
    intro rest
    induction rest with
    | nil => intro t; rfl
    | cons d rest ih => intro t; exact ih (declare t d)
  cases entries with
  | nil =>
    have hs : known = some s := h
    simp [hs]
  | cons d rest =>
    rw [List.foldl_cons, layOver, hknown] at h
    simpa [underlying] using (Option.some.inj h).symm

/-- What the source files show of a subject, or else what the search for its first entry does. -/
theorem assemble_sightings {m : Manifest} {files : FileTree} {sources : List String}
    (h : m.sources files = .ok sources) (name : String) :
    assemble (m.sightings files name) =
      (assemble (sources.flatMap (seenIn files m.project.root name)) <|>
        assemble (((m.entriesFor name).take 1).flatMap (searched files m.project.root))) := by
  unfold sightings
  rw [h]
  dsimp only [Except.toOption, Option.getD_some]
  cases sources.flatMap (seenIn files m.project.root name) with
  | nil => simp [assemble]
  | cons g rest => simp [assemble_cons]

/-- The two passes of a run: over the source files, then over the entries. -/
theorem collect_cases {m : Manifest} {files : FileTree} {subjects : List Subject}
    (h : m.collect files = .ok subjects) :
    ∃ sources found all, m.sources files = .ok sources ∧
      sources.foldlM (discoverFile files m.project.root) [] = .ok found ∧
      m.subjects.foldlM (declareSubject files m.project.root) found = .ok all ∧
      subjects = all.values := by
  obtain ⟨sources, hsources, h⟩ := Stateful.bind_eq_ok h
  obtain ⟨found, hfound, h⟩ := Stateful.bind_eq_ok h
  obtain ⟨all, hall, h⟩ := Stateful.bind_eq_ok h
  cases h
  exact ⟨sources, found, all, hsources, hfound, hall, rfl⟩

/-- The first pass leaves at a name what the source files show of it. -/
theorem get?_discovered {files : FileTree} {root : String} {sources : List String}
    {found : Collection} (h : sources.foldlM (discoverFile files root) [] = .ok found)
    (name : String) : found.get? name = assemble (sources.flatMap (seenIn files root name)) := by
  rw [foldlM_view (fun c : Collection => c.get? name)
    (fun known file => (seenIn files root name file).foldl see known)
    (fun _ _ _ hstep => get?_discoverFile hstep name) h, assemble, List.foldl_flatMap]
  rfl

/-- The second pass lays the entries of a name over what is there. -/
theorem get?_declared {m : Manifest} {files : FileTree} {found all : Collection}
    (h : m.subjects.foldlM (declareSubject files m.project.root) found = .ok all)
    {name : String} {s : Subject} (hs : all.get? name = some s) :
    s = (m.entriesFor name).foldl declare
      ((found.get? name <|>
        assemble (((m.entriesFor name).take 1).flatMap (searched files m.project.root))).getD
          { name }) := by
  have hview := foldlM_view (fun c : Collection => c.get? name)
    (fun known d => if d.name == name then layOver files m.project.root name known d else known)
    (fun _ _ _ hstep => get?_declareSubject hstep name) h
  refine foldl_declared files m.project.root name (m.entriesFor name) (found.get? name) s ?_
  rw [entriesFor, List.foldl_filter, ← hs, hview]

/-! ## What all steps keep -/

/-- What holds of a subject as first declared, and what every sighting keeps, holds of the subject that
sightings make. -/
theorem assemble_induction {P : Subject → Prop} {seen : List Sighting}
    (hfirst : ∀ g ∈ seen, P (subjectOf g.file g.found))
    (hstep : ∀ s, P s → ∀ g ∈ seen, P (absorb g.file s g.found))
    {s : Subject} (h : assemble seen = some s) : P s := by
  have hall : ∀ t ∈ assemble seen, P t := by
    refine List.foldlRecOn (motive := fun o : Option Subject => ∀ t ∈ o, P t) seen see
      (by simp) ?_
    intro o ho g hg t ht
    cases Option.mem_some.mp ht
    cases o with
    | none => exact hstep _ (hfirst g hg) g hg
    | some t => exact hstep t (ho t rfl) g hg
  exact hall s h

/-- What the move of a subject and every declared member and constant keep, an entry keeps, as long as
it does not look at the other fields. -/
theorem declare_induction {P : Subject → Prop} (s : Subject) (d : DeclaredSubject)
    (hfields : ∀ (t : Subject) kind parent includes bootstrap stubs,
      P t → P { t with kind, parent, includes, bootstrap, stubs })
    (hmove : P (moveTo s d.file))
    (hmember : ∀ t, P t → ∀ m ∈ d.members, P (declareMember t m))
    (hconstant : ∀ t, P t → ∀ e ∈ d.constants, P (declareConstant t e)) : P (declare s d) := by
  unfold declare
  refine hfields _ _ _ _ _ _ ?_
  refine List.foldlRecOn d.constants declareConstant ?_ hconstant
  refine List.foldlRecOn d.members declareMember ?_ hmember
  exact hfields _ _ _ _ _ _ hmove

/-! ## Names -/

/-- Adding members changes nothing but the members. -/
theorem addMembers_frame (sameFile : Bool) (s : Subject) (members : List Member) :
    ∃ all, addMembers sameFile s members = { s with members := all } := by
  refine List.foldlRecOn
    (motive := fun t : Subject => ∃ all, t = { s with members := all }) members _ ⟨_, rfl⟩ ?_
  rintro t ⟨all, rfl⟩ x _
  split
  · exact ⟨all, rfl⟩
  · exact ⟨_, rfl⟩

/-- A sighting adds a parent, mixins, members and constants. -/
theorem absorb_frame (file : String) (s : Subject) (d : Outline.Declaration) :
    ∃ parent includes members, absorb file s d =
      { s with parent, includes, members, constants := addConstants s.constants d.constants } := by
  unfold absorb
  obtain ⟨members, h⟩ := addMembers_frame (s.file == some file)
    { s with parent := s.parent <|> d.parent, includes := addNames s.includes d.includes } d.members
  simp only [h]
  exact ⟨_, _, members, rfl⟩

@[simp] theorem absorb_name (file : String) (s : Subject) (d : Outline.Declaration) :
    (absorb file s d).name = s.name := by
  obtain ⟨_, _, _, h⟩ := absorb_frame file s d
  rw [h]

/-- A move changes nothing but the file and the line. -/
theorem moveTo_frame (s : Subject) (file : Option String) :
    ∃ line, moveTo s file = { s with file := file <|> s.file, line } := by
  unfold moveTo
  cases file with
  | none => exact ⟨s.line, rfl⟩
  | some f =>
    dsimp only
    split
    · next h =>
      have hf : s.file = some f := eq_of_beq h
      exact ⟨s.line, by rw [← hf]; simp⟩
    · exact ⟨none, rfl⟩

@[simp] theorem declareMember_name (s : Subject) (m : DeclaredMember) :
    (declareMember s m).name = s.name := by
  unfold declareMember
  split <;> rfl

@[simp] theorem declare_name (s : Subject) (d : DeclaredSubject) : (declare s d).name = s.name := by
  obtain ⟨_, hmove⟩ := moveTo_frame s d.file
  exact declare_induction (P := fun t => t.name = s.name) s d (fun _ _ _ _ _ _ h => h) (by rw [hmove])
    (fun t h m _ => (declareMember_name t m).trans h) fun _ h _ _ => h

/-- Sightings of one name make a subject of that name. -/
theorem assemble_name {seen : List Sighting} {name : String}
    (hseen : ∀ g ∈ seen, g.found.name = name) {s : Subject} (h : assemble seen = some s) :
    s.name = name :=
  assemble_induction (P := fun t => t.name = name) hseen
    (fun t ht g _ => (absorb_name g.file t g.found).trans ht) h

/-- What both passes leave at a name: a subject of that name, made of its own sightings and entries. -/
theorem get?_collected {m : Manifest} {files : FileTree} {sources : List String}
    {found all : Collection} (hsources : m.sources files = .ok sources)
    (hfound : sources.foldlM (discoverFile files m.project.root) [] = .ok found)
    (hall : m.subjects.foldlM (declareSubject files m.project.root) found = .ok all)
    {name : String} {s : Subject} (hs : all.get? name = some s) :
    s.name = name ∧ s = (m.entriesFor name).foldl declare
      ((assemble (m.sightings files name)).getD { name }) := by
  have hmade := get?_declared hall hs
  rw [get?_discovered hfound, ← assemble_sightings hsources] at hmade
  have hbase : ((assemble (m.sightings files name)).getD { name }).name = name := by
    cases hseen : assemble (m.sightings files name) with
    | none => rfl
    | some t => exact assemble_name (fun g hg => (mem_sightings hg).2) hseen
  refine ⟨?_, hmade⟩
  rw [hmade]
  refine List.foldlRecOn (motive := fun t : Subject => t.name = name) _ declare hbase ?_
  intro t ht d _
  rw [declare_name, ht]

/-- The two passes leave each name once. -/
theorem nodup_collected {m : Manifest} {files : FileTree} {sources : List String}
    {found all : Collection}
    (hfound : sources.foldlM (discoverFile files m.project.root) [] = .ok found)
    (hall : m.subjects.foldlM (declareSubject files m.project.root) found = .ok all) :
    all.keys.Nodup :=
  foldlM_invariant (fun _ _ _ hstep => nodup_declareSubject hstep) hall
    (foldlM_invariant (fun _ _ _ hstep => nodup_discoverFile hstep) hfound .nil)

/-- **The subjects one by one.** Every collected subject is made of its own sightings, with its own
entries laid over them in the order in which the manifest has them. -/
theorem collect_spec {m : Manifest} {files : FileTree} {subjects : List Subject}
    (h : m.collect files = .ok subjects) {s : Subject} (hs : s ∈ subjects) :
    s = (m.entriesFor s.name).foldl declare
      ((assemble (m.sightings files s.name)).getD { name := s.name }) := by
  obtain ⟨sources, found, all, hsources, hfound, hall, rfl⟩ := collect_cases h
  obtain ⟨name, hname⟩ := OrderedMap.get?_of_mem_values (nodup_collected hfound hall) hs
  obtain ⟨rfl, hmade⟩ := get?_collected hsources hfound hall hname
  exact hmade

end DocWeave.Manifest
