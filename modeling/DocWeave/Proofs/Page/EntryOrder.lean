import DocWeave.Page.Assembly
import DocWeave.Proofs.Text.Splitting
import Mathlib.Data.String.Basic

/-!
# The order of the entries on a page

`entryOrder` compares four keys one after the other, so it is a total order in which only entries of one
name are level. Each section has every name once. Its entries have therefore only one order, whatever
order they were made in (`entriesOf_eq_of_perm`), and a page is the same text for all of them. Up to line
ends, the page is its head and then the entries, section by section (`assemble_shows`).
-/

namespace DocWeave.Page

open DocWeave.Text

/-! ## The order is total -/

section

variable {a b : String × Entry}

/-- Entries with a place go first, by file, line and name; the others follow by name. -/
def Precedes (a b : String × Entry) : Prop :=
  match place? a.2, place? b.2 with
  | some (file, line), some (file', line') =>
    file < file' ∨ file = file' ∧ (line < line' ∨ line = line' ∧ a.1 < b.1)
  | some _, none => True
  | none, some _ => False
  | none, none => a.1 < b.1

theorem entryOrder_eq_lt_iff : entryOrder a b = .lt ↔ Precedes a b := by
  unfold entryOrder Precedes
  cases place? a.2 with
  | none =>
    cases place? b.2 with
    | none => exact compare_lt_iff_lt
    | some y => simp
  | some x =>
    cases place? b.2 with
    | none => simp
    | some y => simp only [Ordering.then_eq_lt, compare_lt_iff_lt, compare_eq_iff_eq]

/-- Two entries are level only if they have the same name. -/
theorem name_eq_of_entryOrder (h : entryOrder a b = .eq) : a.1 = b.1 := by
  unfold entryOrder at h
  split at h
  · simp only [Ordering.then_eq_eq] at h
    exact compare_eq_iff_eq.mp h.2.2
  · cases h
  · cases h
  · exact compare_eq_iff_eq.mp h

/-- The four keys of an entry: whether it lacks a place, the file, the line and the name. -/
theorem entryOrder_eq_compareLex : entryOrder =
    compareLex (compareOn fun a => (place? a.2).isNone)
      (compareLex (compareOn fun a => ((place? a.2).getD ("", 0)).1)
        (compareLex (compareOn fun a => ((place? a.2).getD ("", 0)).2) (compareOn Prod.fst))) := by
  funext a b
  unfold entryOrder compareLex compareOn
  dsimp only
  cases place? a.2 with
  | none =>
    cases place? b.2 with
    | none => simp
    | some y => rfl
  | some x =>
    cases place? b.2 with
    | none => rfl
    | some y => simp

instance : Std.TransCmp entryOrder := by
  rw [entryOrder_eq_compareLex]
  infer_instance

/-- Entries that are not the wrong way round and have different names are in strict order. -/
theorem precedes_of_ne_gt (h : (entryOrder a b != .gt) = true) (hne : a.1 ≠ b.1) : Precedes a b := by
  rw [← entryOrder_eq_lt_iff]
  cases ho : entryOrder a b with
  | lt => rfl
  | eq => exact absurd (name_eq_of_entryOrder ho) hne
  | gt => simp [ho] at h

theorem Precedes.asymm (h : Precedes a b) : ¬ Precedes b a := by
  rw [← entryOrder_eq_lt_iff] at h ⊢
  exact Std.OrientedCmp.not_lt_of_lt h

end

/-- What sorting by `entryOrder` gives is in order. -/
theorem pairwise_mergeSort_entryOrder (group : List (String × Entry)) :
    (group.mergeSort fun a b => entryOrder a b != .gt).Pairwise
      fun a b => (entryOrder a b != .gt) = true := by
  have hle (o : Ordering) : (o != .gt) = o.isLE := by cases o <;> rfl
  simp only [hle]
  refine List.pairwise_mergeSort (fun a b c => Std.TransCmp.isLE_trans) (fun a b => ?_) group
  have hswap : entryOrder a b = (entryOrder b a).swap := Std.OrientedCmp.eq_swap
  rw [hswap]
  cases entryOrder b a <;> rfl

/-! ## The entries of a section -/

section

variable {entries entries' : Entries} {kind : MemberKind}

theorem mem_entriesOf {name : String} {e : Entry} :
    (name, e) ∈ entriesOf entries kind ↔ (⟨kind, name⟩, e) ∈ entries ∧ e.isBlank = false := by
  rw [entriesOf, (List.mergeSort_perm _ _).mem_iff, List.mem_map]
  simp only [List.mem_filter, Bool.and_eq_true, beq_iff_eq, Bool.not_eq_true']
  constructor
  · rintro ⟨⟨⟨kind', name'⟩, e'⟩, ⟨hmem, rfl, hblank⟩, heq⟩
    cases heq
    exact ⟨hmem, hblank⟩
  · rintro ⟨hmem, hblank⟩
    exact ⟨_, ⟨hmem, rfl, hblank⟩, rfl⟩

/-- In a map where each key stands once, a section has each name once. -/
theorem entriesOf_names (hkeys : (OrderedMap.keys entries).Nodup) :
    (entriesOf entries kind).Pairwise fun a b => a.1 ≠ b.1 := by
  rw [entriesOf, (List.mergeSort_perm _ _).pairwise_iff Ne.symm, List.pairwise_map]
  have hpairs : entries.Pairwise fun p q => p.1 ≠ q.1 := List.pairwise_map.mp hkeys
  refine (hpairs.filter _).imp_of_mem fun {p q} hp hq hne hname => hne ?_
  -- two keys of one kind differ in their names
  simp only [List.mem_filter, Bool.and_eq_true, beq_iff_eq] at hp hq
  obtain ⟨⟨kind₁, name₁⟩, e₁⟩ := p
  obtain ⟨⟨kind₂, name₂⟩, e₂⟩ := q
  exact congrArg₂ EntryKey.mk (hp.2.1.trans hq.2.1.symm) hname

theorem entriesOf_increasing (hkeys : (OrderedMap.keys entries).Nodup) :
    (entriesOf entries kind).Pairwise Precedes :=
  (pairwise_mergeSort_entryOrder _).imp₂ (fun _ _ => precedes_of_ne_gt) (entriesOf_names hkeys)

/-- The order in which the entries were made does not show in a section. -/
theorem entriesOf_eq_of_perm (hkeys : (OrderedMap.keys entries).Nodup) (h : entries'.Perm entries) :
    entriesOf entries' kind = entriesOf entries kind := by
  have hkeys' : (OrderedMap.keys entries').Nodup := (h.map Prod.fst).nodup_iff.mpr hkeys
  have hperm : (entriesOf entries' kind).Perm (entriesOf entries kind) :=
    ((List.mergeSort_perm _ _).trans ((h.filter _).map _)).trans (List.mergeSort_perm _ _).symm
  -- no two members go both ways, so one arrangement of them is in order
  exact hperm.eq_of_pairwise (fun _ _ _ _ hab hba => absurd hba hab.asymm)
    (entriesOf_increasing hkeys') (entriesOf_increasing hkeys)

end

/-- The sections, each with the entries it shows. -/
def groupsFrom (entries : Entries) :
    (done : List MemberKind) → List Section → List (Section × List (String × Entry))
  | _, [] => []
  | done, s :: rest =>
    (s, if done.contains s.kind then [] else entriesOf entries s.kind) ::
      groupsFrom entries (s.kind :: done) rest

section

variable {entries entries' : Entries}

theorem sectionTexts_eq (done : List MemberKind) (sections : List Section) :
    sectionTexts entries done sections =
      (groupsFrom entries done sections).map fun g => sectionText g.1 g.2 := by
  induction sections generalizing done with
  | nil => rfl
  | cons s rest ih =>
    rw [sectionTexts, groupsFrom, List.map_cons, ih]

theorem groupsFrom_sections (done : List MemberKind) (sections : List Section) :
    (groupsFrom entries done sections).map Prod.fst = sections := by
  induction sections generalizing done with
  | nil => rfl
  | cons s rest ih => rw [groupsFrom, List.map_cons, ih]

theorem groupsFrom_eq_of_perm (hkeys : (OrderedMap.keys entries).Nodup) (h : entries'.Perm entries)
    (done : List MemberKind) (sections : List Section) :
    groupsFrom entries' done sections = groupsFrom entries done sections := by
  induction sections generalizing done with
  | nil => rfl
  | cons s rest ih => rw [groupsFrom, groupsFrom, entriesOf_eq_of_perm hkeys h, ih]

/-- The entries under a section, given the sections above it: those of its kind that are not blank, in
strict order. A section whose kind has been shown above has none. -/
structure IsGroup (entries : Entries) (above : List Section) (s : Section)
    (group : List (String × Entry)) : Prop where
  mem_iff : ∀ name e, (name, e) ∈ group ↔
    (⟨s.kind, name⟩, e) ∈ entries ∧ e.isBlank = false ∧ ∀ t ∈ above, t.kind ≠ s.kind
  increasing : group.Pairwise Precedes

/-- What a section shows depends on the kinds done before it and on the sections above it. -/
theorem group_eq_of_groupsFrom {done : List MemberKind} {sections : List Section}
    {above below : List (Section × List (String × Entry))} {s : Section}
    {group : List (String × Entry)}
    (h : groupsFrom entries done sections = above ++ (s, group) :: below) :
    group =
      if s.kind ∈ done ∨ ∃ g ∈ above, g.1.kind = s.kind then [] else entriesOf entries s.kind := by
  -- for the sections below, a kind is done or it is the kind of a section passed on the way
  induction sections generalizing done above with
  | nil => simp [groupsFrom] at h
  | cons t rest ih =>
    rw [groupsFrom] at h
    cases above with
    | nil =>
      injection h with hhead
      cases hhead
      simp
    | cons g above =>
      injection h with hhead htail
      subst hhead
      rw [ih htail]
      simp only [List.mem_cons, exists_eq_or_imp]
      grind

theorem isGroup_of_groupsFrom (hkeys : (OrderedMap.keys entries).Nodup) {sections : List Section}
    {above below : List (Section × List (String × Entry))} {s : Section}
    {group : List (String × Entry)}
    (h : groupsFrom entries [] sections = above ++ (s, group) :: below) :
    IsGroup entries (above.map Prod.fst) s group := by
  rw [group_eq_of_groupsFrom h]
  split
  · next hshown =>
    obtain ⟨g, hg, hkind⟩ := hshown.resolve_left List.not_mem_nil
    refine ⟨fun name e => iff_of_false List.not_mem_nil ?_, List.Pairwise.nil⟩
    rintro ⟨-, -, hfresh⟩
    exact hfresh g.1 (List.mem_map_of_mem hg) hkind
  · next hfresh =>
    refine ⟨fun name e => ?_, entriesOf_increasing hkeys⟩
    have hfresh' : ∀ t ∈ above.map Prod.fst, t.kind ≠ s.kind := by
      intro t ht hkind
      obtain ⟨g, hg, rfl⟩ := List.mem_map.mp ht
      exact hfresh (.inr ⟨g, hg, hkind⟩)
    rw [mem_entriesOf]
    exact ⟨fun hm => ⟨hm.1, hm.2, hfresh'⟩, fun hm => ⟨hm.1, hm.2.1⟩⟩

/-! ## Runs on the same entries -/

theorem unhandledKinds_eq_of_perm (h : entries'.Perm entries) (sections : List Section) :
    unhandledKinds sections entries' = unhandledKinds sections entries := by
  unfold unhandledKinds
  simp only [h.any_eq]

/-- The order in which the entries were made does not show on a page or in its error. -/
theorem assemble_eq_of_perm (hkeys : (OrderedMap.keys entries).Nodup) (h : entries'.Perm entries)
    (layout : Layout) : assemble layout entries' = assemble layout entries := by
  unfold assemble
  rw [unhandledKinds_eq_of_perm h, sectionTexts_eq, sectionTexts_eq, groupsFrom_eq_of_perm hkeys h]

end

/-! ## What a page shows -/

/-- The text without its line ends. -/
def inked (s : List Char) : List Char := s.filter (· != '\n')

@[simp] theorem inked_nil : inked [] = [] := rfl

@[simp] theorem inked_append (s t : List Char) : inked (s ++ t) = inked s ++ inked t :=
  List.filter_append ..

@[simp] theorem inked_newline_cons (s : List Char) : inked ('\n' :: s) = inked s := rfl

@[simp] theorem inked_squeezeFrom (seen : Nat) (s : List Char) :
    inked (squeezeFrom seen s) = inked s := by
  induction s generalizing seen with
  | nil => rfl
  | cons c s ih =>
    rw [squeezeFrom]
    split
    · next hc =>
      subst hc
      split
      · rw [inked_newline_cons, inked_newline_cons, ih]
      · rw [inked_newline_cons, ih]
    · rw [← List.singleton_append, ← List.singleton_append (l := s), inked_append, inked_append, ih]

@[simp] theorem inked_squeeze (s : List Char) : inked (squeeze s) = inked s := inked_squeezeFrom 0 s

@[simp] theorem inked_dropLineEnds (s : List Char) : inked (dropLineEnds s) = inked s := by
  have hback (t : List Char) : inked (t.dropWhile (· == '\n')) = inked t := by
    induction t with
    | nil => rfl
    | cons c t ih =>
      rw [List.dropWhile_cons]
      split
      · next hc => rw [ih, beq_iff_eq.mp hc, inked_newline_cons]
      · rfl
  rw [dropLineEnds, inked, List.filter_reverse, ← inked, hback, inked, List.filter_reverse,
    List.reverse_reverse, inked]

/-- Joining with line ends adds no ink. -/
theorem inked_intercalate (sep : List Char) (hsep : inked sep = []) (parts : List (List Char)) :
    inked (sep.intercalate parts) = inked parts.flatten := by
  cases parts with
  | nil => rfl
  | cons first rest =>
    rw [intercalate_cons, List.flatten_cons, inked_append, inked_append]
    congr 1
    induction rest with
    | nil => rfl
    | cons part rest ih =>
      rw [List.flatMap_cons, List.flatten_cons, inked_append, inked_append, inked_append, hsep, ih,
        List.nil_append]

/-- What a section shows: its own heading if it has entries, then the entries in order. -/
def Section.shown (s : Section) : List (String × Entry) → List Char
  | [] => []
  | group@(_ :: _) =>
    (match s.title with
      | some title => "## ".toList ++ title.toList
      | none => []) ++ group.flatMap (entryText s.heading)

/-- The comment of a page, if it is not blank. -/
def Layout.comment? (layout : Layout) : Option String :=
  layout.comment.filter fun c => !isBlankText c.toList

/-- A page with these groups of entries. It is empty if it has nothing to show; otherwise it shows, up to
line ends, the title, the summary, the comment and the sections with their entries. -/
def Layout.Shows (layout : Layout) (groups : List (Section × List (String × Entry))) (page : String) :
    Prop :=
  page = "" ∧ layout.comment? = none ∧ (∀ g ∈ groups, g.2 = []) ∨
  inked page.toList = inked ("# ".toList ++ layout.title.toList ++ (layout.summary.getD "").toList ++
    (layout.comment?.getD "").toList ++ groups.flatMap fun g => g.1.shown g.2)

/-- The entries of a section, one after the other with an empty line between. -/
def Section.body (s : Section) (group : List (String × Entry)) : List Char :=
  ['\n', '\n'].intercalate (group.map (entryText s.heading))

theorem Section.body_cons_ne_nil (s : Section) (e : String × Entry) (group : List (String × Entry)) :
    s.body (e :: group) ≠ [] := by
  rw [Section.body, List.map_cons, intercalate_cons, entryText]
  simp

theorem inked_body (s : Section) (group : List (String × Entry)) :
    inked (s.body group) = inked (group.flatMap (entryText s.heading)) := by
  rw [Section.body, inked_intercalate _ rfl, List.flatMap_def]

theorem sectionText_cons (s : Section) (e : String × Entry) (group : List (String × Entry)) :
    sectionText s (e :: group) = match s.title with
      | some title => "\n## ".toList ++ title.toList ++ '\n' :: s.body (e :: group) ++ ['\n']
      | none => s.body (e :: group) := by
  rw [sectionText, ← Section.body]
  obtain ⟨c, body, hbody⟩ := List.exists_cons_of_ne_nil (s.body_cons_ne_nil e group)
  rw [hbody]
  cases s.title <;> rfl

/-- A section without entries has no text, and only such a section. -/
theorem sectionText_eq_nil_iff {s : Section} {group : List (String × Entry)} :
    sectionText s group = [] ↔ group = [] := by
  cases group with
  | nil => exact iff_of_true (by rw [sectionText]; rfl) rfl
  | cons e group =>
    have hbody := s.body_cons_ne_nil e group
    rw [sectionText_cons]
    cases s.title <;> simp [hbody]

theorem inked_sectionText (s : Section) (group : List (String × Entry)) :
    inked (sectionText s group) = inked (s.shown group) := by
  cases group with
  | nil => rw [sectionText_eq_nil_iff.mpr rfl, Section.shown]
  | cons e group =>
    rw [sectionText_cons, Section.shown]
    have hmark : "\n## ".toList = '\n' :: "## ".toList := rfl
    cases s.title with
    | none => exact inked_body s (e :: group)
    | some title =>
      simp only [hmark, List.cons_append, inked_append, inked_newline_cons, inked_nil,
        List.append_nil, inked_body]

theorem inked_sectionTexts (groups : List (Section × List (String × Entry))) :
    inked (groups.map fun g => sectionText g.1 g.2).flatten =
      inked (groups.flatMap fun g => g.1.shown g.2) := by
  induction groups with
  | nil => rfl
  | cons g groups ih =>
    rw [List.map_cons, List.flatten_cons, List.flatMap_cons, inked_append, inked_append,
      inked_sectionText, ih]

theorem Layout.comment?_eq_bind (layout : Layout) : layout.comment? =
    layout.comment.bind fun c => if isBlankText c.toList then none else some c := by
  rw [Layout.comment?]
  cases layout.comment with
  | none => rfl
  | some c => cases hc : isBlankText c.toList <;> simp [Option.filter, hc]

theorem assemble_shows {layout : Layout} {entries : Entries} {page : String}
    (h : assemble layout entries = .ok page) :
    layout.Shows (groupsFrom entries [] layout.sections) page := by
  unfold assemble at h
  rw [← Layout.comment?_eq_bind, sectionTexts_eq] at h
  split at h
  · cases h
  · dsimp only at h
    split at h
    · next hempty =>
      injection h with hpage
      simp only [Bool.and_eq_true, Option.isNone_iff_eq_none, List.all_eq_true, List.mem_map,
        List.isEmpty_iff, forall_exists_index, and_imp] at hempty
      exact .inl ⟨hpage.symm, hempty.1, fun g hg =>
        sectionText_eq_nil_iff.mp (hempty.2 _ g hg rfl)⟩
    · injection h with hpage
      subst hpage
      refine .inr ?_
      -- line ends between, behind and instead of empty parts have no ink
      simp only [String.toList_ofList, inked_append, inked_dropLineEnds, inked_squeeze,
        inked_intercalate ['\n'] rfl, List.flatten_filter_not_isEmpty, List.flatten_cons,
        inked_newline_cons, inked_nil, List.append_nil, inked_sectionTexts, List.append_assoc]
      cases layout.comment? with
      | none => rfl
      | some c =>
        rw [inked_append, inked_newline_cons, inked_nil, List.append_nil, Option.getD_some]

/-- A page is made if each kind of entries with content has a section. -/
theorem assemble_ok_of_handled {layout : Layout} {entries : Entries}
    (h : unhandledKinds layout.sections entries = []) :
    ∃ page, assemble layout entries = .ok page := by
  rw [assemble, h]
  dsimp only
  split
  · exact ⟨_, rfl⟩
  · exact ⟨_, rfl⟩

/-- The order in which the entries of a page were made shows neither in its text nor in its error. A page
shows the sections in their order, and each section its entries in the strict order of file, line and
name, those without a place after the others by name. -/
theorem assemble_ordered (layout : Layout) (entries : Entries)
    (hkeys : (OrderedMap.keys entries).Nodup) :
    (∀ entries' : Entries, entries'.Perm entries → assemble layout entries' = assemble layout entries) ∧
    (∀ a b, entryOrder a b = .lt ↔ Precedes a b) ∧
    ∀ page, assemble layout entries = .ok page →
      ∃ groups : List (Section × List (String × Entry)),
        groups.map Prod.fst = layout.sections ∧
        (∀ above s group below, groups = above ++ (s, group) :: below →
          IsGroup entries (above.map Prod.fst) s group) ∧
        layout.Shows groups page := by
  refine ⟨fun entries' h => assemble_eq_of_perm hkeys h layout, fun a b => entryOrder_eq_lt_iff,
    fun page hpage => ⟨groupsFrom entries [] layout.sections, ?_, ?_, ?_⟩⟩
  · exact groupsFrom_sections [] layout.sections
  · intro above s group below hgroups
    exact isGroup_of_groupsFrom hkeys hgroups
  · exact assemble_shows hpage

/-! ## Entries with and without a place -/

/-- Members of two files on one line, without a line and blank, two members of one name, and a
constant. -/
def mixedEntries : Entries :=
  [("zeta", .onInstance, "z", none, none), ("alpha", .onInstance, "a", some "lib/t.rb", none),
    ("mid", .onInstance, "m", some "lib/t.rb", some 3), ("end", .onInstance, "e", none, some 3),
    ("beta", .onInstance, "b", some "lib/t.rb", some 3), ("void", .onInstance, " \n", none, some 1),
    ("zeta", .onClass, "zz", none, some 7), ("LIMIT", .constant, "10", none, none)].map
    fun (name, kind, text, file, line) =>
      (⟨kind, name⟩, ⟨text, (Reference.member "Test" name kind .native).placed file line⟩)

theorem assemble_ordered_mixed :
    (OrderedMap.keys mixedEntries).Nodup ∧
    assemble { title := "Test" } mixedEntries.reverse = assemble { title := "Test" } mixedEntries ∧
    ∃ page groups, assemble { title := "Test" } mixedEntries = .ok page ∧
      groups.map Prod.fst = Section.standard ∧
      (∀ above s group below, groups = above ++ (s, group) :: below →
        IsGroup mixedEntries (above.map Prod.fst) s group) ∧
      Layout.Shows { title := "Test" } groups page := by
  have hkeys : (OrderedMap.keys mixedEntries).Nodup := by decide
  obtain ⟨hperm, -, hshown⟩ := assemble_ordered { title := "Test" } mixedEntries hkeys
  obtain ⟨page, hpage⟩ : ∃ page, assemble { title := "Test" } mixedEntries = .ok page :=
    assemble_ok_of_handled (by decide)
  obtain ⟨groups, hgroups⟩ := hshown page hpage
  exact ⟨hkeys, hperm _ (List.reverse_perm _), page, groups, hpage, hgroups⟩

end DocWeave.Page
