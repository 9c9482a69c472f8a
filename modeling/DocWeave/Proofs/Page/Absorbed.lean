import DocWeave.Proofs.Expr.RoundTrip
import DocWeave.Proofs.Page.Outcomes
import DocWeave.Proofs.Reference.Grammar
import DocWeave.Proofs.Registry.Population

/-!
# What a page absorbs

A page leaves out a member whose source is missing, and absorbs no other failure. The failure of a doc
block reaches the page as it is, however it came about: it carries the places of the blocks that were
open, and a missing source inside a block is no missing source of the page's own member. What is left on
a page are the members whose doc blocks say something (`page_absorbs`). Entries are kept by kind and name
of their references, so this holds as it stands only where no two references agree in both.
-/

namespace DocWeave

open DocWeave.Text

/-! ## Failures inside failures -/

/-- A failure as it is told: a cause, or another failure inside doc blocks. -/
inductive Failure where
  | cause (fault : Fault)
  | inBlocks (trace : List String) (source : Failure)

/-- The failure seen from an enclosing doc block, which is put in front of the blocks that are known. -/
def Failure.withFrame (frame : String) : Failure → Failure
  | .inBlocks trace source => .inBlocks (frame :: trace) source
  | .cause fault => .inBlocks [frame] (.cause fault)

/-- An error as a failure. -/
def Error.failure (e : Error) : Failure :=
  match e.trace with
  | [] => .cause e.fault
  | frame :: trace => .inBlocks (frame :: trace) (.cause e.fault)

/-- Doc blocks are put around an error one by one. -/
theorem Error.failure_withFrame (frame : String) (e : Error) :
    (e.withFrame frame).failure = e.failure.withFrame frame := by
  obtain ⟨fault, trace⟩ := e
  cases trace <;> rfl

/-- However many doc blocks there are, the failure is its cause with each of them put around it, the
innermost first. -/
theorem Error.failure_eq_foldr (e : Error) :
    e.failure = e.trace.foldr Failure.withFrame (.cause e.fault) := by
  obtain ⟨fault, trace⟩ := e
  induction trace with
  | nil => rfl
  | cons frame trace ih =>
    rw [List.foldr_cons, ← ih]
    exact Error.failure_withFrame frame ⟨fault, trace⟩

theorem Error.failure_of_isTraced {e : Error} (h : e.isTraced = true) :
    e.failure = .inBlocks e.trace (.cause e.fault) := by
  obtain ⟨fault, trace⟩ := e
  cases trace with
  | nil => cases h
  | cons frame trace => rfl

namespace Page.Maker

open Locator

variable {p : Maker} {σ : Session} {s : Subject} {r : Reference} {rs : List Reference} {key : EntryKey}

/-! ## The keys of a page -/

/-- The member is located, has a doc block, and this says something. -/
def Says (p : Maker) (σ : Session) (r : Reference) : Prop :=
  ∃ text, p.Expands σ r (.ok text) ∧ isBlankText text.toList = false

theorem entryOf?_some (h : p.Standard) {e : Entry} (he : p.entryOf? σ r = some e) :
    p.Expands σ r (.ok e.text) := by
  have hattempt := attempt h σ r
  unfold entryOf? at he
  cases ho : outcome σ (p.entryIfFound r) with
  | error e =>
    rw [ho] at he
    cases he
  | ok o =>
    rw [ho] at he hattempt
    obtain rfl : o = some e := he
    cases hattempt with
    | documented text reference htext => exact htext

theorem entryOf?_none_iff (h : p.Standard) :
    p.entryOf? σ r = none ↔ ∀ text, ¬ p.Expands σ r (.ok text) := by
  constructor
  · intro hnone text htext
    obtain ⟨reference, hfound⟩ := htext.found h
    rw [entryOf?, hfound] at hnone
    cases hnone
  · intro hnot
    cases he : p.entryOf? σ r with
    | none => rfl
    | some e => exact absurd (entryOf?_some h he) (hnot e.text)

theorem exists_entryOf?_iff (h : p.Standard) :
    (∃ e, p.entryOf? σ r = some e ∧ e.isBlank = false) ↔ p.Says σ r := by
  constructor
  · rintro ⟨e, he, hblank⟩
    exact ⟨e.text, entryOf?_some h he, hblank⟩
  · rintro ⟨text, htext, hblank⟩
    obtain ⟨reference, hfound⟩ := htext.found h
    exact ⟨{ text, reference }, by rw [entryOf?, hfound], hblank⟩

/-- The entry that is kept at a key: the last one that was made. -/
theorem get?_foldl_put (rs : List Reference) (entries : Entries) (key : EntryKey) :
    (rs.foldl (p.put σ) entries).get? key =
      (rs.reverse.findSome? fun r => if EntryKey.of r = key then p.entryOf? σ r else none).or
        (entries.get? key) := by
  induction rs generalizing entries with
  | nil => rfl
  | cons r rest ih =>
    have hput : (p.put σ entries r).get? key =
        (if EntryKey.of r = key then p.entryOf? σ r else none).or (entries.get? key) := by
      unfold put
      cases p.entryOf? σ r with
      | none => simp
      | some e =>
        rw [OrderedMap.get?_insert]
        by_cases hkey : EntryKey.of r = key
        · simp [hkey]
        · simp [hkey, Ne.symm hkey]
    rw [List.foldl_cons, ih, hput, List.reverse_cons, List.findSome?_append, Option.or_assoc]
    simp

theorem nodup_foldl_put (rs : List Reference) : (rs.foldl (p.put σ) []).keys.Nodup := by
  refine List.foldlRecOn (motive := fun entries : Entries => entries.keys.Nodup) rs _ .nil ?_
  intro entries hentries r _
  unfold put
  split
  · exact OrderedMap.nodup_keys_insert hentries _ _
  · exact hentries

/-- The entries that are shown are those that say something. -/
theorem mem_keys_shown {members : Entries} (hmembers : members.keys.Nodup) :
    key ∈ (p.shown members).keys ↔ ∃ e, members.get? key = some e ∧ e.isBlank = false := by
  have hkeys : (p.shown members).keys =
      OrderedMap.keys (members.filter fun entry => !entry.2.isBlank) := by
    unfold shown
    dsimp only
    split
    · simp [OrderedMap.keys, List.map_map, Function.comp_def]
    · rfl
  rw [hkeys, OrderedMap.keys, List.mem_map]
  constructor
  · rintro ⟨⟨_, e⟩, hmem, rfl⟩
    obtain ⟨hmem, hblank⟩ := List.mem_filter.mp hmem
    exact ⟨e, OrderedMap.get?_of_mem hmembers hmem, by simpa using hblank⟩
  · rintro ⟨e, hget, hblank⟩
    exact ⟨(key, e), List.mem_filter.mpr ⟨OrderedMap.mem_of_get? hget, by simpa using hblank⟩, rfl⟩

/-- Constants have keys of their own kind. -/
theorem mem_keys_putConstants (hkey : key.kind ≠ .constant) (constants : List (Subject × Constant))
    (entries : Entries) :
    key ∈ (constants.foldl (p.putConstant σ s) entries).keys ↔ key ∈ entries.keys := by
  induction constants generalizing entries with
  | nil => rfl
  | cons owned rest ih =>
    have hne : key ≠ EntryKey.of (constantReference s owned) := by
      rintro rfl
      exact hkey rfl
    rw [List.foldl_cons, ih, putConstant, OrderedMap.keys_insert]
    split
    · rfl
    · rw [List.mem_append, List.mem_singleton, or_iff_left hne]

/-- The last of the references with a key whose doc block is expanded says something. -/
def LastSays (p : Maker) (σ : Session) (rs : List Reference) (key : EntryKey) : Prop :=
  ∃ front r back, rs = front ++ r :: back ∧ EntryKey.of r = key ∧ p.Says σ r ∧
    ∀ q ∈ back, EntryKey.of q = key → ∀ text, ¬ p.Expands σ q (.ok text)

theorem mem_keys_allEntries (h : p.Standard) (hkey : key.kind ≠ .constant) :
    key ∈ (p.allEntries σ s rs).keys ↔ p.LastSays σ rs key := by
  rw [allEntries, mem_keys_putConstants hkey, mem_keys_shown (nodup_foldl_put rs)]
  simp only [get?_foldl_put, OrderedMap.get?, Option.or_none, List.findSome?_eq_some_iff]
  constructor
  · rintro ⟨e, ⟨later, r, earlier, hsplit, hr, hlater⟩, hblank⟩
    have hkeyed : EntryKey.of r = key := by
      by_contra hne
      simp [hne] at hr
    rw [if_pos hkeyed] at hr
    refine ⟨earlier.reverse, r, later.reverse, ?_, hkeyed,
      (exists_entryOf?_iff h).mp ⟨e, hr, hblank⟩, fun q hq hqkey => ?_⟩
    · simpa using congrArg List.reverse hsplit
    · have hnone := hlater q (List.mem_reverse.mp hq)
      rw [if_pos hqkey] at hnone
      exact (entryOf?_none_iff h).mp hnone
  · rintro ⟨front, r, back, rfl, hkeyed, hsays, hlater⟩
    obtain ⟨e, he, hblank⟩ := (exists_entryOf?_iff h).mpr hsays
    refine ⟨e, ⟨back.reverse, r, front.reverse, by simp, by rw [if_pos hkeyed, he], fun q hq => ?_⟩,
      hblank⟩
    split
    · next hqkey => exact (entryOf?_none_iff h).mpr (hlater q (List.mem_reverse.mp hq) hqkey)
    · rfl

/-- Where no two references have the same key, each of them is the last of its key. -/
theorem lastSays_iff (hrs : (rs.map EntryKey.of).Nodup) :
    p.LastSays σ rs key ↔ ∃ r ∈ rs, EntryKey.of r = key ∧ p.Says σ r := by
  constructor
  · rintro ⟨front, r, back, rfl, hkey, hsays, _⟩
    exact ⟨r, List.mem_append_right _ List.mem_cons_self, hkey, hsays⟩
  · rintro ⟨r, hr, hkey, hsays⟩
    obtain ⟨front, back, rfl⟩ := List.append_of_mem hr
    refine ⟨front, r, back, rfl, hkey, hsays, fun q hq hqkey => ?_⟩
    rw [List.map_append, List.map_cons, List.nodup_append] at hrs
    have hnot := (List.nodup_cons.mp hrs.2.1).1
    exact absurd (List.mem_map.mpr ⟨q, hq, hqkey.trans hkey.symm⟩) hnot

/-! ## The references of a page -/

/-- The reference by which a page names an entry of its population. -/
def memberReference (s : Subject) (i : Registry.Inhabitant) : Reference :=
  .member s.name i.member.name i.member.kind i.visibility

/-- The mark of its kind does not stand in the name of a member. -/
def Unmarked (m : Member) : Prop := ∀ mark, Reference.markOf? m.kind = some mark → mark ∉ m.name.toList

theorem outcome_references (h : p.options.methods = []) (σ : Session) (s : Subject) :
    outcome σ (p.references s) =
      .ok ((p.workspace.registry.population s.name).map (memberReference s)) := by
  unfold references
  rw [h, List.isEmpty_nil, if_pos rfl]
  rfl

theorem key_memberReference {i : Registry.Inhabitant} (hkind : i.member.kind ≠ .constant)
    (h : Unmarked i.member) (s : Subject) :
    EntryKey.of (memberReference s i) = ⟨i.member.kind, i.member.name⟩ := by
  obtain ⟨mark, hmark⟩ : ∃ mark, Reference.markOf? i.member.kind = some mark := by
    cases hcase : i.member.kind with
    | onInstance => exact ⟨_, rfl⟩
    | onClass => exact ⟨_, rfl⟩
    | constant => exact absurd hcase hkind
  have hname := Reference.name_member (Reference.separator_of_mark hmark).1 (h mark hmark) s.name
    i.visibility
  exact congrArg (EntryKey.mk i.member.kind) hname

/-- The references of a population have keys of their own, since kind and name are listed once. -/
theorem nodup_population_keys {registry : Registry}
    (h : ∀ i ∈ registry.population s.name, Unmarked i.member) :
    (((registry.population s.name).map (memberReference s)).map EntryKey.of).Nodup := by
  cases hlineage : registry.lineage s.name with
  | nil =>
    have hnone : registry.population s.name = [] := by
      unfold Registry.population
      rw [hlineage]
    rw [hnone]
    exact List.nodup_nil
  | cons subject ancestors =>
    have hkeys : ((registry.population s.name).map (memberReference s)).map EntryKey.of =
        ((registry.population s.name).map fun i => (i.member.kind, i.member.name)).map
          fun key => ⟨key.1, key.2⟩ := by
      rw [List.map_map, List.map_map]
      exact List.map_congr_left fun i hi =>
        key_memberReference ((Registry.mem_population_iff hlineage).mp hi).1 (h i hi) s
    rw [hkeys]
    refine (Registry.nodup_population hlineage).map ?_
    rintro ⟨kind, name⟩ ⟨kind', name'⟩ heq
    cases heq
    rfl

/-- A choice fails only where the test of an item does. -/
theorem exists_of_filterM_error {ε α : Type} {root : String} {f : α → SessionT ε Bool}
    (hf : ∀ a, Settled root (f a)) {items : List α} {e : ε}
    (h : outcome σ (items.filterM f) = .error e) : ∃ a ∈ items, outcome σ (f a) = .error e := by
  have hrest (items kept : List α) : Settled root (items.filterAuxM f kept) :=
    (Settled.isPageProperty root).filterAuxM (F := anyFailure) hf items kept
  have hloop : ∀ (items kept : List α), outcome σ (items.filterAuxM f kept) = .error e →
      ∃ a ∈ items, outcome σ (f a) = .error e := by
    intro items
    induction items with
    | nil => nofun
    | cons a rest ih =>
      intro kept hfails
      rw [List.filterAuxM, outcome_bind (hf a) fun b => hrest rest _] at hfails
      cases ha : outcome σ (f a) with
      | error e' =>
        rw [ha] at hfails
        cases hfails
        exact ⟨a, List.mem_cons_self, ha⟩
      | ok b =>
        rw [ha] at hfails
        obtain ⟨a', ha', he⟩ := ih _ hfails
        exact ⟨a', List.mem_cons_of_mem _ ha', he⟩
  refine hloop items [] ?_
  rw [List.filterM, outcome_bind (hrest items []) fun kept => .pure _] at h
  cases hkept : outcome σ (items.filterAuxM f []) with
  | error e' =>
    rw [hkept] at h
    exact h
  | ok kept =>
    rw [hkept] at h
    cases h

/-- The references of a page are not known only where the owner of one is not. -/
theorem ownerOf_of_references_error {e : Error} (h : outcome σ (p.references s) = .error e) :
    ∃ r ∈ p.options.methods, p.workspace.registry.ownerOf r = .error e := by
  have hP := Settled.isPageProperty p.workspace.root
  unfold references at h
  split at h
  · cases h
  · obtain ⟨r, hr, hfails⟩ := exists_of_filterM_error
      (fun r => Settled.bind (hP.ownerOf (w := p.workspace) r) fun _ => .pure _) h
    refine ⟨r, hr, ?_⟩
    have howner : outcome σ (p.workspace.ownerOf r) = p.workspace.registry.ownerOf r := rfl
    rw [outcome_bind (hP.ownerOf r) fun _ => .pure _, howner] at hfails
    cases hsame : p.workspace.registry.ownerOf r with
    | error e' =>
      rw [hsame] at hfails
      cases hfails
      rfl
    | ok owner =>
      rw [hsame] at hfails
      cases hfails

/-! ## The failures of a page -/

/-- Making the page comes to a doc block that fails: one below the heading, after others that did not
fail, or after all of them the one above the declaration of the subject. -/
inductive Aborts (p : Maker) (σ : Session) (s : Subject) (rs : List Reference) (e : Error) : Prop
  | entry (front : List Reference) (r : Reference) (back : List Reference) :
      p.blockReferences s rs = front ++ r :: back →
      (∀ q ∈ front, p.failure? σ q = none) → p.Expands σ r (.error e) → Aborts p σ s rs e
  | comment : (∀ q ∈ p.blockReferences s rs, p.failure? σ q = none) →
      p.SubjectExpands σ s (.error e) → Aborts p σ s rs e

theorem failure?_of_expands (h : p.Standard) {e : Error} (hfails : p.Expands σ r (.error e)) :
    p.failure? σ r = some e := by
  rw [failure?, (hfails.fails h).1]

/-- A member whose attempt fails has an unknown owner, or a doc block that fails to expand. -/
theorem failure?_eq_some (h : p.Standard) {e : Error} (hfails : p.failure? σ r = some e) :
    p.workspace.registry.ownerOf r = .error e ∨ p.Expands σ r (.error e) := by
  have hattempt := attempt h σ r
  unfold failure? at hfails
  cases ho : outcome σ (p.entryIfFound r) with
  | ok o =>
    rw [ho] at hfails
    cases hfails
  | error e' =>
    rw [ho] at hfails hattempt
    cases hfails
    cases hattempt with
    | unknown _ howner => exact .inl howner
    | failed _ hexpands _ => exact .inr hexpands

/-- A page fails with the doc block that making it comes to. -/
theorem Aborts.outcome_page (h : p.Standard) (hrs : outcome σ (p.references s) = .ok rs) {e : Error}
    (haborts : p.Aborts σ s rs e) : outcome σ (p.page s) = .error e ∧ e.isTraced = true := by
  obtain ⟨finish, -, hpage⟩ := Maker.outcome_page h hrs
  cases haborts with
  | entry front r back hsplit hfront hfails =>
    have hfirst : (p.blockReferences s rs).findSome? (p.failure? σ) = some e :=
      List.findSome?_eq_some_iff.mpr ⟨front, r, back, hsplit, failure?_of_expands h hfails, hfront⟩
    rw [hpage, hfirst]
    exact ⟨rfl, (hfails.fails h).2⟩
  | comment hnone hfails =>
    have hfirst : (p.blockReferences s rs).findSome? (p.failure? σ) = none :=
      List.findSome?_eq_none_iff.mpr hnone
    rw [hpage, hfirst, (outcome_subjectComment_error h).mpr hfails]
    obtain ⟨site, -, -, htext⟩ := hfails
    exact ⟨rfl, isTraced_render htext⟩

/-- How making the page of `s` ends: with a reference to a subject that is not registered, with a doc
block that fails, or with all entries. -/
inductive Ends (p : Maker) (σ : Session) (s : Subject) : Except Error Page → Prop
  | unknown (name context : String) : Ends p σ s (.error (.of (.unknownSubject name context)))
  | aborted {rs : List Reference} {e : Error} : outcome σ (p.references s) = .ok rs →
      p.Aborts σ s rs e → Ends p σ s (.error e)
  | made {rs : List Reference} {page : Page} : outcome σ (p.references s) = .ok rs →
      page.entries = p.allEntries σ s rs → Ends p σ s (.ok page)

/-- The owner of a reference that is not known is named in the failure. -/
theorem Ends.of_ownerOf {e : Error} (h : p.workspace.registry.ownerOf r = .error e) :
    p.Ends σ s (.error e) := by
  obtain ⟨name, context, rfl⟩ := Registry.ownerOf_error h
  exact .unknown name context

theorem page_ends (h : p.Standard) (s : Subject) (σ : Session) :
    p.Ends σ s (outcome σ (p.page s)) := by
  cases hrs : outcome σ (p.references s) with
  | error e =>
    have hfails : outcome σ (p.page s) = .error e := outcome_bind_error (outcome_bind_error hrs _) _
    obtain ⟨r, -, howner⟩ := ownerOf_of_references_error hrs
    rw [hfails]
    exact .of_ownerOf howner
  | ok rs =>
    obtain ⟨finish, hentries, hpage⟩ := outcome_page h hrs
    rw [hpage]
    cases hfirst : (p.blockReferences s rs).findSome? (p.failure? σ) with
    | some e =>
      obtain ⟨front, r, back, hsplit, hr, hfront⟩ := List.findSome?_eq_some_iff.mp hfirst
      rcases failure?_eq_some h hr with howner | hfails
      · exact .of_ownerOf howner
      · exact .aborted hrs (.entry front r back hsplit hfront hfails)
    | none =>
      dsimp only
      cases hcomment : outcome σ (p.subjectComment s) with
      | error e =>
        have hfails := (outcome_subjectComment_error h).mp hcomment
        exact .aborted hrs (.comment (List.findSome?_eq_none_iff.mp hfirst) hfails)
      | ok comment => exact .made hrs (hentries comment)

/-- A page fails for no other reasons: the owner of a reference is not known, or a doc block fails. -/
theorem page_fails (h : p.Standard) {e : Error} (hpage : outcome σ (p.page s) = .error e) :
    (∃ name context, e = .of (.unknownSubject name context)) ∨
      ∃ rs, outcome σ (p.references s) = .ok rs ∧ p.Aborts σ s rs e := by
  have hends := page_ends h s σ
  rw [hpage] at hends
  cases hends with
  | unknown name context => exact .inl ⟨name, context, rfl⟩
  | aborted hrs haborts => exact .inr ⟨_, hrs, haborts⟩

/-- A page that is made has all entries. -/
theorem entries_of_page (h : p.Standard) {page : Page} (hpage : outcome σ (p.page s) = .ok page) :
    ∃ rs, outcome σ (p.references s) = .ok rs ∧ page.entries = p.allEntries σ s rs := by
  have hends := page_ends h s σ
  rw [hpage] at hends
  cases hends with
  | made hrs hentries => exact ⟨_, hrs, hentries⟩

/-- A page absorbs the missing source of a member of its own and nothing else.

No failure of a page is recoverable. A page that is made has, apart from constants, exactly the keys of
its references of which the last one that is expanded says something; where no two references have the
same key, these are the keys of all references that say something. The references of a population have
the same key only if the mark of its kind stands in the name of a member. The first doc block that fails
to expand, of a member, of a constant or of the subject itself, ends the page with its failure, whatever
the cause: a cause that is no failure inside doc blocks, with the open blocks put around it one by one.
All that else ends a page is a reference to a subject that is not registered. -/
theorem page_absorbs (h : p.Standard) (s : Subject) (σ : Session) :
    (∀ e, outcome σ (p.page s) = .error e → e.isRecoverable = false) ∧
    (∀ page, outcome σ (p.page s) = .ok page → ∃ rs, outcome σ (p.references s) = .ok rs ∧
      ∀ key : EntryKey, key.kind ≠ .constant →
        (key ∈ page.entries.keys ↔ p.LastSays σ rs key) ∧
        ((rs.map EntryKey.of).Nodup →
          (key ∈ page.entries.keys ↔ ∃ r ∈ rs, EntryKey.of r = key ∧ p.Says σ r))) ∧
    (∀ rs, p.options.methods = [] → outcome σ (p.references s) = .ok rs →
      (∀ i ∈ p.workspace.registry.population s.name, Unmarked i.member) →
        (rs.map EntryKey.of).Nodup) ∧
    (∀ rs e, outcome σ (p.references s) = .ok rs → p.Aborts σ s rs e →
      outcome σ (p.page s) = .error e ∧ e.isRecoverable = false ∧ e.trace ≠ [] ∧
        e.failure = .inBlocks e.trace (.cause e.fault) ∧
        e.failure = e.trace.foldr Failure.withFrame (.cause e.fault)) ∧
    ∀ e, outcome σ (p.page s) = .error e → (∃ name context, e = .of (.unknownSubject name context)) ∨
      ∃ rs, outcome σ (p.references s) = .ok rs ∧ p.Aborts σ s rs e := by
  refine ⟨fun e he => ?_, fun page hpage => ?_, fun rs hall hrs hunmarked => ?_,
    fun rs e hrs haborts => ?_, fun e he => page_fails h he⟩
  · rcases page_fails h he with ⟨name, context, rfl⟩ | ⟨rs, hrs, haborts⟩
    · rfl
    · exact isRecoverable_of_isTraced (haborts.outcome_page h hrs).2
  · obtain ⟨rs, hrs, hentries⟩ := entries_of_page h hpage
    refine ⟨rs, hrs, fun key hkey => ?_⟩
    have hkeys : key ∈ page.entries.keys ↔ p.LastSays σ rs key := by
      rw [hentries]
      exact mem_keys_allEntries h hkey
    exact ⟨hkeys, fun hdistinct => hkeys.trans (lastSays_iff hdistinct)⟩
  · rw [outcome_references hall] at hrs
    cases hrs
    exact nodup_population_keys hunmarked
  · obtain ⟨hpage, htraced⟩ := haborts.outcome_page h hrs
    refine ⟨hpage, isRecoverable_of_isTraced htraced, ?_, Error.failure_of_isTraced htraced,
      Error.failure_eq_foldr e⟩
    intro hnil
    rw [Error.isTraced, hnil] at htraced
    cases htraced

/-! ## A missing source on the page and inside a doc block -/

/-- A maker of pages of some subjects. -/
def plain (subjects : List Subject) : Maker where
  workspace := { registry := ⟨subjects⟩, root := ".", links := .local "docs", tokens := {} }
  catalogue := Directive.standard

/-- The doc block of a member whose owner inherits nothing is the one at its definition. -/
theorem expands_definition (owner : Subject) (site : Site) {o : Except Error String}
    (howner : p.workspace.registry.ownerOf r = .ok owner) (hline : r.line = none)
    (hlineage : p.workspace.registry.lineage owner.name = [owner])
    (hdef : (outcome σ (findDefinition p.workspace.root r.name r.kind [owner])).toOption =
      some (some site)) (hcomment : site.hasComment = true)
    (hblock : (site.docBlock p.workspace.tokens).isEmpty = false)
    (ho : outcome σ (p.expansion r owner site) = o) : p.Expands σ r o := by
  refine ⟨owner, site, howner, ?_, hblock, ho⟩
  rw [← hlineage] at hdef
  rw [Workspace.outcome_locate, howner]
  dsimp only [Except.bind]
  rw [outcome_locate_definition hline (Stateful.eq_ok_of_toOption hdef) (.inl hcomment)]
  rfl

theorem ownerOf_of_get? {registry : Registry} {owner : Subject} (hname : r.owner? = some owner.name)
    (hget : registry.get? owner.name = some owner) : registry.ownerOf r = .ok owner := by
  rw [Registry.ownerOf, hname]
  dsimp only
  rw [Registry.resolve, Registry.resolve?, hget]

theorem Expands.failure?_eq_none (h : p.Standard) {text : String} (htext : p.Expands σ r (.ok text)) :
    p.failure? σ r = none := by
  obtain ⟨reference, hfound⟩ := htext.found h
  rw [failure?, hfound]

/-- A template whose first tag fails, fails with it. -/
theorem outcome_render_error {origin : Template.Origin} {env : Env RunM} {template code : String}
    {line : Nat} {rest : List Template.Segment} {expr : Expr} {e : Error}
    (hscan : Template.scan (Template.fillPlaceholder template origin.reference) =
      .ok (.output code line :: rest))
    (hparse : Expr.parse code = .ok expr) (he : outcome σ (expr.eval env []) = .error e) :
    outcome σ (Template.render origin env template) = .error (e.withFrame (origin.frame line)) := by
  have houtput : outcome σ (Template.output env [] code) = .error e := by
    rw [Template.output, hparse]
    exact he
  have hframed : outcome σ (Template.framed (origin.frame line) (Template.output env [] code)) =
      .error (e.withFrame (origin.frame line)) :=
    congrArg (Except.mapError (Error.withFrame (origin.frame line))) houtput
  rw [Template.render, hscan]
  exact outcome_bind_error hframed _

/-- A session in which one source has been read. -/
def lossSession : Session :=
  { files := {}
    cache := { lines := [("c.rb", ["# =mark_doc", "# Hello.", "# =mark_end", "def x", "end",
      "# =mark_doc", "# <%= print_raw_comment('#gone') %>", "# =mark_end", "def y", "end"].map
        String.toList)] } }

/-- A subject with a member that is not in its file and is asked for in the doc block of another one. -/
def losing : Subject :=
  { name := "C", file := some "c.rb", line := some 1
    members := [{ name := "x", kind := .onInstance, line := some 4 },
      { name := "gone", kind := .onInstance, line := some 99 },
      { name := "y", kind := .onInstance, line := some 9 }] }

abbrev loss : Maker := plain [losing]

/-- A member of the subject, as its page names it. -/
def memberOfLosing (name : String) : Reference := .member "C" name .onInstance .native

/-- The missing member, as the doc block names it. -/
def gone : Reference := { kind := .onInstance, raw := "#gone", origin := "C" }

def rawCommentOfGone : Expr := .call "print_raw_comment" [.positional (.lit (.str "#gone"))]

/-- The definition with the failing doc block. -/
def failingSite : Site where
  file := "c.rb"
  line := 9
  comment := "=mark_doc\n<%= print_raw_comment('#gone') %>\n=mark_end\n"
  commentLine := 6
  body := "def y\nend"

theorem lineage_losing : loss.workspace.registry.lineage losing.name = [losing] :=
  Registry.lineage_eq_singleton rfl rfl rfl

/-- The missing member is not found, in whatever way it is asked for. -/
theorem locate_gone (howner : loss.workspace.registry.ownerOf r = .ok losing)
    (hline : r.line = none) (hkind : r.kind = .onInstance) (hname : r.name = "gone") :
    outcome lossSession (loss.workspace.locate r) =
      .error (.of (.sourceNotFound r.raw (LocateFault.noLine "c.rb" 99).message)) := by
  have hdef : outcome lossSession (findDefinition loss.workspace.root "gone" .onInstance [losing]) =
      .error (.noLine "c.rb" 99) := by decide
  rw [Workspace.outcome_locate, howner]
  dsimp only [Except.bind]
  rw [outcome_locate hline, hkind, hname, lineage_losing, hdef]
  rfl

theorem parse_rawCommentOfGone : Expr.parse "print_raw_comment('#gone')" = .ok rawCommentOfGone := by
  have hprint : Expr.print ⟨false, false⟩ rawCommentOfGone = "print_raw_comment('#gone')" := by
    decide
  have hprintable : Expr.isPrintable rawCommentOfGone = true := by decide
  obtain ⟨ps, hlex, hwords⟩ := Expr.lex_print ⟨false, false⟩ hprintable
  rw [← hprint, Expr.parse, hlex]
  exact Expr.parseWhole_words hprintable (Expr.spells_of_map hwords)

theorem parse_gone : Reference.parse "#gone" "C" = .ok gone := by
  have hkind : Reference.kindOf? (trim "#gone".toList) false = some .onInstance := by decide
  have htrim : trim "#gone".toList = "#gone".toList := by decide
  rw [Reference.parse_of_kind "C" hkind, if_neg (by decide), Reference.reading, htrim]
  rfl

/-- The tag asks for the comment of the missing member. -/
theorem outcome_rawCommentOfGone (current : Option Reference) :
    outcome lossSession (rawCommentOfGone.eval
      ((loss.workspace.context loss.catalogue losing current).env loss.catalogue) []) =
        .error (.of (.sourceNotFound "#gone" (LocateFault.noLine "c.rb" 99).message)) := by
  let ctx := loss.workspace.context loss.catalogue losing current
  have hget : OrderedMap.get? loss.catalogue "print_raw_comment" = some Directive.rawComment := rfl
  have heval : rawCommentOfGone.eval (ctx.env loss.catalogue) [] =
      Directive.rawComment ctx { positional := [.str "#gone"] } := by
    simp only [rawCommentOfGone, Expr.eval, Expr.evalArgs, pure_bind, List.nil_append]
    show ctx.call loss.catalogue "print_raw_comment" _ = _
    rw [Context.call, hget]
    rfl
  have hreference : ctx.referenceIn { positional := [.str "#gone"] } "print_raw_comment" = pure gone := by
    show RunM.ofExcept (Reference.parse "#gone" "C") = _
    rw [parse_gone]
    rfl
  have howner : loss.workspace.registry.ownerOf gone = .ok losing := by
    have hname : gone.owner? = none := by decide
    rw [Registry.ownerOf, hname]
    rfl
  rw [heval, Directive.rawComment, hreference, pure_bind]
  exact outcome_bind_error (locate_gone howner rfl rfl (by decide)) _

theorem expands_x : loss.Expands lossSession (memberOfLosing "x") (.ok "Hello.\n") :=
  expands_definition losing ⟨"c.rb", 4, "=mark_doc\nHello.\n=mark_end\n", 1, "def x\nend"⟩
    (ownerOf_of_get? (by decide) rfl) rfl lineage_losing (by decide +kernel) (by decide)
    (by decide) (Stateful.eq_ok_of_toOption (by decide +kernel))

theorem expands_y : loss.Expands lossSession (memberOfLosing "y")
    (.error ⟨.sourceNotFound "#gone" (LocateFault.noLine "c.rb" 99).message, ["c.rb:7:in `y'"]⟩) := by
  refine expands_definition losing failingSite (ownerOf_of_get? (by decide) rfl) rfl
    lineage_losing (by decide +kernel) (by decide) (by decide) ?_
  have hblock : failingSite.docBlock loss.workspace.tokens =
      ⟨"<%= print_raw_comment('#gone') %>\n", 7⟩ := by decide
  let origin := blockOrigin failingSite ⟨"<%= print_raw_comment('#gone') %>\n", 7⟩ (memberOfLosing "y")
  have hscan : Template.scan (Template.fillPlaceholder "<%= print_raw_comment('#gone') %>\n"
      origin.reference) = .ok [.output "print_raw_comment('#gone')" 0, .text "\n"] :=
    Stateful.eq_ok_of_toOption (by decide +kernel)
  have hframe : origin.frame 0 = "c.rb:7:in `y'" := by decide
  rw [expansion, hblock, ← hframe]
  exact outcome_render_error hscan parse_rawCommentOfGone (outcome_rawCommentOfGone _)

/-- A member that is not in the file is left out, and ends the page when the doc block of another member
asks for it. -/
theorem page_absorbs_gone :
    ∃ reason : String,
      outcome lossSession (loss.workspace.locate (memberOfLosing "gone")) =
        .error (.of (.sourceNotFound "C#gone" reason)) ∧
      loss.failure? lossSession (memberOfLosing "gone") = none ∧
      ∃ e, outcome lossSession (loss.page losing) = .error e ∧ e.isRecoverable = false ∧
        e.failure = .inBlocks ["c.rb:7:in `y'"] (.cause (.sourceNotFound "#gone" reason)) := by
  have h : loss.Standard := rfl
  have howner : loss.workspace.registry.ownerOf (memberOfLosing "gone") = .ok losing :=
    ownerOf_of_get? (by decide) rfl
  have hgone := locate_gone howner rfl rfl (by decide)
  have hraw : (memberOfLosing "gone").raw = "C#gone" := by decide
  have habsorbed : loss.failure? lossSession (memberOfLosing "gone") = none := by
    rw [failure?, outcome_entryIfFound h, outcome_entry h, howner]
    simp only [bind, Except.bind, hgone]
    rfl
  have hrs : outcome lossSession (loss.references losing) =
      .ok (["x", "gone", "y"].map memberOfLosing) := by
    rw [outcome_references rfl, Registry.population_eq lineage_losing]
    rfl
  have hblocks : loss.blockReferences losing (["x", "gone", "y"].map memberOfLosing) =
      ["x", "gone"].map memberOfLosing ++ memberOfLosing "y" :: [] := by
    rw [blockReferences, Registry.constants, lineage_losing]
    rfl
  have hfront : ∀ q ∈ ["x", "gone"].map memberOfLosing, loss.failure? lossSession q = none := by
    simp only [List.map_cons, List.map_nil, List.forall_mem_cons]
    exact ⟨expands_x.failure?_eq_none h, habsorbed, List.forall_mem_nil _⟩
  obtain ⟨-, -, -, haborts, -⟩ := page_absorbs h losing lossSession
  obtain ⟨hpage, hfatal, -, hfailure, -⟩ := haborts _ _ hrs (.entry _ _ [] hblocks hfront expands_y)
  exact ⟨_, hraw ▸ hgone, habsorbed, _, hpage, hfatal, hfailure⟩

/-! ## Two members of one key -/

theorem Expands.unique {o o' : Except Error String} (h : p.Expands σ r o) (h' : p.Expands σ r o') :
    o = o' := by
  obtain ⟨owner, site, howner, hsite, -, ho⟩ := h
  obtain ⟨owner', site', howner', hsite', -, ho'⟩ := h'
  obtain rfl : owner = owner' := Except.ok.inj (howner.symm.trans howner')
  obtain rfl : site = site' := Except.ok.inj (hsite.symm.trans hsite')
  exact ho.symm.trans ho'

/-- A page is made where no attempt fails. -/
theorem exists_page (h : p.Standard) (hrs : outcome σ (p.references s) = .ok rs)
    (hnone : ∀ q ∈ p.blockReferences s rs, p.failure? σ q = none)
    (hcomment : (outcome σ (p.subjectComment s)).toOption = some none) :
    ∃ page, outcome σ (p.page s) = .ok page := by
  obtain ⟨finish, -, hpage⟩ := outcome_page h hrs
  rw [hpage, List.findSome?_eq_none_iff.mpr hnone, Stateful.eq_ok_of_toOption hcomment]
  exact ⟨_, rfl⟩

def clashFiles : FileTree :=
  { files := [(["a.rb"], "class A\n  # =mark_doc\n  # Hello.\n  # =mark_end\n  def x\n  end\nend\n"),
      (["b.rb"], "class B\n  # =mark_doc\n  #\n  # =mark_end\n  def x\n  end\nend\n")] }

/-- A subject with a member in whose name there is the mark of its kind. -/
def marking : Subject :=
  { name := "A", file := some "a.rb", line := some 1
    members := [{ name := "x", kind := .onInstance, line := some 5 },
      { name := "b#x", kind := .onInstance }] }

/-- The subject to which a reference to that member leads. -/
def marked : Subject :=
  { name := "A#b", file := some "b.rb"
    members := [{ name := "x", kind := .onInstance, line := some 5 }] }

abbrev clash : Maker := plain [marking, marked]

theorem lineage_marking : clash.workspace.registry.lineage marking.name = [marking] :=
  Registry.lineage_eq_singleton rfl rfl rfl

theorem expands_marking : clash.Expands { files := clashFiles }
    (.member "A" "x" .onInstance .native) (.ok "Hello.\n") :=
  expands_definition marking ⟨"a.rb", 5, "=mark_doc\nHello.\n=mark_end\n", 2, "  def x\n  end"⟩
    (ownerOf_of_get? (by decide) rfl) rfl lineage_marking (by decide +kernel) (by decide)
    (by decide) (Stateful.eq_ok_of_toOption (by decide +kernel))

theorem expands_marked : clash.Expands { files := clashFiles }
    (.member "A" "b#x" .onInstance .native) (.ok "\n") :=
  expands_definition marked ⟨"b.rb", 5, "=mark_doc\n\n=mark_end\n", 2, "  def x\n  end"⟩
    (ownerOf_of_get? (by decide) rfl) rfl (Registry.lineage_eq_singleton rfl rfl rfl)
    (by decide +kernel) (by decide) (by decide)
    (Stateful.eq_ok_of_toOption (by decide +kernel))

/-- Not all members that say something are on a page: the entry of a member is replaced by that of
another one in whose name the mark of its kind stands, with the same name behind it. -/
theorem not_page_has_keys :
    ∃ rs page, outcome { files := clashFiles } (clash.references marking) = .ok rs ∧
      outcome { files := clashFiles } (clash.page marking) = .ok page ∧
      ∃ r ∈ rs, (EntryKey.of r).kind = .onInstance ∧ clash.Says { files := clashFiles } r ∧
        EntryKey.of r ∉ page.entries.keys := by
  have h : clash.Standard := rfl
  let r := Reference.member "A" "x" .onInstance .native
  let q := Reference.member "A" "b#x" .onInstance .native
  have hkey : EntryKey.of q = EntryKey.of r := by decide
  have hrs : outcome { files := clashFiles } (clash.references marking) = .ok [r, q] := by
    rw [outcome_references rfl, Registry.population_eq lineage_marking]
    rfl
  have hblocks : clash.blockReferences marking [r, q] = [r, q] := by
    rw [blockReferences, Registry.constants, lineage_marking]
    rfl
  have hnone : ∀ x ∈ clash.blockReferences marking [r, q],
      clash.failure? { files := clashFiles } x = none := by
    rw [hblocks]
    simp only [List.forall_mem_cons]
    exact ⟨expands_marking.failure?_eq_none h, expands_marked.failure?_eq_none h,
      List.forall_mem_nil _⟩
  obtain ⟨page, hpage⟩ := exists_page h hrs hnone (by decide +kernel)
  refine ⟨[r, q], page, hrs, hpage, r, List.mem_cons_self, rfl,
    ⟨_, expands_marking, by decide⟩, ?_⟩
  obtain ⟨rs, hrs', hentries⟩ := entries_of_page h hpage
  obtain rfl : [r, q] = rs := Except.ok.inj (hrs.symm.trans hrs')
  rw [hentries, mem_keys_allEntries h (by decide)]
  rintro ⟨front, x, back, hsplit, -, ⟨text, htext, hblank⟩, hlast⟩
  -- the second reference is the last with the key, and what it says is blank
  cases front with
  | nil =>
    obtain ⟨-, rfl⟩ := List.cons.inj hsplit
    exact hlast q List.mem_cons_self hkey _ expands_marked
  | cons y front =>
    obtain ⟨-, htail⟩ := List.cons.inj hsplit
    cases front with
    | nil =>
      obtain ⟨rfl, -⟩ := List.cons.inj htail
      obtain rfl := Except.ok.inj (htext.unique expands_marked)
      exact absurd hblank (by decide)
    | cons y' front => simp at htail

end Page.Maker

end DocWeave
