import DocWeave.Proofs.Manifest.Keyed
import DocWeave.Proofs.Outline.Places
import DocWeave.Proofs.Registry.Lookup
import DocWeave.Proofs.Text.Ascii

/-!
# The names that a scan finds

The names of subjects begin with a capital letter, behind at most one colon, and hold word characters
and colons only. So such a name has no `::` in front and none of the marks of references in it. The
names of members of the subject itself come from heads of methods and have no such mark either
(`ofLines_named`). Members of instances may have: what a delegation lists is taken as it is written.
-/

namespace DocWeave.Outline

open DocWeave.Text

/-! ## Names in heads -/

/-- The name of a subject: a capital letter behind at most one colon, then word characters and colons. -/
structure IsSubjectName (s : List Char) : Prop where
  capital : ∃ c rest, c.isUpper = true ∧ (s = c :: rest ∨ s = ':' :: c :: rest)
  chars : ∀ c ∈ s, isScopedChar c = true

/-- A name of word characters, behind which one further mark may stand. -/
def IsMethodName (s : List Char) : Prop := ∀ c ∈ s, isWordChar c = true ∨ c ∈ ['?', '!', '=']

theorem isWordChar_of_isAlpha {c : Char} (h : c.isAlpha = true) : isWordChar c = true := by
  have halnum := isAlphanum_of_isAlpha h
  rw [isWordChar_of_ascii (ascii_of_isAlphanum halnum), halnum, Bool.true_or]

theorem isScopedChar_of_isUpper {c : Char} (h : c.isUpper = true) : isScopedChar c = true := by
  rw [isScopedChar, isWordChar_of_isAlpha (isAlpha_of_isUpper h), Bool.true_or]

namespace IsSubjectName

variable {s t : List Char}

theorem ne_nil (h : IsSubjectName s) : s ≠ [] := by
  obtain ⟨c, rest, _, rfl | rfl⟩ := h.capital <;> simp

theorem not_startsWith (h : IsSubjectName s) : startsWith "::".toList s = false := by
  have hcolon : Char.isUpper ':' = false := by decide
  obtain ⟨c, rest, hc, rfl | rfl⟩ := h.capital
  · have hne : ':' ≠ c := fun heq => by rw [← heq, hcolon] at hc; cases hc
    simp [startsWith, after?, hne]
  · have hne : ':' ≠ c := fun heq => by rw [← heq, hcolon] at hc; cases hc
    simp [startsWith, after?, hne]

theorem not_mem_mark (h : IsSubjectName s) : '#' ∉ s := fun hmem =>
  absurd (h.chars '#' hmem) (by decide)

/-- A name inside another subject. -/
theorem qualified (hs : IsSubjectName s) (ht : IsSubjectName t) :
    IsSubjectName (s ++ "::".toList ++ t) := by
  constructor
  · obtain ⟨c, rest, hc, rfl | rfl⟩ := hs.capital
    · exact ⟨c, rest ++ "::".toList ++ t, hc, .inl rfl⟩
    · exact ⟨c, rest ++ "::".toList ++ t, hc, .inr rfl⟩
  · intro c hc
    rcases List.mem_append.mp hc with hc | hc
    · rcases List.mem_append.mp hc with hc | hc
      · exact hs.chars c hc
      · have hcolon : c = ':' := by simpa using hc
        rw [hcolon]
        decide
    · exact ht.chars c hc

end IsSubjectName

theorem IsMethodName.not_mem_mark {s : List Char} (h : IsMethodName s) : '#' ∉ s ∧ '.' ∉ s := by
  constructor <;> intro hmem <;> exact absurd (h _ hmem) (by decide)

/-- A name in a head is that of a subject, or one with `::` before it. -/
theorem takeScopedName?_spec {s name rest : List Char} (h : takeScopedName? s = some (name, rest)) :
    IsSubjectName name ∨ ∃ full, name = "::".toList ++ full ∧ IsSubjectName full := by
  unfold takeScopedName? at h
  dsimp only at h
  split at h
  · next c t hrest =>
    split at h
    · next hc =>
      obtain ⟨rfl, rfl⟩ := Prod.mk.inj (Option.some.inj h)
      have hcapital : IsSubjectName (c :: t.takeWhile isScopedChar) := by
        refine ⟨⟨c, _, hc, .inl rfl⟩, fun d hd => ?_⟩
        rcases List.mem_cons.mp hd with rfl | hd
        · exact isScopedChar_of_isUpper hc
        · exact List.all_eq_true.mp List.all_takeWhile d hd
      unfold takeColons
      split
      · exact .inr ⟨_, rfl, hcapital⟩
      · left
        refine ⟨⟨c, _, hc, .inr rfl⟩, fun d hd => ?_⟩
        rcases List.mem_cons.mp hd with rfl | hd
        · decide
        · exact hcapital.chars d hd
      · exact .inl hcapital
    · cases h
  · cases h

theorem subjectHead?_spec {line : List Char} {head : SubjectHead} (h : subjectHead? line = some head) :
    IsSubjectName head.name.toList ∨
      ∃ full, head.name.toList = "::".toList ++ full ∧ IsSubjectName full := by
  obtain ⟨s, name, rest, hname, hhead⟩ :
      ∃ s name rest, takeScopedName? s = some (name, rest) ∧ head.name.toList = name := by
    rw [subjectHead?, Option.orElse_eq_orElse, Option.orElse_eq_or, Option.or_eq_some_iff] at h
    -- the two keywords are read in the same way
    rcases h with h | ⟨_, h⟩
    all_goals
      obtain ⟨s, _, h⟩ := Option.bind_eq_some_iff.mp h
      obtain ⟨⟨name, rest⟩, hname, h⟩ := Option.bind_eq_some_iff.mp h
      cases h
      exact ⟨s, name, rest, hname, String.toList_ofList⟩
  rw [hhead]
  exact takeScopedName?_spec hname

theorem isWordChar_of_isMemberStart {c : Char} (h : isMemberStart c = true) : isWordChar c = true := by
  rcases Bool.or_eq_true_iff.mp h with halpha | hscore
  · exact isWordChar_of_isAlpha halpha
  · rw [eq_of_beq hscore]
    decide

/-- The name of a member that is cut off a text: a first character, word characters, and a mark if one of
`marks` comes next. -/
theorem takeMemberName?_parts {marks s name rest : List Char}
    (h : takeMemberName? marks s = some (name, rest)) :
    s = name ++ rest ∧ ∃ (c : Char) (more : List Char) (mark : Option Char),
      name = c :: (more ++ mark.toList) ∧ isMemberStart c = true ∧
        (∀ d ∈ more, isWordChar d = true) ∧ (∀ d ∈ mark, d ∈ marks) ∧
        (mark = none → ∀ d ∈ rest.head?, isWordChar d = false ∧ d ∉ marks) := by
  cases s with
  | nil => cases h
  | cons c s =>
    have hword : ∀ d ∈ s.takeWhile isWordChar, isWordChar d = true :=
      List.all_eq_true.mp List.all_takeWhile
    have hsplit := List.takeWhile_append_dropWhile (p := isWordChar) (l := s)
    have hnone : ∀ d ∈ (none : Option Char), d ∈ marks := fun d hd => by cases hd
    rw [takeMemberName?] at h
    split at h
    · next hc =>
      dsimp only at h
      split at h
      · next d behind hbehind =>
        rw [hbehind] at hsplit
        split at h
        · next hmark =>
          cases h
          refine ⟨by rw [List.append_assoc, List.singleton_append, List.cons_append, hsplit], c, _,
            some d, rfl, hc, hword, ?_, fun h => by cases h⟩
          simpa using hmark
        · next hmark =>
          cases h
          refine ⟨by rw [List.cons_append, hsplit], c, _, none,
            by rw [Option.toList_none, List.append_nil], hc, hword, hnone, fun _ e he => ?_⟩
          cases he
          have hfirst := List.head?_dropWhile_not isWordChar s
          rw [hbehind] at hfirst
          exact ⟨by simpa using hfirst, by simpa using hmark⟩
      · next hbehind =>
        rw [hbehind] at hsplit
        cases h
        exact ⟨by rw [List.cons_append, hsplit], c, _, none, by rw [Option.toList_none, List.append_nil],
          hc, hword, hnone, fun _ d hd => by cases hd⟩
    · cases h

theorem takeMemberName?_spec {s name rest : List Char}
    (h : takeMemberName? ['?', '!', '='] s = some (name, rest)) : IsMethodName name := by
  obtain ⟨-, c, more, mark, rfl, hc, hmore, hmark, -⟩ := takeMemberName?_parts h
  intro d hd
  rcases List.mem_cons.mp hd with rfl | hd
  · exact .inl (isWordChar_of_isMemberStart hc)
  · rcases List.mem_append.mp hd with hd | hd
    · exact .inl (hmore d hd)
    · exact .inr (hmark d (Option.mem_toList.mp hd))

/-- The name in the head of a method is cut off some text. -/
theorem exists_taken_of_methodHead? {line : List Char} {head : MethodHead}
    (h : methodHead? line = some head) :
    ∃ s rest, takeMemberName? ['?', '!', '='] s = some (head.name.toList, rest) := by
  obtain ⟨s, _, h⟩ := Option.bind_eq_some_iff.mp h
  dsimp only at h
  split at h
  · next name rest hqualified =>
    obtain ⟨t, _, hname⟩ := Option.bind_eq_some_iff.mp hqualified
    cases h
    exact ⟨t, rest, by rw [hname, String.toList_ofList]⟩
  · obtain ⟨⟨name, rest⟩, hname, rfl⟩ := Option.map_eq_some_iff.mp h
    exact ⟨s, rest, by rw [hname, String.toList_ofList]⟩

theorem methodHead?_spec {line : List Char} {head : MethodHead} (h : methodHead? line = some head) :
    IsMethodName head.name.toList := by
  obtain ⟨_, _, hname⟩ := exists_taken_of_methodHead? h
  exact takeMemberName?_spec hname

/-! ## Names in a scan -/

/-- The names of a declaration: its own, and those of the members of the subject itself. -/
structure Declaration.Named (d : Declaration) : Prop where
  subject : IsSubjectName d.name.toList
  onClass : ∀ x ∈ d.members, x.kind = .onClass → IsMethodName x.name.toList

/-- A subject that is declared inside another one has that one's name in front. -/
theorem isSubjectName_qualify {s : Scan} (h : ∀ d ∈ s.found, d.Named) {line : List Char}
    {head : SubjectHead} (hhead : subjectHead? line = some head) :
    IsSubjectName (s.qualify head.name).toList := by
  unfold Scan.qualify
  rcases subjectHead?_spec hhead with hname | ⟨full, hfull, hname⟩
  · have hafter : after? "::".toList head.name.toList = none := by
      simpa [startsWith] using hname.not_startsWith
    rw [hafter]
    split
    · next heq => cases heq
    · split
      · next outer houter =>
        rw [String.toList_append, String.toList_append]
        exact (h outer (List.mem_of_getElem? houter)).subject.qualified hname
      · exact hname
    · exact hname
  · rw [hfull, after?_append]
    simpa using hname

/-- What a line adds to the members of the subject itself has the name of a method. -/
theorem Scan.Adds.named {s : Scan} {n i : Nat} {raw : List Char} {g : List Member → List Member}
    (h : s.Adds n raw i g) {members : List Member}
    (hmembers : ∀ x ∈ members, x.kind = .onClass → IsMethodName x.name.toList) :
    ∀ x ∈ g members, x.kind = .onClass → IsMethodName x.name.toList := by
  intro x hx hkind
  cases h with
  | nothing => exact hmembers x hx hkind
  | method head _ hhead _ =>
    rcases mem_keys_upsertMember.mp (List.mem_map_of_mem hx) with hold | hnew
    · obtain ⟨y, hy, hsame⟩ := List.mem_map.mp hold
      obtain ⟨hname, hkinds⟩ := Prod.mk.inj hsame
      exact hname ▸ hmembers y hy (hkinds.trans hkind)
    · rw [show x.name = head.name from (Prod.mk.inj hnew).1]
      exact methodHead?_spec hhead
  | declared word args _ _ =>
    rcases mem_foldl_addDeclared hx with hx | ⟨_, hinstance, _⟩
    · exact hmembers x hx hkind
    · cases hinstance.symm.trans hkind

theorem Step.named {s s' : Scan} {n skipped : Nat} {raw : List Char} {rest : List (List Char)}
    (h : Step s n raw rest s' skipped) (hs : ∀ d ∈ s.found, d.Named) : ∀ d ∈ s'.found, d.Named := by
  have hfinds := h.finds
  generalize s'.found = found at hfinds ⊢
  cases hfinds with
  | same => exact hs
  | opened head e hhead hname _ hmembers =>
    intro d hd
    rcases List.mem_append.mp hd with hd | hd
    · exact hs d hd
    · rw [List.mem_singleton.mp hd]
      refine ⟨hname ▸ isSubjectName_qualify hs hhead, fun x hx => ?_⟩
      rw [hmembers] at hx
      cases hx
  | changed i f g hf hadds =>
    refine Scan.forall_update hs i fun d _ hd => ⟨(hf d).1 ▸ hd.subject, fun x hx => ?_⟩
    rw [(hf d).2.2] at hx
    exact hadds.named hd.onClass x hx

theorem ofLines_named {all : List (List Char)} {d : Declaration} (hd : d ∈ ofLines all) : d.Named := by
  obtain ⟨_, hnamed⟩ := scanLines_invariant all (P := fun s _ => ∀ d ∈ s.found, d.Named)
    (fun _ _ _ _ _ _ _ hstep hs => hstep.named hs) {} 0 fun d hd => by cases hd
  exact hnamed d hd

end DocWeave.Outline
