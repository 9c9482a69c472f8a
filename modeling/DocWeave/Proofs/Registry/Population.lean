import DocWeave.Proofs.OrderedMap
import DocWeave.Proofs.Registry.Lineage

/-!
# Populations and lookups

A subject's members can be listed (`population`) or asked for one by one (`findMember?`), and so can its
constants. Both go along the lineage and both let the nearest declaration win: the list by leaving out
what it has met before, the lookup by stopping at the first hit. So the list holds exactly the answers of
the lookup (`mem_population_iff`), in an order that is fixed by the lineage (`names_population`).
-/

namespace DocWeave

/-! ## First items of their keys -/

section

variable {α κ : Type} [BEq κ] [LawfulBEq κ] {key : α → κ} {seen : List κ} {items : List α} {a : α}

/-- An item is kept if its key is new and no earlier item has it. -/
theorem mem_distinctBy_iff :
    a ∈ distinctBy key seen items ↔
      key a ∉ seen ∧ items.find? (fun b => key b == key a) = some a := by
  induction items generalizing seen with
  | nil => simp [distinctBy]
  | cons b rest ih =>
    unfold distinctBy
    by_cases hseen : key b ∈ seen
    · rw [if_pos (List.contains_iff_mem.mpr hseen), ih]
      refine and_congr_right fun ha => ?_
      have hne : (key b == key a) = false := by
        rw [beq_eq_false_iff_ne]
        rintro heq
        exact ha (heq ▸ hseen)
      rw [List.find?_cons_of_neg (by simp [hne])]
    · rw [if_neg (by simpa using hseen), List.mem_cons, ih]
      by_cases heq : key b = key a
      · rw [List.find?_cons_of_pos (by simp [heq]), Option.some.injEq]
        simp only [heq ▸ hseen, not_false_eq_true, true_and, heq, List.mem_cons_self,
          not_true_eq_false, false_and, or_false]
        exact eq_comm
      · have hab : a ≠ b := fun hab => heq (hab ▸ rfl)
        rw [List.find?_cons_of_neg (by simpa using heq)]
        simp only [hab, List.mem_cons, Ne.symm heq, false_or]

theorem nodup_distinctBy (key : α → κ) (seen : List κ) (items : List α) :
    ((distinctBy key seen items).map key).Nodup := by
  induction items generalizing seen with
  | nil => exact List.nodup_nil
  | cons a rest ih =>
    unfold distinctBy
    split
    · exact ih seen
    · refine List.nodup_cons.mpr ⟨fun hmem => ?_, ih _⟩
      obtain ⟨b, hb, hkey⟩ := List.mem_map.mp hmem
      exact (mem_distinctBy_iff.mp hb).1 (hkey ▸ List.mem_cons_self)

/-- The keys that are kept stand where they are met first. -/
theorem map_distinctBy (key : α → κ) (seen : List κ) (items : List α) :
    (distinctBy key seen items).map key = ((items.map key).removeAll seen).eraseDups := by
  induction items generalizing seen with
  | nil => simp [distinctBy, List.removeAll]
  | cons a rest ih =>
    unfold distinctBy
    rw [List.map_cons, List.cons_removeAll]
    by_cases hseen : seen.contains (key a) = true
    · rw [if_pos hseen, if_neg (by rw [hseen]; decide), ih]
    · have hrest : (rest.map key).removeAll (key a :: seen) =
          ((rest.map key).removeAll seen).filter fun k => !k == key a := by
        simp only [List.removeAll, List.filter_filter, List.elem_cons]
        refine List.filter_congr fun k _ => ?_
        cases k == key a <;> rfl
      rw [if_neg hseen, if_pos (by simpa using hseen), List.map_cons, ih, hrest, List.eraseDups_cons]

end

namespace Registry

variable {r : Registry} {name n : String} {kind : MemberKind} {visibility : Visibility}
  {owners ancestors : List Subject} {subject s : Subject} {m : Member} {i : Inhabitant}

/-! ## The nearest declaration -/

/-- The first declaration of a member along some subjects. -/
def nearest? (kind : MemberKind) (n : String) (owners : List Subject) : Option (Subject × Member) :=
  owners.findSome? fun s => (s.member? n kind).map fun m => (s, m)

theorem findMember?_eq_nearest? : r.findMember? name n kind = nearest? kind n (r.lineage name) := rfl

theorem nearest?_cons (kind : MemberKind) (n : String) (subject : Subject)
    (ancestors : List Subject) :
    nearest? kind n (subject :: ancestors) =
      (nearest? kind n [subject]).or (nearest? kind n ancestors) := by
  simp only [nearest?, List.findSome?_cons, List.findSome?_nil]
  cases subject.member? n kind <;> rfl

theorem nearest?_some (h : nearest? kind n owners = some (s, m)) :
    s ∈ owners ∧ m.name = n ∧ m.kind = kind := by
  obtain ⟨t, ht, hm⟩ := List.exists_of_findSome?_eq_some h
  obtain ⟨x, hx, heq⟩ := Option.map_eq_some_iff.mp hm
  cases heq
  have hcalled := List.find?_some hx
  simp only [Member.isCalled, Bool.and_eq_true, beq_iff_eq] at hcalled
  exact ⟨ht, hcalled⟩

theorem find?_declared :
    (declared kind visibility owners).find? (·.member.name == n) =
      (nearest? kind n owners).map fun p => ⟨p.1, p.2, visibility⟩ := by
  rw [declared, List.find?_flatMap, nearest?, List.map_findSome?]
  congr 1
  funext s
  rw [List.find?_map, List.find?_filter, Function.comp_apply, Subject.member?, Option.map_map]
  congr 2
  funext x
  simp only [Function.comp_apply, Member.isCalled, Bool.and_comm (x.name == n), Bool.decide_and,
    Bool.decide_eq_true]

/-- Of the declared members those are kept that are the nearest of their name and not met before. -/
theorem mem_distinctBy_declared {seen : List String} :
    i ∈ distinctBy (·.member.name) seen (declared kind visibility owners) ↔
      i.visibility = visibility ∧ i.member.name ∉ seen ∧
        nearest? kind i.member.name owners = some (i.owner, i.member) := by
  rw [mem_distinctBy_iff, find?_declared, Option.map_eq_some_iff]
  constructor
  · rintro ⟨hnew, ⟨s, m⟩, hnearest, rfl⟩
    exact ⟨rfl, hnew, hnearest⟩
  · rintro ⟨rfl, hnew, hnearest⟩
    exact ⟨hnew, _, hnearest, rfl⟩

/-! ## The parts of a population -/

/-- The members of a kind that the subject declares itself. -/
def ownMembers (kind : MemberKind) (subject : Subject) : List Inhabitant :=
  distinctBy (·.member.name) [] (declared kind .native [subject])

/-- The members of a kind that the subject does not declare itself, the nearest first. -/
def inheritedMembers (kind : MemberKind) (subject : Subject) (ancestors : List Subject) :
    List Inhabitant :=
  distinctBy (·.member.name) ((ownMembers kind subject).map (·.member.name))
    (declared kind .inherited ancestors)

theorem population_eq (h : r.lineage name = subject :: ancestors) :
    r.population name =
      ownMembers .onInstance subject ++ ownMembers .onClass subject ++
        (inheritedMembers .onInstance subject ancestors).reverse ++
        (inheritedMembers .onClass subject ancestors).reverse := by
  rw [population, h]
  rfl

theorem mem_ownMembers_iff :
    i ∈ ownMembers kind subject ↔
      i.visibility = .native ∧ nearest? kind i.member.name [subject] = some (i.owner, i.member) := by
  rw [ownMembers, mem_distinctBy_declared]
  simp

/-- The names of a subject's own members are those for which it is asked with success. -/
theorem mem_ownNames_iff :
    n ∈ (ownMembers kind subject).map (·.member.name) ↔ (nearest? kind n [subject]).isSome := by
  rw [List.mem_map, Option.isSome_iff_exists]
  constructor
  · rintro ⟨i, hi, rfl⟩
    exact ⟨_, (mem_ownMembers_iff.mp hi).2⟩
  · rintro ⟨⟨s, m⟩, hnearest⟩
    obtain ⟨-, rfl, -⟩ := nearest?_some hnearest
    exact ⟨⟨s, m, .native⟩, mem_ownMembers_iff.mpr ⟨rfl, hnearest⟩, rfl⟩

theorem mem_inheritedMembers_iff :
    i ∈ inheritedMembers kind subject ancestors ↔
      i.visibility = .inherited ∧ nearest? kind i.member.name [subject] = none ∧
        nearest? kind i.member.name ancestors = some (i.owner, i.member) := by
  rw [inheritedMembers, mem_distinctBy_declared, mem_ownNames_iff, Option.not_isSome_iff_eq_none]

/-- The entries of a kind are the answers of the lookup, with the owner and the declaration that it
gives, as native where the subject declares them itself. -/
theorem mem_members_iff (hlineage : r.lineage name = subject :: ancestors) :
    i ∈ ownMembers kind subject ∨ i ∈ inheritedMembers kind subject ancestors ↔
      i.member.kind = kind ∧
        r.findMember? name i.member.name i.member.kind = some (i.owner, i.member) ∧
        i.visibility = if i.owner.name = subject.name then .native else .inherited := by
  have hnodup := nodup_lineage r name
  rw [hlineage, List.map_cons, List.nodup_cons] at hnodup
  have hkind : ∀ {owners}, nearest? kind i.member.name owners = some (i.owner, i.member) →
      i.member.kind = kind := fun h => (nearest?_some h).2.2
  have hfar : nearest? kind i.member.name ancestors = some (i.owner, i.member) →
      i.owner.name ≠ subject.name := fun h hname =>
    hnodup.1 (List.mem_map.mpr ⟨_, (nearest?_some h).1, hname⟩)
  rw [mem_ownMembers_iff, mem_inheritedMembers_iff, findMember?_eq_nearest?, hlineage]
  constructor
  · rintro (⟨hvisible, hown⟩ | ⟨hvisible, hnone, hnearest⟩)
    · have howner : i.owner = subject := List.mem_singleton.mp (nearest?_some hown).1
      rw [hkind hown, nearest?_cons _ _ _ ancestors, hown, hvisible, howner, if_pos rfl]
      exact ⟨rfl, rfl, rfl⟩
    · rw [hkind hnearest, nearest?_cons _ _ _ ancestors, hnone, hnearest, hvisible,
        if_neg (hfar hnearest)]
      exact ⟨rfl, rfl, rfl⟩
  · rintro ⟨rfl, hfound, hvisible⟩
    rw [nearest?_cons _ _ _ ancestors] at hfound
    cases hown : nearest? i.member.kind i.member.name [subject] with
    | some p =>
      rw [hown, Option.some_or] at hfound
      have howner : i.owner = subject := List.mem_singleton.mp (nearest?_some (hown.trans hfound)).1
      rw [howner, if_pos rfl] at hvisible
      exact .inl ⟨hvisible, hfound⟩
    | none =>
      rw [hown, Option.none_or] at hfound
      rw [if_neg (hfar hfound)] at hvisible
      exact .inr ⟨hvisible, rfl, hfound⟩

theorem mem_population_iff (hlineage : r.lineage name = subject :: ancestors) :
    i ∈ r.population name ↔
      i.member.kind ≠ .constant ∧
        r.findMember? name i.member.name i.member.kind = some (i.owner, i.member) ∧
        i.visibility = if i.owner.name = subject.name then .native else .inherited := by
  have hkinds : i.member.kind = .onInstance ∨ i.member.kind = .onClass ↔ i.member.kind ≠ .constant := by
    cases i.member.kind <;> simp
  rw [← hkinds, or_and_right, ← mem_members_iff hlineage, ← mem_members_iff hlineage,
    population_eq hlineage]
  simp only [List.mem_append, List.mem_reverse]
  tauto

/-! ## The order of a population -/

/-- The entries are of one visibility and one kind. -/
def Uniform (visibility : Visibility) (kind : MemberKind) (entries : List Inhabitant) : Prop :=
  ∀ i ∈ entries, i.visibility = visibility ∧ i.member.kind = kind

theorem uniform_ownMembers (kind : MemberKind) (subject : Subject) :
    Uniform .native kind (ownMembers kind subject) := by
  intro i hi
  obtain ⟨hvisible, hnearest⟩ := mem_ownMembers_iff.mp hi
  exact ⟨hvisible, (nearest?_some hnearest).2.2⟩

theorem uniform_inheritedMembers (kind : MemberKind) (subject : Subject) (ancestors : List Subject) :
    Uniform .inherited kind (inheritedMembers kind subject ancestors).reverse := by
  intro i hi
  obtain ⟨hvisible, -, hnearest⟩ := mem_inheritedMembers_iff.mp (List.mem_reverse.mp hi)
  exact ⟨hvisible, (nearest?_some hnearest).2.2⟩

/-- An entry may stand before another one: native ones come first, and of those that are alike in this
the members of instances. -/
def MayPrecede (x y : Inhabitant) : Prop :=
  (y.visibility = .native → x.visibility = .native) ∧
  (x.visibility = y.visibility → y.member.kind = .onInstance → x.member.kind = .onInstance)

section

variable {v w : Visibility} {k l : MemberKind} {front back : List Inhabitant}

/-- Of two uniform lists that are not alike the first goes before the second if their entries do. -/
theorem Uniform.apart (hfront : Uniform v k front) (hback : Uniform w l back)
    (horder : (w = .native → v = .native) ∧ (v = w → l = .onInstance → k = .onInstance))
    (hne : v = w → k ≠ l) : ∀ x ∈ front, ∀ y ∈ back, MayPrecede x y ∧ x ≠ y := by
  intro x hx y hy
  obtain ⟨rfl, rfl⟩ := hfront x hx
  obtain ⟨rfl, rfl⟩ := hback y hy
  refine ⟨horder, ?_⟩
  rintro rfl
  exact hne rfl rfl

/-- In a uniform list every order will do. -/
theorem Uniform.pairwise (h : Uniform v k front) (hnodup : (front.map (·.member.name)).Nodup) :
    front.Pairwise fun x y => MayPrecede x y ∧ x ≠ y := by
  refine (List.Nodup.of_map _ hnodup).imp_of_mem fun {x y} hx hy hne => ⟨?_, hne⟩
  obtain ⟨rfl, rfl⟩ := h x hx
  obtain ⟨hv, hk⟩ := h y hy
  exact ⟨fun hnative => hv ▸ hnative, fun _ hinstance => hk ▸ hinstance⟩

end

/-- The entries stand in order, none twice. -/
theorem pairwise_population (hlineage : r.lineage name = subject :: ancestors) :
    (r.population name).Pairwise fun x y => MayPrecede x y ∧ x ≠ y := by
  have hown (kind : MemberKind) := uniform_ownMembers kind subject
  have hinherited (kind : MemberKind) := uniform_inheritedMembers kind subject ancestors
  have hownNodup (kind : MemberKind) := (hown kind).pairwise (nodup_distinctBy _ _ _)
  have hinheritedNodup (kind : MemberKind) := (hinherited kind).pairwise
    (by rw [List.map_reverse, List.nodup_reverse]; exact nodup_distinctBy _ _ _)
  rw [population_eq hlineage, List.pairwise_append, List.pairwise_append, List.pairwise_append]
  simp only [List.forall_mem_append]
  exact ⟨⟨⟨hownNodup _, hownNodup _, (hown _).apart (hown _) (by decide) (by decide)⟩,
    hinheritedNodup _, (hown _).apart (hinherited _) (by decide) (by decide),
      (hown _).apart (hinherited _) (by decide) (by decide)⟩,
    hinheritedNodup _, ⟨(hown _).apart (hinherited _) (by decide) (by decide),
      (hown _).apart (hinherited _) (by decide) (by decide)⟩,
      (hinherited _).apart (hinherited _) (by decide) (by decide)⟩

/-- Kind and name are listed once. -/
theorem nodup_population (hlineage : r.lineage name = subject :: ancestors) :
    ((r.population name).map fun i => (i.member.kind, i.member.name)).Nodup := by
  refine List.Nodup.map_on (fun x hx y hy hkey => ?_)
    ((pairwise_population hlineage).imp fun hxy => hxy.2)
  obtain ⟨-, hxfound, hxvisible⟩ := (mem_population_iff hlineage).mp hx
  obtain ⟨-, hyfound, hyvisible⟩ := (mem_population_iff hlineage).mp hy
  rw [Prod.mk.injEq] at hkey
  rw [hkey.1, hkey.2, hyfound, Option.some.injEq, Prod.mk.injEq] at hxfound
  rw [← hxfound.1, ← hyvisible] at hxvisible
  cases x
  cases y
  simp_all

/-- The names of the members of a kind that some subjects declare, in the order of declaration. -/
def declaredNames (kind : MemberKind) (owners : List Subject) : List String :=
  owners.flatMap fun s => (s.members.filter (·.kind == kind)).map (·.name)

/-- The names of the entries of one visibility and one kind. -/
def listedNames (visibility : Visibility) (kind : MemberKind) (entries : List Inhabitant) :
    List String :=
  (entries.filter fun i => i.visibility = visibility ∧ i.member.kind = kind).map (·.member.name)

theorem map_declared : (declared kind visibility owners).map (·.member.name) =
    declaredNames kind owners := by
  simp [declared, declaredNames, List.map_flatMap, Function.comp_def]

theorem names_ownMembers (kind : MemberKind) (subject : Subject) :
    (ownMembers kind subject).map (·.member.name) = (declaredNames kind [subject]).eraseDups := by
  rw [ownMembers, map_distinctBy, map_declared]
  simp [List.removeAll]

/-- Own and inherited names, the nearest first, are the declared ones where they are met first. -/
theorem names_members (kind : MemberKind) (subject : Subject) (ancestors : List Subject) :
    (ownMembers kind subject).map (·.member.name) ++
        (inheritedMembers kind subject ancestors).map (·.member.name) =
      (declaredNames kind (subject :: ancestors)).eraseDups := by
  have hsplit : declaredNames kind (subject :: ancestors) =
      declaredNames kind [subject] ++ declaredNames kind ancestors := by
    simp [declaredNames]
  rw [hsplit, List.eraseDups_append, inheritedMembers, map_distinctBy, map_declared, names_ownMembers]
  congr 2
  refine List.filter_congr fun n _ => ?_
  simp only [List.elem_eq_mem, List.mem_eraseDups]

section

variable {v w : Visibility} {k l : MemberKind} {entries : List Inhabitant}

theorem Uniform.listedNames_eq (h : Uniform v k entries) (w : Visibility) (l : MemberKind) :
    listedNames w l entries = if v = w ∧ k = l then entries.map (·.member.name) else [] := by
  unfold listedNames
  split
  · next hboth =>
    obtain ⟨rfl, rfl⟩ := hboth
    rw [List.filter_eq_self.mpr fun i hi => decide_eq_true (h i hi)]
  · next hne =>
    rw [List.filter_eq_nil_iff.mpr, List.map_nil]
    intro i hi hboth
    obtain ⟨rfl, rfl⟩ := h i hi
    exact hne (of_decide_eq_true hboth)

theorem listedNames_append (v : Visibility) (k : MemberKind) (front back : List Inhabitant) :
    listedNames v k (front ++ back) = listedNames v k front ++ listedNames v k back := by
  simp [listedNames]

end

/-- The names of a population: the own ones as they are declared, the inherited ones against the order
in which they are met along the lineage. -/
theorem names_population (hlineage : r.lineage name = subject :: ancestors)
    (hkind : kind ≠ .constant) :
    listedNames .native kind (r.population name) = (declaredNames kind [subject]).eraseDups ∧
    listedNames .native kind (r.population name) ++
        (listedNames .inherited kind (r.population name)).reverse =
      (declaredNames kind (r.lineage name)).eraseDups := by
  have hown (k : MemberKind) := (uniform_ownMembers k subject).listedNames_eq
  have hinherited (k : MemberKind) := (uniform_inheritedMembers k subject ancestors).listedNames_eq
  have hnative : listedNames .native kind (r.population name) =
      (ownMembers kind subject).map (·.member.name) := by
    rw [population_eq hlineage]
    cases kind with
    | constant => exact absurd rfl hkind
    | onInstance => simp [listedNames_append, hown, hinherited]
    | onClass => simp [listedNames_append, hown, hinherited]
  have hfar : listedNames .inherited kind (r.population name) =
      ((inheritedMembers kind subject ancestors).map (·.member.name)).reverse := by
    rw [population_eq hlineage]
    cases kind with
    | constant => exact absurd rfl hkind
    | onInstance => simp [listedNames_append, hown, hinherited]
    | onClass => simp [listedNames_append, hown, hinherited]
  rw [hnative, hfar, hlineage, List.reverse_reverse, names_members, names_ownMembers]
  exact ⟨rfl, rfl⟩

/-! ## Constants -/

/-- Constants are kept under their own names. -/
def NamesConstants (r : Registry) : Prop := ∀ s ∈ r.subjects, ∀ p ∈ s.constants, p.1 = p.2.name

theorem find?_values {constants : OrderedMap String Constant} (h : ∀ p ∈ constants, p.1 = p.2.name) :
    constants.values.find? (·.name == n) = constants.get? n := by
  induction constants with
  | nil => rfl
  | cons p rest ih =>
    obtain ⟨key, c⟩ := p
    have hkey : key = c.name := h _ List.mem_cons_self
    have hrest := ih fun q hq => h q (List.mem_cons_of_mem _ hq)
    show List.find? _ (c :: OrderedMap.values rest) = _
    rw [List.find?_cons, hrest, OrderedMap.get?, hkey, Bool.beq_comm]
    cases n == c.name <;> rfl

/-- The first constant of a name is what the lookup along the subjects gives. -/
theorem find?_constants (h : ∀ s ∈ owners, ∀ p ∈ s.constants, p.1 = p.2.name) :
    (owners.flatMap fun s => s.constants.values.map fun c => (s, c)).find? (·.2.name == n) =
      owners.findSome? fun s => (s.constants.get? n).map fun c => (s, c) := by
  induction owners with
  | nil => rfl
  | cons s rest ih =>
    rw [List.flatMap_cons, List.find?_append, List.find?_map, List.findSome?_cons,
      ih fun t ht => h t (List.mem_cons_of_mem _ ht)]
    have hown := find?_values (n := n) (h s List.mem_cons_self)
    have hcomp : ((fun p : Subject × Constant => p.2.name == n) ∘ fun c => (s, c)) =
        fun c : Constant => c.name == n := rfl
    rw [hcomp, hown]
    cases s.constants.get? n <;> rfl

/-- The constants that are listed are the answers of the lookup. -/
theorem mem_constants_iff (h : r.NamesConstants) {p : Subject × Constant} :
    p ∈ r.constants name ↔ r.findConstant? name p.2.name = some p := by
  have howners : ∀ s ∈ r.lineage name, ∀ q ∈ s.constants, q.1 = q.2.name := fun s hs =>
    h s (mem_of_mem_lineage hs)
  rw [constants, mem_distinctBy_iff, find?_constants howners, findConstant?]
  simp

theorem name_of_findConstant? (h : r.NamesConstants) {p : Subject × Constant}
    (hfound : r.findConstant? name n = some p) : p.2.name = n := by
  obtain ⟨s, hs, hget⟩ := List.exists_of_findSome?_eq_some hfound
  obtain ⟨c, hc, rfl⟩ := Option.map_eq_some_iff.mp hget
  exact (h s (mem_of_mem_lineage hs) _ (OrderedMap.mem_of_get? hc)).symm

/-! ## Listing and looking up -/

theorem eq_of_name_mem_lineage {s t : Subject} (hs : s ∈ r.lineage name) (ht : t ∈ r.lineage name) :
    s.name = t.name ↔ s = t :=
  ⟨List.inj_on_of_nodup_map (nodup_lineage r name) hs ht, fun h => h ▸ rfl⟩

/-- What is listed for a subject is what is found when it is asked for by name, for members as for
constants; the entries of members are native exactly where the subject declares them itself, and stand
in the order that the declarations along the lineage give. -/
theorem population_agrees (hconstants : r.NamesConstants) (name : String) :
    (((r.population name).map fun i => (i.member.kind, i.member.name)).Nodup ∧
      (∀ kind n, kind ≠ .constant →
        ((∃ i ∈ r.population name, i.member.kind = kind ∧ i.member.name = n) ↔
          (r.findMember? name n kind).isSome)) ∧
      (∀ i ∈ r.population name, i.member.kind ≠ .constant ∧
        r.findMember? name i.member.name i.member.kind = some (i.owner, i.member) ∧
        (i.visibility = .native ∨ i.visibility = .inherited) ∧
        (i.visibility = .native ↔ r.get? name = some i.owner)) ∧
      (r.population name).Pairwise MayPrecede ∧
      ∀ kind, kind ≠ .constant →
        listedNames .native kind (r.population name) =
          (declaredNames kind (r.get? name).toList).eraseDups ∧
        listedNames .native kind (r.population name) ++
            (listedNames .inherited kind (r.population name)).reverse =
          (declaredNames kind (r.lineage name)).eraseDups) ∧
    ((r.constants name).map (·.2.name)).Nodup ∧
    (∀ p ∈ r.constants name, r.findConstant? name p.2.name = some p) ∧
    ∀ n p, r.findConstant? name n = some p → p ∈ r.constants name := by
  refine ⟨?_, nodup_distinctBy _ _ _, fun p hp => (mem_constants_iff hconstants).mp hp,
    fun n p hfound => (mem_constants_iff hconstants).mpr ?_⟩
  · cases hget : r.get? name with
    | none =>
      have hlineage := lineage_of_get?_none hget
      have hpopulation : r.population name = [] := by rw [population, hlineage]
      simp [hpopulation, findMember?, hlineage, listedNames, declaredNames]
    | some subject =>
      obtain ⟨ancestors, hlineage⟩ := lineage_cons hget
      refine ⟨nodup_population hlineage, fun kind n hkind => ?_, fun i hi => ?_,
        (pairwise_population hlineage).imp fun hxy => hxy.1,
        fun kind hkind => names_population hlineage hkind⟩
      · rw [Option.isSome_iff_exists]
        constructor
        · rintro ⟨i, hi, rfl, rfl⟩
          exact ⟨_, ((mem_population_iff hlineage).mp hi).2.1⟩
        · rintro ⟨⟨s, m⟩, hfound⟩
          obtain ⟨-, rfl, rfl⟩ := nearest?_some (findMember?_eq_nearest? ▸ hfound)
          exact ⟨⟨s, m, if s.name = subject.name then .native else .inherited⟩,
            (mem_population_iff hlineage).mpr ⟨hkind, hfound, rfl⟩, rfl, rfl⟩
      · obtain ⟨hkind, hfound, hvisible⟩ := (mem_population_iff hlineage).mp hi
        have howner : i.owner ∈ r.lineage name :=
          (nearest?_some (findMember?_eq_nearest? ▸ hfound)).1
        have hsubject : subject ∈ r.lineage name := hlineage ▸ List.mem_cons_self
        rw [Option.some.injEq, eq_comm (a := subject), ← eq_of_name_mem_lineage howner hsubject,
          hvisible]
        refine ⟨hkind, hfound, ?_⟩
        split <;> simp [*]
  · rw [name_of_findConstant? hconstants hfound]
    exact hfound

/-- A class that declares a member twice. -/
def leaf : Subject where
  name := "Leaf"
  parent := some "Base"
  includes := ["Shared"]
  members := [⟨"own", .onInstance, some 2, none⟩, ⟨"build", .onClass, some 3, none⟩,
    ⟨"own", .onInstance, some 4, none⟩]
  constants := [("LIMIT", ⟨"LIMIT", .nil, none⟩)]

/-- Its parent, which inherits from it again. -/
def base : Subject where
  name := "Base"
  parent := some "Leaf"
  includes := ["Shared"]
  members := [⟨"own", .onInstance, none, none⟩, ⟨"total", .onInstance, none, none⟩,
    ⟨"total", .onClass, none, none⟩]
  constants := [("LIMIT", ⟨"LIMIT", .bool true, none⟩), ("RATE", ⟨"RATE", .nil, none⟩)]

/-- A module that both of them and the module itself mix in. -/
def shared : Subject where
  name := "Shared"
  kind := .moduleDecl
  includes := ["Shared"]
  members := [⟨"total", .onInstance, some 9, none⟩, ⟨"assist", .onInstance, none, none⟩]

def household : Registry := ⟨[leaf, base, shared]⟩

theorem lineage_household : household.lineage "Leaf" = [leaf, shared, base] := by
  have hget : household.get? "Leaf" = some leaf := rfl
  have hancestors : household.ancestors "Leaf" = [base] := by cbv
  have hmixins : household.mixins leaf = [shared] ∧ household.mixins base = [shared] ∧
    household.mixins shared = [shared] := ⟨rfl, rfl, rfl⟩
  have hnames : leaf.name = "Leaf" ∧ base.name = "Base" ∧ shared.name = "Shared" := ⟨rfl, rfl, rfl⟩
  have hsubjects : household.subjects = [leaf, base, shared] := rfl
  rw [lineage, hget]
  simp [lineageFrom, without, hancestors, hmixins, hnames, hsubjects]

theorem population_agrees_household :
    household.NamesConstants ∧
    (household.population "Leaf").map (fun i => (i.owner.name, i.member.name, i.member.line)) =
      [("Leaf", "own", some 2), ("Leaf", "build", some 3), ("Shared", "assist", none),
        ("Shared", "total", some 9), ("Base", "total", none)] ∧
    (∀ i ∈ household.population "Leaf",
      household.findMember? "Leaf" i.member.name i.member.kind = some (i.owner, i.member)) ∧
    (household.constants "Leaf").map (fun p => (p.1.name, p.2.name)) =
      [("Leaf", "LIMIT"), ("Base", "RATE")] ∧
    ∀ p ∈ household.constants "Leaf", household.findConstant? "Leaf" p.2.name = some p := by
  have hconstants : household.NamesConstants := by unfold NamesConstants; decide
  obtain ⟨⟨-, -, hfound, -⟩, -, hlooked, -⟩ := population_agrees hconstants "Leaf"
  refine ⟨hconstants, ?_, fun i hi => (hfound i hi).2.1, ?_, hlooked⟩
  · rw [population, lineage_household]
    decide
  · rw [constants, lineage_household]
    decide

end Registry

end DocWeave
