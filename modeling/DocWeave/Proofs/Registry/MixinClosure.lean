import DocWeave.Proofs.Registry.Lineage
import DocWeave.Proofs.Registry.Scopes
import Mathlib.Order.Bounds.Defs

/-!
# What a lineage holds

The walk of a lineage starts from the subject and its ancestors and takes in what is mixed in on the
way, each subject once, also where mixins lead back to their hosts. It ends with the least set of
subjects that holds these roots and all that its members mix in (`lineage_isLeast`): whatever the walk
still has to visit is passed, unless its name was passed before (`exists_of_mem_todo`), and whatever a
passed subject mixes in was to be visited behind it (`mem_todo_or_mixin`).
-/

namespace DocWeave.Registry

variable {r : Registry} {name : String} {s t : Subject} {left todo : List Subject}

/-! ## Subjects that lookups give -/

/-- The subject is the one that its name leads to in the list of subjects. -/
def IsFound (r : Registry) (s : Subject) : Prop := r.subjects.find? (·.name == s.name) = some s

theorem isFound_of_get? (h : r.get? name = some s) : r.IsFound s := by
  have hname : s.name = String.ofList (dropScopes name.toList) := by simpa using List.find?_some h
  rw [IsFound, hname]
  exact h

theorem isFound_of_resolve? {context : String} (h : r.resolve? name context = some s) :
    r.IsFound s := by
  obtain ⟨full, hfull⟩ := exists_get?_of_resolve? h
  exact isFound_of_get? hfull

/-- A name leads to one subject. -/
theorem IsFound.eq_of_name (hs : r.IsFound s) (ht : r.IsFound t) (hname : s.name = t.name) :
    s = t := by
  rw [IsFound, hname, ht] at hs
  exact (Option.some.inj hs).symm

theorem IsFound.mem_subjects (h : r.IsFound s) : s ∈ r.subjects := List.mem_of_find?_eq_some h

theorem Climbs.isFound {path : List Subject} (h : Climbs r s path t) : r.IsFound t := by
  induction h with
  | parent hp =>
    obtain ⟨parent, -, hparent⟩ := Option.bind_eq_some_iff.mp hp
    exact isFound_of_resolve? hparent
  | step _ _ ih => exact ih

theorem isFound_of_mem_ancestors (h : t ∈ r.ancestors name) : r.IsFound t := by
  unfold ancestors at h
  split at h
  · obtain ⟨path, hpath, -⟩ := climbs_of_mem_ancestorsFrom h
    exact hpath.isFound
  · cases h

theorem mem_mixins_iff :
    t ∈ r.mixins s ↔ ∃ i ∈ s.includes, r.resolve i s.name = .ok t := by
  simp only [mixins, List.mem_filterMap, resolve_eq_ok_iff]

theorem isFound_of_mem_mixins (h : t ∈ r.mixins s) : r.IsFound t := by
  obtain ⟨i, -, hi⟩ := mem_mixins_iff.mp h
  exact isFound_of_resolve? (resolve_eq_ok_iff.mp hi)

/-! ## The walk -/

/-- Passing a subject takes no other name away. -/
theorem any_name_without (h : left.any (·.name == t.name) = true) (hne : s.name ≠ t.name) :
    (without s.name left).any (·.name == t.name) = true := by
  obtain ⟨u, hu, hname⟩ := any_name_iff.mp h
  exact any_name_iff.mpr ⟨u, mem_without.mpr ⟨hu, fun hs => hne (hs.symm.trans hname)⟩, hname⟩

/-- Of the subjects to visit, the walk passes all whose names are left. -/
theorem exists_of_mem_todo (ht : t ∈ todo) (hleft : left.any (·.name == t.name) = true) :
    ∃ u ∈ r.lineageFrom left todo, u.name = t.name := by
  fun_induction lineageFrom r left todo with
  | case1 => cases ht
  | case2 left s rest _ ih =>
    by_cases hname : s.name = t.name
    · exact ⟨s, List.mem_cons_self, hname⟩
    · have hrest : t ∈ rest := (List.mem_cons.mp ht).resolve_left fun h => hname (h ▸ rfl)
      obtain ⟨v, hv, hvname⟩ := ih (List.mem_append_right _ hrest) (any_name_without hleft hname)
      exact ⟨v, List.mem_cons_of_mem _ hv, hvname⟩
  | case3 left s rest hpassed ih =>
    rcases List.mem_cons.mp ht with rfl | hrest
    · exact absurd hleft hpassed
    · exact ih hrest hleft

/-- Of what a passed subject mixes in, the walk passes all whose names are left. -/
theorem exists_of_mem_mixins {host : Subject} (hhost : host ∈ r.lineageFrom left todo)
    (ht : t ∈ r.mixins host) (hleft : left.any (·.name == t.name) = true) :
    ∃ u ∈ r.lineageFrom left todo, u.name = t.name := by
  fun_induction lineageFrom r left todo with
  | case1 => cases hhost
  | case2 left s rest _ ih =>
    by_cases hname : s.name = t.name
    · exact ⟨s, List.mem_cons_self, hname⟩
    · have hleft' := any_name_without hleft hname
      -- the mixins of the subject at hand come next, those of the others are the business of the rest
      obtain ⟨v, hv, hvname⟩ : ∃ v ∈ r.lineageFrom (without s.name left) (r.mixins s ++ rest),
          v.name = t.name := by
        rcases List.mem_cons.mp hhost with rfl | hhost
        · exact exists_of_mem_todo (List.mem_append_left _ ht) hleft'
        · exact ih hhost hleft'
      exact ⟨v, List.mem_cons_of_mem _ hv, hvname⟩
  | case3 left s rest _ ih => exact ih hhost hleft

/-- What the walk passes was to be visited from the start or is mixed in by a subject passed before. -/
theorem mem_todo_or_mixin {before after : List Subject}
    (h : r.lineageFrom left todo = before ++ t :: after) :
    t ∈ todo ∨ ∃ host ∈ before, t ∈ r.mixins host := by
  fun_induction lineageFrom r left todo generalizing before with
  | case1 => simp at h
  | case2 left s rest _ ih =>
    cases before with
    | nil => exact .inl ((List.cons.inj h).1 ▸ List.mem_cons_self)
    | cons first before =>
      obtain ⟨rfl, htail⟩ := List.cons.inj h
      rcases ih htail with hnext | ⟨host, hhost, hmixin⟩
      · rcases List.mem_append.mp hnext with hmixin | hrest
        · exact .inr ⟨s, List.mem_cons_self, hmixin⟩
        · exact .inl (List.mem_cons_of_mem _ hrest)
      · exact .inr ⟨host, List.mem_cons_of_mem _ hhost, hmixin⟩
  | case3 left s rest _ ih => exact (ih h).imp_left (List.mem_cons_of_mem _)

/-! ## The least closed set -/

/-- The set holds the roots and all that its members mix in. -/
structure IsClosed (r : Registry) (roots : List Subject) (subjects : Set Subject) : Prop where
  root : ∀ t ∈ roots, t ∈ subjects
  mixin : ∀ s ∈ subjects, ∀ i ∈ s.includes, ∀ t, r.resolve i s.name = .ok t → t ∈ subjects

theorem lineage_eq (h : r.get? name = some s) :
    r.lineage name = r.lineageFrom r.subjects (s :: r.ancestors name) := by
  rw [lineage, h]

theorem isFound_of_mem_lineage (h : t ∈ r.lineage name) : r.IsFound t := by
  obtain ⟨before, after, hsplit⟩ := List.append_of_mem h
  unfold lineage at hsplit
  split at hsplit
  · next s hget =>
    rcases mem_todo_or_mixin hsplit with hroot | ⟨host, -, hmixin⟩
    · rcases List.mem_cons.mp hroot with rfl | hancestor
      · exact isFound_of_get? hget
      · exact isFound_of_mem_ancestors hancestor
    · exact isFound_of_mem_mixins hmixin
  · simp at hsplit

/-- A subject that lookups give is in the lineage if one of its name is. -/
theorem mem_lineage_of_name (ht : r.IsFound t) (h : ∃ u ∈ r.lineage name, u.name = t.name) :
    t ∈ r.lineage name := by
  obtain ⟨u, hu, hname⟩ := h
  exact (isFound_of_mem_lineage hu).eq_of_name ht hname ▸ hu

theorem IsFound.any_name (h : r.IsFound t) : r.subjects.any (·.name == t.name) = true :=
  any_name_iff.mpr ⟨t, h.mem_subjects, rfl⟩

theorem isClosed_lineage (h : r.get? name = some s) :
    r.IsClosed (s :: r.ancestors name) {t | t ∈ r.lineage name} := by
  constructor
  · intro t ht
    have hfound : r.IsFound t := by
      rcases List.mem_cons.mp ht with rfl | ht
      · exact isFound_of_get? h
      · exact isFound_of_mem_ancestors ht
    refine mem_lineage_of_name hfound ?_
    rw [lineage_eq h]
    exact exists_of_mem_todo ht hfound.any_name
  · intro host (hhost : host ∈ r.lineage name) i hi t ht
    have hmixin : t ∈ r.mixins host := mem_mixins_iff.mpr ⟨i, hi, ht⟩
    have hfound := isFound_of_mem_mixins hmixin
    refine mem_lineage_of_name hfound ?_
    rw [lineage_eq h] at hhost ⊢
    exact exists_of_mem_mixins hhost hmixin hfound.any_name

theorem lineage_isLeast (h : r.get? name = some s) :
    IsLeast {subjects | r.IsClosed (s :: r.ancestors name) subjects} {t | t ∈ r.lineage name} := by
  refine ⟨isClosed_lineage h, fun subjects hclosed t (ht : t ∈ r.lineage name) => ?_⟩
  rw [lineage_eq h] at ht
  refine mem_closed_of_mem_lineageFrom (fun host hhost u hu => ?_) hclosed.root t ht
  obtain ⟨i, hi, hresolve⟩ := mem_mixins_iff.mp hu
  exact hclosed.mixin host hhost i hi u hresolve

/-- The lineage of a subject begins with it and has no subject twice. It holds exactly the subject, its
ancestors and what these and their mixins mix in, and a subject that is neither the first nor an ancestor
stands behind one that mixes it in. -/
theorem lineage_closure (h : r.get? name = some s) :
    (r.lineage name).head? = some s ∧ (r.lineage name).Nodup ∧
    IsLeast {subjects | r.IsClosed (s :: r.ancestors name) subjects} {t | t ∈ r.lineage name} ∧
    ∀ before t after, r.lineage name = before ++ t :: after → t ≠ s → t ∉ r.ancestors name →
      ∃ host ∈ before, ∃ i ∈ host.includes, r.resolve i host.name = .ok t := by
  obtain ⟨rest, hlineage⟩ := lineage_cons h
  refine ⟨by rw [hlineage]; rfl, .of_map _ (nodup_lineage r name), lineage_isLeast h, ?_⟩
  intro before t after hsplit hfirst hancestor
  rw [lineage_eq h] at hsplit
  rcases mem_todo_or_mixin hsplit with hroot | ⟨host, hhost, hmixin⟩
  · exact absurd hroot (List.not_mem_cons_of_ne_of_not_mem hfirst hancestor)
  · exact ⟨host, hhost, mem_mixins_iff.mp hmixin⟩

/-! ## Mixins that lead back to their hosts -/

/-- A class with a parent, whose mixin is named from inside its own namespace. -/
def order : Subject where
  name := "Shop::Order"
  parent := some "Record"
  includes := ["Taxed"]

/-- A module that mixes in itself and another one. -/
def taxed : Subject where
  name := "Shop::Taxed"
  kind := .moduleDecl
  includes := ["Shop::Taxed", "Shop::Dated"]

/-- A module that mixes in the one it is mixed into. -/
def dated : Subject where
  name := "Shop::Dated"
  kind := .moduleDecl
  includes := ["Shop::Taxed"]

def record : Subject where
  name := "Record"
  includes := ["Shop::Dated", "Record"]

def shop : Registry := ⟨[record, taxed, order, dated]⟩

theorem get?_shop : shop.get? "Shop::Order" = some order := rfl

theorem ancestors_shop : shop.ancestors "Shop::Order" = [record] := by
  have hparents : shop.parent? order = some record ∧ shop.parent? record = none := ⟨rfl, rfl⟩
  have hleft : (without "Shop::Order" shop.subjects).any (·.name == record.name) = true := by decide
  rw [ancestors, get?_shop]
  dsimp only
  rw [ancestorsFrom, hparents.1]
  dsimp only
  rw [dif_pos hleft, if_pos (by decide), ancestorsFrom, hparents.2]

theorem mixins_shop : shop.mixins order = [taxed] ∧ shop.mixins taxed = [taxed, dated] ∧
    shop.mixins dated = [taxed] ∧ shop.mixins record = [dated, record] := by
  have hcut : Text.splitLast? [':', ':'] "Shop::Order".toList =
      some ("Shop".toList, "Order".toList) := by decide
  have hscoped : shop.resolve? "Taxed" "Shop::Order" = some taxed := by
    refine (resolve?_eq_some_iff (by unfold Distinct; decide) rfl rfl).mpr
      ⟨"Shop".toList, .outward hcut (.itself (by decide)), by simp [shop], by decide, ?_⟩
    intro inner hinner hlength
    rcases (encloses_iff_of_cut hcut).mp hinner with rfl | hinner
    · decide
    · exact absurd hinner.isPrefix.length_le (Nat.not_le.mpr hlength)
  refine ⟨?_, rfl, rfl, rfl⟩
  rw [mixins, show order.includes = ["Taxed"] from rfl, show order.name = "Shop::Order" from rfl,
    List.filterMap_cons, hscoped, List.filterMap_nil]

theorem lineage_shop : shop.lineage "Shop::Order" = [order, taxed, dated, record] := by
  have hnames : order.name = "Shop::Order" ∧ taxed.name = "Shop::Taxed" ∧
      dated.name = "Shop::Dated" ∧ record.name = "Record" := ⟨rfl, rfl, rfl, rfl⟩
  rw [lineage_eq get?_shop, ancestors_shop, show shop.subjects = [record, taxed, order, dated] from rfl]
  simp [lineageFrom, without, mixins_shop, hnames]

theorem lineage_closure_shop :
    shop.get? "Shop::Order" = some order ∧
    shop.lineage "Shop::Order" = [order, taxed, dated, record] ∧
    shop.ancestors "Shop::Order" = [record] ∧
    IsLeast {subjects | shop.IsClosed [order, record] subjects}
      {t | t ∈ [order, taxed, dated, record]} ∧
    ∃ host ∈ [order, taxed], ∃ i ∈ host.includes, shop.resolve i host.name = .ok dated := by
  obtain ⟨-, -, hleast, hbehind⟩ := lineage_closure get?_shop
  rw [ancestors_shop, lineage_shop] at hleast
  refine ⟨get?_shop, lineage_shop, ancestors_shop, hleast,
    hbehind [order, taxed] dated [record] lineage_shop ?_ ?_⟩
  · exact fun h => absurd (congrArg Subject.name h) (by decide)
  · rw [ancestors_shop, List.mem_singleton]
    exact fun h => absurd (congrArg Subject.name h) (by decide)

end DocWeave.Registry
