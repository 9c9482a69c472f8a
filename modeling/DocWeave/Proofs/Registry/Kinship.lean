import DocWeave.Proofs.Registry.Lookup
import Mathlib.Data.List.Nodup
import Mathlib.Data.String.Basic

/-!
# Ancestors and descendants

Both walks follow the links from subjects to their registered parents: `Climbs r s path t` says that
these links lead from `s` through `path` up to `t`. Links may form cycles, but a climb between two
subjects can always be cut down to one that passes each subject once (`Climbs.exists_simple`). The
ancestors of a subject are what it climbs to through classes alone (`mem_ancestors_iff`), its descendants
are the subjects that climb to it (`mem_descendants_iff`).
-/

namespace DocWeave.Registry

open DocWeave.Text

variable {r : Registry} {s t a d : Subject} {path : List Subject}

/-! ## Climbing -/

/-- From `s` the parents lead through `path`, the last subject of which is `t`. -/
inductive Climbs (r : Registry) : Subject → List Subject → Subject → Prop
  | parent {s p : Subject} : r.parent? s = some p → Climbs r s [p] p
  | step {s p t : Subject} {path : List Subject} :
      r.parent? s = some p → Climbs r p path t → Climbs r s (p :: path) t

theorem Climbs.mem_subjects (h : Climbs r s path t) : ∀ u ∈ path, u ∈ r.subjects := by
  induction h with
  | parent hp =>
    intro u hu
    rw [List.mem_singleton.mp hu]
    exact mem_of_parent? hp
  | step hp _ ih =>
    intro u hu
    rcases List.mem_cons.mp hu with rfl | hu
    · exact mem_of_parent? hp
    · exact ih u hu

theorem Climbs.target_mem (h : Climbs r s path t) : t ∈ path := by
  induction h with
  | parent _ => exact List.mem_singleton_self _
  | step _ _ ih => exact List.mem_cons_of_mem _ ih

/-- The rest of a climb behind a subject on its way. -/
theorem Climbs.after {u : Subject} (h : Climbs r s path t) (hu : u ∈ path) (hne : u ≠ t) :
    ∃ back, Climbs r u back t ∧ (u :: back) <:+ path := by
  induction h with
  | parent _ => exact absurd (List.mem_singleton.mp hu) hne
  | step hp hrest ih =>
    rcases List.mem_cons.mp hu with rfl | hu
    · exact ⟨_, hrest, List.suffix_refl _⟩
    · obtain ⟨back, hback, hsuffix⟩ := ih hu hne
      exact ⟨back, hback, hsuffix.trans (List.suffix_cons _ _)⟩

/-- A climb can be cut down to one that passes no subject twice. -/
theorem Climbs.exists_simple (h : Climbs r s path t) (hne : s ≠ t) :
    ∃ simple, Climbs r s simple t ∧ simple ⊆ path ∧ (s :: simple).Nodup := by
  induction h with
  | parent hp => exact ⟨_, .parent hp, List.Subset.refl _, by simpa using hne⟩
  | @step s p t path hp hrest ih =>
    by_cases hpt : p = t
    · subst hpt
      exact ⟨[p], .parent hp, by simp, by simpa using hne⟩
    · obtain ⟨simple, hsimple, hsub, hnodup⟩ := ih hpt
      by_cases hs : s ∈ p :: simple
      · -- The climb comes back to its beginning: what it did before is left out.
        obtain ⟨back, hback, hsuffix⟩ := (Climbs.step hp hsimple).after hs hne
        have hpart : back ⊆ p :: simple := fun u hu => hsuffix.subset (List.mem_cons_of_mem _ hu)
        exact ⟨back, hback, fun u hu => List.cons_subset_cons _ hsub (hpart hu),
          hnodup.sublist hsuffix.sublist⟩
      · exact ⟨p :: simple, .step hp hsimple, List.cons_subset_cons _ hsub,
          List.nodup_cons.mpr ⟨hs, hnodup⟩⟩

theorem Climbs.not_mem_dropLast (h : Climbs r s path t) (hnodup : path.Nodup) :
    t ∉ path.dropLast := by
  induction h with
  | parent _ => simp
  | @step s p t path hp hrest ih =>
    have hparts := List.nodup_cons.mp hnodup
    have hne : path ≠ [] := List.ne_nil_of_mem hrest.target_mem
    rw [List.dropLast_cons_of_ne_nil hne, List.mem_cons, not_or]
    exact ⟨fun htp => hparts.1 (htp ▸ hrest.target_mem), ih hparts.2⟩

/-! ## Ancestors -/

theorem mem_without {name : String} {subjects : List Subject} :
    s ∈ without name subjects ↔ s ∈ subjects ∧ s.name ≠ name := by
  simp [without]

theorem any_name_iff {name : String} {subjects : List Subject} :
    subjects.any (·.name == name) = true ↔ ∃ s ∈ subjects, s.name = name := by
  simp

theorem mem_of_mem_ancestorsFrom {left : List Subject} (h : s ∈ r.ancestorsFrom left t) :
    s ∈ r.subjects := by
  fun_induction ancestorsFrom r left t with
  | case1 => cases h
  | case2 left t p hp _ _ ih =>
    rcases List.mem_cons.mp h with rfl | h
    · exact mem_of_parent? hp
    · exact ih h
  | case3 => cases h
  | case4 => cases h

/-- The walk passes only names that are left. -/
theorem name_left_of_mem_ancestorsFrom {left : List Subject} (h : s ∈ r.ancestorsFrom left t) :
    ∃ u ∈ left, u.name = s.name := by
  fun_induction ancestorsFrom r left t with
  | case1 => cases h
  | case2 left t p _ hleft _ ih =>
    rcases List.mem_cons.mp h with rfl | h
    · exact any_name_iff.mp hleft
    · obtain ⟨u, hu, hname⟩ := ih h
      exact ⟨u, (mem_without.mp hu).1, hname⟩
  | case3 => cases h
  | case4 => cases h

/-- The walk passes no name twice. -/
theorem nodup_ancestorsFrom (r : Registry) (left : List Subject) (t : Subject) :
    ((r.ancestorsFrom left t).map (·.name)).Nodup := by
  fun_induction ancestorsFrom r left t with
  | case1 => exact List.nodup_nil
  | case2 left t p _ _ _ ih =>
    refine List.nodup_cons.mpr ⟨fun hmem => ?_, ih⟩
    obtain ⟨u, hu, hname⟩ := List.mem_map.mp hmem
    obtain ⟨v, hv, hvname⟩ := name_left_of_mem_ancestorsFrom hu
    exact (mem_without.mp hv).2 (hvname.trans hname)
  | case3 => exact List.nodup_nil
  | case4 => exact List.nodup_nil

/-- The walk climbs through classes. -/
theorem climbs_of_mem_ancestorsFrom {left : List Subject} (h : s ∈ r.ancestorsFrom left t) :
    ∃ path, Climbs r t path s ∧ ∀ u ∈ path, u.kind = .classDecl := by
  fun_induction ancestorsFrom r left t with
  | case1 => cases h
  | case2 left t p hp _ hclass ih =>
    rcases List.mem_cons.mp h with rfl | h
    · exact ⟨[s], .parent hp, by simpa using hclass⟩
    · obtain ⟨path, hpath, hclasses⟩ := ih h
      exact ⟨p :: path, .step hp hpath, List.forall_mem_cons.mpr ⟨hclass, hclasses⟩⟩
  | case3 => cases h
  | case4 => cases h

/-- The walk does not end before the end of a simple climb through classes that are left. -/
theorem Climbs.mem_ancestorsFrom {left : List Subject} (h : Climbs r t path s)
    (hclasses : ∀ u ∈ path, u.kind = .classDecl) (hleft : ∀ u ∈ path, u ∈ left)
    (hnodup : (path.map (·.name)).Nodup) : s ∈ r.ancestorsFrom left t := by
  induction h generalizing left with
  | @parent t p hp =>
    have hany : left.any (·.name == p.name) = true := any_name_iff.mpr ⟨p, hleft p (by simp), rfl⟩
    rw [ancestorsFrom, hp]
    dsimp only
    rw [dif_pos hany, if_pos (hclasses p (by simp))]
    exact List.mem_cons_self
  | @step t p s path hp hrest ih =>
    have hany : left.any (·.name == p.name) = true := any_name_iff.mpr ⟨p, hleft p (by simp), rfl⟩
    have hparts := List.nodup_cons.mp hnodup
    rw [ancestorsFrom, hp]
    dsimp only
    rw [dif_pos hany, if_pos (hclasses p (by simp))]
    refine List.mem_cons_of_mem _ (ih (fun u hu => hclasses u (List.mem_cons_of_mem _ hu))
      (fun u hu => mem_without.mpr ⟨hleft u (List.mem_cons_of_mem _ hu), fun hname => ?_⟩) hparts.2)
    exact hparts.1 (List.mem_map.mpr ⟨u, hu, hname⟩)

/-- A registry in which every subject is found under its own name. -/
structure Regular (r : Registry) : Prop where
  distinct : r.Distinct
  unscoped : ∀ s ∈ r.subjects, startsWith "::".toList s.name.toList = false

theorem Regular.get?_name (h : r.Regular) (hs : s ∈ r.subjects) : r.get? s.name = some s :=
  h.distinct.get?_of_mem hs (h.unscoped s hs)

theorem Regular.ancestors_eq (h : r.Regular) (hd : d ∈ r.subjects) :
    r.ancestors d.name = r.ancestorsFrom (without d.name r.subjects) d := by
  rw [ancestors, h.get?_name hd]

/-- The ancestors of a subject are the others that it climbs to through classes. -/
theorem mem_ancestors_iff (h : r.Regular) (hd : d ∈ r.subjects) :
    a ∈ r.ancestors d.name ↔
      d ≠ a ∧ ∃ path, Climbs r d path a ∧ ∀ u ∈ path, u.kind = .classDecl := by
  rw [h.ancestors_eq hd]
  constructor
  · intro ha
    obtain ⟨u, hu, hname⟩ := name_left_of_mem_ancestorsFrom ha
    refine ⟨?_, climbs_of_mem_ancestorsFrom ha⟩
    rintro rfl
    exact (mem_without.mp hu).2 hname
  · rintro ⟨hne, path, hpath, hclasses⟩
    obtain ⟨simple, hsimple, hsub, hnodup⟩ := hpath.exists_simple hne
    obtain ⟨hd', hsimple'⟩ := List.nodup_cons.mp hnodup
    refine hsimple.mem_ancestorsFrom (fun u hu => hclasses u (hsub hu)) (fun u hu => ?_)
      (h.distinct.nodup_names hsimple.mem_subjects hsimple')
    have hmem := hsimple.mem_subjects u hu
    refine mem_without.mpr ⟨hmem, fun hname => hd' ?_⟩
    rwa [← h.distinct.eq_of_name hmem hd hname]

/-! ## Descendants -/

theorem isChildOf_iff {name : String} :
    r.isChildOf name s = true ↔ ∃ p, r.parent? s = some p ∧ p.name = name := by
  simp [isChildOf, Option.any_eq_true_iff_get, Option.eq_some_iff_get_eq]

theorem mem_childrenIn {name : String} {left : List Subject} :
    s ∈ r.childrenIn name left ↔ s ∈ left ∧ r.isChildOf name s = true := by
  simp [childrenIn]

theorem mem_othersIn {name : String} {left : List Subject} :
    s ∈ r.othersIn name left ↔ s ∈ left ∧ r.isChildOf name s = false := by
  simp [othersIn]

/-- The parents lead from `s` through subjects that are left to one of the names. -/
inductive Below (r : Registry) (left : List Subject) (names : List String) : Subject → Prop
  | child {s : Subject} {name : String} :
      s ∈ left → name ∈ names → r.isChildOf name s = true → Below r left names s
  | deeper {s p : Subject} :
      s ∈ left → r.parent? s = some p → Below r left names p → Below r left names s

theorem Below.mem_left {left : List Subject} {names : List String} (h : Below r left names s) :
    s ∈ left := by
  cases h with
  | child hs _ _ => exact hs
  | deeper hs _ _ => exact hs

/-- What is below the name at hand is its child, or below the names that come next. -/
theorem Below.advance {left : List Subject} {name : String} {rest : List String}
    (h : Below r left (name :: rest) s) :
    s ∈ r.childrenIn name left ∨
      Below r (r.othersIn name left) ((r.childrenIn name left).map (·.name) ++ rest) s := by
  induction h with
  | @child s other hs hother hchild =>
    by_cases hname : r.isChildOf name s = true
    · exact .inl (mem_childrenIn.mpr ⟨hs, hname⟩)
    · have hs' := mem_othersIn.mpr ⟨hs, by simpa using hname⟩
      have hrest : other ∈ rest := by
        rcases List.mem_cons.mp hother with rfl | hrest
        · exact absurd hchild hname
        · exact hrest
      exact .inr (.child hs' (List.mem_append_right _ hrest) hchild)
  | @deeper s p hs hp _ ih =>
    by_cases hname : r.isChildOf name s = true
    · exact .inl (mem_childrenIn.mpr ⟨hs, hname⟩)
    · have hs' := mem_othersIn.mpr ⟨hs, by simpa using hname⟩
      refine .inr ?_
      rcases ih with hpchild | hpbelow
      · exact .child hs' (List.mem_append_left _ (List.mem_map_of_mem hpchild))
          (isChildOf_iff.mpr ⟨p, hp, rfl⟩)
      · exact .deeper hs' hp hpbelow

/-- Nothing is below a name without children but what is below the names behind it. -/
theorem Below.skip {left : List Subject} {name : String} {rest : List String}
    (h : Below r left (name :: rest) s) (hnone : ¬ left.any (r.isChildOf name) = true) :
    Below r left rest s := by
  induction h with
  | child hs hother hchild =>
    rcases List.mem_cons.mp hother with rfl | hrest
    · exact absurd (List.any_eq_true.mpr ⟨_, hs, hchild⟩) hnone
    · exact .child hs hrest hchild
  | deeper hs hp _ ih => exact .deeper hs hp ih

theorem Below.mono {left left' : List Subject} {names names' : List String}
    (h : Below r left names s) (hleft : ∀ u ∈ left, u ∈ left') (hnames : ∀ n ∈ names, n ∈ names') :
    Below r left' names' s := by
  induction h with
  | child hs hname hchild => exact .child (hleft _ hs) (hnames _ hname) hchild
  | deeper hs hp _ ih => exact .deeper (hleft _ hs) hp ih

/-- What is below the names that come next is below the name at hand. -/
theorem Below.retreat (hr : r.Distinct) {left : List Subject} {name : String} {rest : List String}
    (hsub : ∀ u ∈ left, u ∈ r.subjects)
    (h : Below r (r.othersIn name left) ((r.childrenIn name left).map (·.name) ++ rest) s) :
    Below r left (name :: rest) s := by
  induction h with
  | @child s other hs hother hchild =>
    have hs' := (mem_othersIn.mp hs).1
    rcases List.mem_append.mp hother with hother | hrest
    · obtain ⟨c, hc, rfl⟩ := List.mem_map.mp hother
      obtain ⟨hcleft, hcchild⟩ := mem_childrenIn.mp hc
      obtain ⟨p, hp, hpname⟩ := isChildOf_iff.mp hchild
      have hpc : p = c := hr.eq_of_name (mem_of_parent? hp) (hsub c hcleft) hpname
      exact .deeper hs' hp (hpc ▸ .child hcleft List.mem_cons_self hcchild)
    · exact .child hs' (List.mem_cons_of_mem _ hrest) hchild
  | deeper hs hp _ ih => exact .deeper (mem_othersIn.mp hs).1 hp ih

/-- The search finds exactly what is below the names. -/
theorem mem_descendantsFrom_iff (hr : r.Distinct) {left : List Subject} {names : List String}
    (hsub : ∀ u ∈ left, u ∈ r.subjects) :
    s ∈ r.descendantsFrom left names ↔ Below r left names s := by
  fun_induction descendantsFrom r left names with
  | case1 left =>
    refine iff_of_false List.not_mem_nil fun h => ?_
    induction h with
    | child _ hname _ => cases hname
    | deeper _ _ _ ih => exact ih
  | case2 left name rest _ ih =>
    rw [List.mem_append, ih fun u hu => hsub u (mem_othersIn.mp hu).1]
    constructor
    · rintro (hchild | hbelow)
      · obtain ⟨hs, hchild⟩ := mem_childrenIn.mp hchild
        exact .child hs List.mem_cons_self hchild
      · exact hbelow.retreat hr hsub
    · exact Below.advance
  | case3 left name rest hnone ih =>
    rw [ih hsub]
    exact ⟨fun h => h.mono (fun _ hu => hu) fun _ hn => List.mem_cons_of_mem _ hn,
      fun h => h.skip hnone⟩

/-- The search finds nothing twice. -/
theorem nodup_descendantsFrom (hr : r.Distinct) {left : List Subject} {names : List String}
    (hsub : ∀ u ∈ left, u ∈ r.subjects) (hleft : left.Nodup) :
    (r.descendantsFrom left names).Nodup := by
  fun_induction descendantsFrom r left names with
  | case1 => exact List.nodup_nil
  | case2 left name rest _ ih =>
    have hsub' : ∀ u ∈ r.othersIn name left, u ∈ r.subjects := fun u hu =>
      hsub u (mem_othersIn.mp hu).1
    refine List.nodup_append.mpr ⟨hleft.filter _, ih hsub' (hleft.filter _), ?_⟩
    rintro u hchild v hv rfl
    have hother := ((mem_descendantsFrom_iff hr hsub').mp hv).mem_left
    have hno := (mem_othersIn.mp hother).2
    rw [(mem_childrenIn.mp hchild).2] at hno
    cases hno
  | case3 _ _ _ _ ih => exact ih hsub hleft

theorem Below.climbs (hr : r.Distinct) (ha : a ∈ r.subjects) {left : List Subject}
    (h : Below r left [a.name] s) : ∃ path, Climbs r s path a := by
  induction h with
  | child _ hname hchild =>
    obtain ⟨p, hp, hpname⟩ := isChildOf_iff.mp hchild
    have hpa : p = a := hr.eq_of_name (mem_of_parent? hp) ha (hpname.trans (List.mem_singleton.mp hname))
    exact ⟨[p], hpa ▸ .parent hp⟩
  | deeper _ hp _ ih =>
    obtain ⟨path, hpath⟩ := ih
    exact ⟨_ :: path, .step hp hpath⟩

/-- A simple climb begins elsewhere than it ends. -/
theorem Climbs.mem_without (hr : r.Distinct) (h : Climbs r s path a) (hs : s ∈ r.subjects)
    (hnodup : (s :: path).Nodup) : s ∈ without a.name r.subjects := by
  refine Registry.mem_without.mpr ⟨hs, fun hname => (List.nodup_cons.mp hnodup).1 ?_⟩
  rw [hr.eq_of_name hs (h.mem_subjects a h.target_mem) hname]
  exact h.target_mem

/-- A simple climb stays below its end. -/
theorem Climbs.isBelow (hr : r.Distinct) (h : Climbs r s path a) (hs : s ∈ r.subjects)
    (hnodup : (s :: path).Nodup) : Below r (without a.name r.subjects) [a.name] s := by
  have hleft := h.mem_without hr hs hnodup
  induction h with
  | parent hp => exact .child hleft List.mem_cons_self (isChildOf_iff.mpr ⟨_, hp, rfl⟩)
  | step hp hrest ih =>
    have hparts := (List.nodup_cons.mp hnodup).2
    have hpmem := mem_of_parent? hp
    exact .deeper hleft hp (ih hpmem hparts (hrest.mem_without hr hpmem hparts))

/-- The search for descendants, in the order of the names. -/
def foundBelow (r : Registry) (a : Subject) : List Subject :=
  (r.descendantsFrom (without a.name r.subjects) [a.name]).mergeSort fun x y => x.name ≤ y.name

theorem mem_foundBelow_iff (hr : r.Distinct) :
    s ∈ r.foundBelow a ↔ Below r (without a.name r.subjects) [a.name] s := by
  rw [foundBelow, List.mem_mergeSort]
  exact mem_descendantsFrom_iff hr fun u hu => (mem_without.mp hu).1

theorem mem_left_of_foundBelow (hr : r.Distinct) (h : s ∈ r.foundBelow a) :
    s ∈ without a.name r.subjects :=
  ((mem_foundBelow_iff hr).mp h).mem_left

theorem Regular.descendants_eq (h : r.Regular) (a : Subject) :
    r.descendants a.name = r.foundBelow a := by
  have hfound : ∀ x ∈ r.foundBelow a, r.get? x.name = some x := fun x hx =>
    h.get?_name (mem_without.mp (mem_left_of_foundBelow h.distinct hx)).1
  show (r.foundBelow a).filterMap (fun x => r.get? x.name) = _
  rw [List.filterMap_congr hfound, List.filterMap_some]

/-- The descendants of a subject are the others that climb to it. -/
theorem mem_descendants_iff (h : r.Regular) (ha : a ∈ r.subjects) (hd : d ∈ r.subjects) :
    d ∈ r.descendants a.name ↔ d ≠ a ∧ ∃ path, Climbs r d path a := by
  rw [h.descendants_eq, mem_foundBelow_iff h.distinct]
  constructor
  · intro hbelow
    refine ⟨?_, hbelow.climbs h.distinct ha⟩
    rintro rfl
    exact (mem_without.mp hbelow.mem_left).2 rfl
  · rintro ⟨hne, path, hpath⟩
    obtain ⟨simple, hsimple, _, hnodup⟩ := hpath.exists_simple hne
    exact hsimple.isBelow h.distinct hd hnodup

/-- The descendants are in the order of their names, no name twice. -/
theorem pairwise_descendants (h : r.Regular) (a : Subject) :
    (r.descendants a.name).Pairwise fun x y => x.name < y.name := by
  have hsub : ∀ u ∈ without a.name r.subjects, u ∈ r.subjects := fun u hu => (mem_without.mp hu).1
  have hnodup : (r.descendantsFrom (without a.name r.subjects) [a.name]).Nodup :=
    nodup_descendantsFrom h.distinct hsub (h.distinct.nodup.filter _)
  have hperm := List.mergeSort_perm (r.descendantsFrom (without a.name r.subjects) [a.name])
    fun x y => decide (x.name ≤ y.name)
  have hdecided : (r.foundBelow a).Pairwise fun x y => decide (x.name ≤ y.name) = true := by
    refine List.pairwise_mergeSort (fun x y z hxy hyz => ?_) (fun x y => ?_) _
    · rw [decide_eq_true_eq] at hxy hyz ⊢
      exact le_trans hxy hyz
    · simpa using le_total x.name y.name
  have hsorted : (r.foundBelow a).Pairwise fun x y => x.name ≤ y.name :=
    hdecided.imp fun hxy => by simpa using hxy
  have hnames : ((r.foundBelow a).map (·.name)).Nodup :=
    h.distinct.nodup_names (fun u hu => hsub u (mem_left_of_foundBelow h.distinct hu))
      (hperm.nodup_iff.mpr hnodup)
  rw [h.descendants_eq]
  exact hsorted.imp₂ (fun _ _ hle hne => lt_of_le_of_ne hle hne) (List.pairwise_map.mp hnames)

/-! ## Duality -/

/-- Whoever has a subject among its ancestors is among the descendants of it, and the other way round
where only classes lie between. Cycles of parents and parents that are not registered change nothing of
this. -/
theorem ancestors_descendants_dual {subjects : List Subject} (hmake : make subjects = .ok r)
    (hunscoped : ∀ s ∈ r.subjects, startsWith "::".toList s.name.toList = false)
    (ha : a ∈ r.subjects) (hd : d ∈ r.subjects) :
    (((r.ancestors d.name).map (·.name)).Nodup ∧ ∀ s ∈ r.ancestors d.name, s.name ≠ d.name) ∧
    ((r.descendants a.name).Pairwise (fun x y => x.name < y.name) ∧
      ∀ s ∈ r.descendants a.name, s.name ≠ a.name) ∧
    (a ∈ r.ancestors d.name → d ∈ r.descendants a.name) ∧
    (d ∈ r.descendants a.name →
      (∀ path, Climbs r d path a → a ∉ path.dropLast → ∀ s ∈ path, s.kind = .classDecl) →
      a ∈ r.ancestors d.name) := by
  have hr : r.Regular := ⟨(make_spec hmake).2, hunscoped⟩
  refine ⟨⟨?_, fun s hs => ?_⟩, ⟨pairwise_descendants hr a, fun s hs => ?_⟩, fun h => ?_,
    fun h hclasses => ?_⟩
  · rw [hr.ancestors_eq hd]
    exact nodup_ancestorsFrom r _ d
  · rw [hr.ancestors_eq hd] at hs
    obtain ⟨u, hu, hname⟩ := name_left_of_mem_ancestorsFrom hs
    exact hname ▸ (mem_without.mp hu).2
  · rw [hr.descendants_eq] at hs
    exact (mem_without.mp (mem_left_of_foundBelow hr.distinct hs)).2
  · obtain ⟨hne, path, hpath, _⟩ := (mem_ancestors_iff hr hd).mp h
    exact (mem_descendants_iff hr ha hd).mpr ⟨hne, path, hpath⟩
  · obtain ⟨hne, path, hpath⟩ := (mem_descendants_iff hr ha hd).mp h
    obtain ⟨simple, hsimple, _, hnodup⟩ := hpath.exists_simple hne
    have hlast := hsimple.not_mem_dropLast (List.nodup_cons.mp hnodup).2
    exact (mem_ancestors_iff hr hd).mpr ⟨hne, simple, hsimple, hclasses simple hsimple hlast⟩

/-- A class with a parent. -/
def derived (name parent : String) : Subject := { name, parent := some parent }

/-- Three classes that inherit from each other, one below them, and one whose parent is missing. -/
def ring : Registry :=
  ⟨[derived "Ring::A" "B", derived "Ring::B" "C", derived "Ring::C" "A", derived "Leaf" "Ring::A",
    derived "Stray" "Missing"]⟩

theorem ancestors_descendants_dual_ring :
    make ring.subjects = .ok ring ∧
    (∀ s ∈ ring.subjects, startsWith "::".toList s.name.toList = false) ∧
    derived "Ring::C" "A" ∈ ring.subjects ∧ derived "Leaf" "Ring::A" ∈ ring.subjects ∧
    derived "Leaf" "Ring::A" ∈ ring.descendants "Ring::C" ∧
    derived "Ring::C" "A" ∈ ring.ancestors "Leaf" := by
  have hmake : make ring.subjects = .ok ring := rfl
  have hunscoped : ∀ s ∈ ring.subjects, startsWith "::".toList s.name.toList = false := by
    decide
  have ha : derived "Ring::C" "A" ∈ ring.subjects := by simp [ring]
  have hd : derived "Leaf" "Ring::A" ∈ ring.subjects := by simp [ring]
  have hwalk : ring.ancestors "Leaf" =
      [derived "Ring::A" "B", derived "Ring::B" "C", derived "Ring::C" "A"] := by cbv
  have hclass : ∀ s ∈ ring.subjects, s.kind = .classDecl := by decide
  obtain ⟨-, -, hdown, hup⟩ := ancestors_descendants_dual hmake hunscoped ha hd
  have hfound := hdown (by rw [derived, hwalk]; simp [derived])
  exact ⟨hmake, hunscoped, ha, hd, hfound,
    hup hfound fun path hpath _ s hs => hclass s (hpath.mem_subjects s hs)⟩

end DocWeave.Registry
