import DocWeave.Registry
import Mathlib.Data.List.Nodup

/-!
# Looking up subjects

What a lookup gives is registered. In a registry that was made from subjects, each name stands once,
so a subject is known by its name (`Distinct.eq_of_name`), and a subject whose name has no `::` in
front is what its name leads to (`get?_of_mem`).
-/

namespace DocWeave

open DocWeave.Text

theorem nodup_of_firstDuplicate? {seen names : List String} (h : firstDuplicate? seen names = none) :
    names.Nodup ∧ ∀ name ∈ names, name ∉ seen := by
  induction names generalizing seen with
  | nil => simp
  | cons name rest ih =>
    unfold firstDuplicate? at h
    split at h
    · cases h
    · next hnew =>
      have hname : name ∉ seen := by simpa using hnew
      obtain ⟨hnodup, hrest⟩ := ih h
      have hfirst : name ∉ rest := fun hmem => hrest name hmem List.mem_cons_self
      refine ⟨List.nodup_cons.mpr ⟨hfirst, hnodup⟩, fun other hother => ?_⟩
      rcases List.mem_cons.mp hother with rfl | hother
      · exact hname
      · exact fun hseen => hrest other hother (List.mem_cons_of_mem _ hseen)

theorem firstDuplicate?_of_nodup {seen names : List String} (h : names.Nodup)
    (hseen : ∀ name ∈ names, name ∉ seen) : firstDuplicate? seen names = none := by
  induction names generalizing seen with
  | nil => rfl
  | cons name rest ih =>
    obtain ⟨hname, hrest⟩ := List.nodup_cons.mp h
    rw [firstDuplicate?, if_neg (by simpa using hseen name List.mem_cons_self)]
    refine ih hrest fun other hother => List.not_mem_cons_of_ne_of_not_mem ?_ ?_
    · rintro rfl
      exact hname hother
    · exact hseen other (List.mem_cons_of_mem _ hother)

/-- A text that does not begin with `::` has nothing to drop. -/
theorem dropScopes_of_not_startsWith {s : List Char} (h : startsWith "::".toList s = false) :
    dropScopes s = s := by
  unfold dropScopes
  split
  · next rest => simp [startsWith, after?] at h
  · rfl

theorem length_dropScopes_le (s : List Char) : (dropScopes s).length ≤ s.length := by
  fun_induction dropScopes s with
  | case1 s ih => exact Nat.le_trans ih (by simp only [List.length_cons]; omega)
  | case2 => exact Nat.le_refl _

namespace Registry

variable {r : Registry} {name context : String} {s t : Subject}

theorem mem_of_get? (h : r.get? name = some s) : s ∈ r.subjects := List.mem_of_find?_eq_some h

/-- What a name means inside a context is registered under some full name. -/
theorem exists_get?_of_resolve? (h : r.resolve? name context = some s) :
    ∃ full, r.get? full = some s := by
  unfold resolve? at h
  split at h
  · next hget =>
    cases h
    exact ⟨_, hget⟩
  · split at h
    · cases h
    · obtain ⟨scope, -, hscope⟩ := List.exists_of_findSome?_eq_some h
      exact ⟨_, hscope⟩

theorem mem_of_resolve? (h : r.resolve? name context = some s) : s ∈ r.subjects := by
  obtain ⟨full, hfull⟩ := exists_get?_of_resolve? h
  exact mem_of_get? hfull

theorem resolve_eq_ok_iff : r.resolve name context = .ok s ↔ r.resolve? name context = some s := by
  unfold resolve
  cases r.resolve? name context <;> simp

theorem mem_of_parent? (h : r.parent? s = some t) : t ∈ r.subjects := by
  obtain ⟨parent, _, hparent⟩ := Option.bind_eq_some_iff.mp h
  exact mem_of_resolve? hparent

/-- Each name stands once. -/
def Distinct (r : Registry) : Prop := (r.subjects.map (·.name)).Nodup

/-- A registry that was made holds the given subjects, each name once. -/
theorem make_spec {subjects : List Subject} (h : make subjects = .ok r) :
    r.subjects = subjects ∧ r.Distinct := by
  unfold make at h
  split at h
  · cases h
  · next hnone =>
    cases h
    exact ⟨rfl, (nodup_of_firstDuplicate? hnone).1⟩

theorem Distinct.eq_of_name (h : r.Distinct) (hs : s ∈ r.subjects) (ht : t ∈ r.subjects)
    (hname : s.name = t.name) : s = t :=
  List.inj_on_of_nodup_map h hs ht hname

theorem Distinct.nodup (h : r.Distinct) : r.subjects.Nodup := List.Nodup.of_map _ h

/-- Subjects without repetition have names without repetition. -/
theorem Distinct.nodup_names (h : r.Distinct) {subjects : List Subject}
    (hsub : ∀ s ∈ subjects, s ∈ r.subjects) (hnodup : subjects.Nodup) :
    (subjects.map (·.name)).Nodup :=
  hnodup.map_on fun _ hs _ ht hname => h.eq_of_name (hsub _ hs) (hsub _ ht) hname

theorem Distinct.get?_of_mem (h : r.Distinct) (hs : s ∈ r.subjects)
    (hname : startsWith "::".toList s.name.toList = false) : r.get? s.name = some s := by
  have hfound : (r.subjects.find? (·.name == s.name)).isSome := by
    rw [List.find?_isSome]
    exact ⟨s, hs, beq_self_eq_true _⟩
  obtain ⟨t, ht⟩ := Option.isSome_iff_exists.mp hfound
  have htname : t.name = s.name := by simpa using List.find?_some ht
  rw [get?, dropScopes_of_not_startsWith hname, String.ofList_toList, ht,
    h.eq_of_name (List.mem_of_find?_eq_some ht) hs htname]

end Registry

end DocWeave
