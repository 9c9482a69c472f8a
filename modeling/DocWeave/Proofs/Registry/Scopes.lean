import DocWeave.Proofs.Registry.Lookup
import Mathlib.Data.List.Pairwise

/-!
# What a name means inside a scope

A name is looked for as it stands, and then inside the scopes around the place where it is written, from
the innermost outwards: `Encloses scope context` says which scopes these are. What is found is what is
registered in the longest of them that has the name (`resolve?_eq_some_iff`). A lookup leaves out `::` in
front of a name, but a registration does not, so a subject that is registered with it is the meaning of
no name, not even of its own (`resolve_own_name_iff`).
-/

namespace DocWeave

open DocWeave.Text

/-! ## Scopes -/

/-- The scope is the context itself, or one of the namespaces around it. The namespace of a name is what
stands before its last `::`. -/
inductive Encloses (scope : List Char) : List Char → Prop
  | itself : scope ≠ [] → Encloses scope scope
  | outward {context front last : List Char} :
      splitLast? [':', ':'] context = some (front, last) → Encloses scope front →
      Encloses scope context

/-- Around a name with a namespace are the name itself and the scopes around the namespace. -/
theorem encloses_iff_of_cut {scope context front last : List Char}
    (h : splitLast? [':', ':'] context = some (front, last)) :
    Encloses scope context ↔ scope = context ∨ Encloses scope front := by
  constructor
  · rintro (_ | ⟨hcut, hfront⟩)
    · exact .inl rfl
    · rw [h] at hcut
      cases hcut
      exact .inr hfront
  · rintro (rfl | hfront)
    · refine .itself ?_
      rintro rfl
      cases h
    · exact .outward h hfront

/-- Around a name without a namespace there is only the name itself. -/
theorem encloses_iff_of_whole {scope context : List Char} (hne : context ≠ [])
    (h : splitLast? [':', ':'] context = none) : Encloses scope context ↔ scope = context := by
  constructor
  · rintro (_ | ⟨hcut, -⟩)
    · rfl
    · rw [h] at hcut
      cases hcut
  · rintro rfl
    exact .itself hne

theorem Encloses.ne_nil {scope context : List Char} (h : Encloses scope context) : scope ≠ [] := by
  induction h with
  | itself hne => exact hne
  | outward _ _ ih => exact ih

/-- A scope is the beginning of the context. -/
theorem Encloses.isPrefix {scope context : List Char} (h : Encloses scope context) :
    scope <+: context := by
  induction h with
  | itself _ => exact List.prefix_rfl
  | outward hcut _ ih =>
    rw [eq_of_splitLast? hcut, List.append_assoc]
    exact ih.trans (List.prefix_append _ _)

theorem mem_scopes_iff {scope context : List Char} :
    scope ∈ scopes context ↔ Encloses scope context := by
  fun_induction scopes context with
  | case1 context hempty =>
    refine iff_of_false List.not_mem_nil fun h => ?_
    exact h.ne_nil (List.prefix_nil.mp (List.isEmpty_iff.mp hempty ▸ h.isPrefix))
  | case2 context _ front last hcut ih => rw [List.mem_cons, ih, encloses_iff_of_cut hcut]
  | case3 context hne hwhole =>
    rw [List.mem_singleton, encloses_iff_of_whole (by simpa using hne) hwhole]

/-- The scopes go from the longest to the shortest. -/
theorem pairwise_scopes (context : List Char) :
    (scopes context).Pairwise fun inner outer => outer.length < inner.length := by
  fun_induction scopes context with
  | case1 => exact .nil
  | case2 context _ front last hcut ih =>
    refine .cons (fun scope hscope => ?_) ih
    have hle := (mem_scopes_iff.mp hscope).isPrefix.length_le
    have hlength := congrArg List.length (eq_of_splitLast? hcut)
    simp only [List.length_append, List.length_cons, List.length_nil] at hlength
    omega
  | case3 => exact List.pairwise_singleton _ _

/-! ## Names -/

/-- The full name that a name has inside a scope, without `::` in front. -/
def scopedName (scope : List Char) (name : String) : String :=
  String.ofList (dropScopes (scope ++ "::".toList ++ name.toList))

/-- Inside a context that does not begin with a colon, the full name is the name as it is written. -/
theorem scopedName_of_head? {scope context : List Char} (name : String) (h : Encloses scope context)
    (hcolon : context.head? ≠ some ':') :
    scopedName scope name = String.ofList scope ++ "::" ++ name := by
  obtain ⟨c, rest, rfl⟩ := List.exists_cons_of_ne_nil h.ne_nil
  obtain ⟨behind, hcontext⟩ := h.isPrefix
  have hc : ':' ≠ c := by
    rintro rfl
    exact hcolon (by rw [← hcontext]; rfl)
  have hplain : startsWith "::".toList (c :: rest ++ "::".toList ++ name.toList) = false := by
    simp [startsWith, after?, hc]
  rw [scopedName, dropScopes_of_not_startsWith hplain]
  apply String.toList_inj.mp
  simp

/-- A name that begins with `::` is not what is left when this is dropped. -/
theorem dropScopes_ne_self {s : List Char} (h : startsWith "::".toList s = true) :
    dropScopes s ≠ s := by
  obtain ⟨rest, hrest⟩ := Option.isSome_iff_exists.mp h
  obtain rfl := after?_eq_some_iff.mp hrest
  intro hself
  have hle := length_dropScopes_le rest
  have hlength := congrArg List.length hself
  rw [show dropScopes ("::".toList ++ rest) = dropScopes rest from dropScopes.eq_1 rest] at hlength
  simp only [List.length_append] at hlength
  have hmark : "::".toList.length = 2 := rfl
  omega

namespace Registry

variable {r : Registry} {name context : String} {s t : Subject}

theorem Distinct.get?_eq_some_iff (h : r.Distinct) :
    r.get? name = some s ↔ s ∈ r.subjects ∧ s.name = String.ofList (dropScopes name.toList) := by
  constructor
  · intro hget
    exact ⟨mem_of_get? hget, by simpa using List.find?_some hget⟩
  · rintro ⟨hs, hname⟩
    obtain ⟨t, ht⟩ : ∃ t, r.get? name = some t := by
      rw [← Option.isSome_iff_exists, get?, List.find?_isSome]
      exact ⟨s, hs, by simpa using hname⟩
    have htname : t.name = s.name := by rw [hname]; simpa using List.find?_some ht
    rw [ht, h.eq_of_name (mem_of_get? ht) hs htname]

theorem Distinct.get?_eq_none_iff (h : r.Distinct) :
    r.get? name = none ↔ ∀ s ∈ r.subjects, s.name ≠ String.ofList (dropScopes name.toList) := by
  rw [Option.eq_none_iff_forall_ne_some]
  simp only [ne_eq, h.get?_eq_some_iff, not_and]

/-- The meaning of a name that is no full name is found by walking outwards. -/
theorem resolve?_of_get?_none (hget : r.get? name = none)
    (hname : startsWith "::".toList name.toList = false) :
    r.resolve? name context =
      (scopes context.toList).findSome? fun scope => r.get? (String.ofList scope ++ "::" ++ name) := by
  rw [resolve?, hget]
  dsimp only
  rw [hname]
  rfl

/-- A subject is the meaning of its own name, wherever this is written, unless the name begins with
`::`; then it is never. -/
theorem resolve_own_name_iff (h : r.Distinct) (hs : s ∈ r.subjects) (context : String) :
    r.resolve s.name context = .ok s ↔ startsWith "::".toList s.name.toList = false := by
  rw [resolve_eq_ok_iff]
  constructor
  · intro hresolve
    by_contra hmark
    rw [Bool.not_eq_false] at hmark
    have hget : r.get? s.name = some s := by
      unfold resolve? at hresolve
      split at hresolve
      · next hget => rw [hget, hresolve]
      · rw [if_pos hmark] at hresolve
        cases hresolve
    have hname := (h.get?_eq_some_iff.mp hget).2
    exact dropScopes_ne_self hmark (String.ofList_injective (by rw [← hname, String.ofList_toList]))
  · intro hmark
    rw [resolve?, h.get?_of_mem hs hmark]

theorem Distinct.get?_scoped (h : r.Distinct) {scope : List Char} :
    r.get? (String.ofList scope ++ "::" ++ name) = some t ↔
      t ∈ r.subjects ∧ t.name = scopedName scope name := by
  rw [h.get?_eq_some_iff, scopedName]
  simp only [String.toList_append, String.toList_ofList]

/-- In a list that goes from the longest to the shortest, the first answer comes from the longest text
that has one. -/
theorem findSome?_longest {texts : List (List Char)} {f : List Char → Option Subject}
    (h : texts.Pairwise fun inner outer => outer.length < inner.length) :
    texts.findSome? f = some t ↔
      ∃ text ∈ texts, f text = some t ∧ ∀ longer ∈ texts, text.length < longer.length →
        f longer = none := by
  rw [List.findSome?_eq_some_iff]
  constructor
  · rintro ⟨before, text, after, rfl, htext, hnone⟩
    refine ⟨text, by simp, htext, fun longer hmem hlength => ?_⟩
    rcases List.mem_append.mp hmem with hbefore | hafter
    · exact hnone longer hbefore
    · -- behind the text there are only shorter ones
      obtain ⟨hbehind, -⟩ := List.pairwise_cons.mp (List.pairwise_append.mp h).2.1
      rcases List.mem_cons.mp hafter with rfl | hafter
      · exact absurd hlength (Nat.lt_irrefl _)
      · exact absurd hlength (Nat.lt_asymm (hbehind longer hafter))
  · rintro ⟨text, hmem, htext, hnone⟩
    obtain ⟨before, after, rfl⟩ := List.append_of_mem hmem
    refine ⟨before, text, after, rfl, htext, fun longer hlonger => hnone longer (by simp [hlonger]) ?_⟩
    exact (List.pairwise_append.mp h).2.2 longer hlonger text List.mem_cons_self

/-- A name that is not registered means what is registered under it in the innermost scope that has
it. -/
theorem resolve?_eq_some_iff (h : r.Distinct) (hget : r.get? name = none)
    (hname : startsWith "::".toList name.toList = false) :
    r.resolve? name context = some t ↔
      ∃ scope, Encloses scope context.toList ∧ t ∈ r.subjects ∧ t.name = scopedName scope name ∧
        ∀ inner, Encloses inner context.toList → scope.length < inner.length →
          ∀ u ∈ r.subjects, u.name ≠ scopedName inner name := by
  rw [resolve?_of_get?_none hget hname, findSome?_longest (pairwise_scopes _)]
  simp only [mem_scopes_iff, Option.eq_none_iff_forall_ne_some, ne_eq, h.get?_scoped, not_and,
    and_assoc]

theorem resolve?_eq_none_iff (h : r.Distinct) (hget : r.get? name = none)
    (hname : startsWith "::".toList name.toList = false) :
    r.resolve? name context = none ↔
      ∀ scope, Encloses scope context.toList → ∀ u ∈ r.subjects, u.name ≠ scopedName scope name := by
  rw [resolve?_of_get?_none hget hname, List.findSome?_eq_none_iff]
  simp only [mem_scopes_iff, Option.eq_none_iff_forall_ne_some, ne_eq, h.get?_scoped, not_and]

theorem resolve_eq_error_iff :
    r.resolve name context = .error (.of (.unknownSubject name context)) ↔
      r.resolve? name context = none := by
  unfold resolve
  cases r.resolve? name context <;> simp

/-- Subjects of distinct names make a registry. -/
theorem make_of_nodup {subjects : List Subject} (h : (subjects.map (·.name)).Nodup) :
    make subjects = .ok ⟨subjects⟩ := by
  rw [make, firstDuplicate?_of_nodup h fun _ _ => List.not_mem_nil]

/-- In a registry of subjects with distinct names, a subject is the meaning of its own name exactly if
the name does not begin with `::`, whatever the context. A name that is neither registered nor begins
with `::` means the subject that is registered under it in the longest scope around the context that has
one, and is unknown exactly if there is none; in a context that does not begin with a colon this is the
subject registered as scope, `::` and name. -/
theorem resolve_innermost {subjects : List Subject} (h : (subjects.map (·.name)).Nodup) :
    ∃ r, make subjects = .ok r ∧ r.subjects = subjects ∧
      (∀ s ∈ subjects, ∀ context,
        r.resolve s.name context = .ok s ↔ startsWith "::".toList s.name.toList = false) ∧
      ∀ name context, (∀ s ∈ subjects, s.name ≠ name) →
        startsWith "::".toList name.toList = false →
        (∀ t, r.resolve name context = .ok t ↔
          ∃ scope, Encloses scope context.toList ∧ t ∈ subjects ∧ t.name = scopedName scope name ∧
            ∀ inner, Encloses inner context.toList → scope.length < inner.length →
              ∀ u ∈ subjects, u.name ≠ scopedName inner name) ∧
        (r.resolve name context = .error (.of (.unknownSubject name context)) ↔
          ∀ scope, Encloses scope context.toList → ∀ u ∈ subjects, u.name ≠ scopedName scope name) ∧
        (context.toList.head? ≠ some ':' → ∀ scope, Encloses scope context.toList →
          scopedName scope name = String.ofList scope ++ "::" ++ name) := by
  have hdistinct : Distinct ⟨subjects⟩ := h
  refine ⟨⟨subjects⟩, make_of_nodup h, rfl, fun s hs context =>
    resolve_own_name_iff hdistinct hs context, fun name context hfree hname => ?_⟩
  have hget : get? ⟨subjects⟩ name = none := by
    rw [hdistinct.get?_eq_none_iff, dropScopes_of_not_startsWith hname, String.ofList_toList]
    exact hfree
  refine ⟨fun t => ?_, ?_, fun hcolon scope hscope => scopedName_of_head? name hscope hcolon⟩
  · rw [resolve_eq_ok_iff, resolve?_eq_some_iff hdistinct hget hname]
  · rw [resolve_eq_error_iff, resolve?_eq_none_iff hdistinct hget hname]

/-! ## A name in two scopes, and a name from the top -/

def shopLine : Subject where
  name := "Shop::Line"

def orderLine : Subject where
  name := "Shop::Order::Line"

/-- A subject that is registered with `::` in front. -/
def topLine : Subject where
  name := "::Line"

theorem resolve_innermost_line :
    ([shopLine, orderLine, topLine].map (·.name)).Nodup ∧
    ∃ r, make [shopLine, orderLine, topLine] = .ok r ∧
      (∀ context, r.resolve "Shop::Line" context = .ok shopLine) ∧
      (∀ context, r.resolve "::Line" context ≠ .ok topLine) ∧
      r.resolve "Line" "Shop::Order::Total" = .ok orderLine ∧
      r.resolve "Line" "Bank" = .error (.of (.unknownSubject "Line" "Bank")) := by
  have hnames : ([shopLine, orderLine, topLine].map (·.name)).Nodup := by decide
  obtain ⟨r, hmake, -, hown, hscoped⟩ := resolve_innermost hnames
  refine ⟨hnames, r, hmake, fun context => ?_, fun context => ?_, ?_, ?_⟩
  · exact (hown shopLine (by simp) context).mpr (by decide)
  · exact (hown topLine (by simp) context).not.mpr (by decide)
  · have hcut : splitLast? [':', ':'] "Shop::Order::Total".toList =
        some ("Shop::Order".toList, "Total".toList) := by decide
    refine ((hscoped "Line" _ (by decide) (by decide)).1 orderLine).mpr
      ⟨"Shop::Order".toList, .outward hcut (.itself (by decide)), by simp, by decide, ?_⟩
    intro inner hinner hlength
    rcases (encloses_iff_of_cut hcut).mp hinner with rfl | hinner
    · decide
    · exact absurd hinner.isPrefix.length_le (Nat.not_le.mpr hlength)
  · refine (hscoped "Line" "Bank" (by decide) (by decide)).2.1.mpr fun scope hscope => ?_
    rw [(encloses_iff_of_whole (by decide) (by decide)).mp hscope]
    decide

/-- A subject that is registered with `::` in front is not found by its own name. -/
theorem not_resolve_registered :
    ¬ ∀ subjects : List Subject, (subjects.map (·.name)).Nodup → ∀ r, make subjects = .ok r →
      ∀ s ∈ subjects, ∀ context, r.resolve s.name context = .ok s := by
  intro h
  have hmake : make [topLine] = .ok ⟨[topLine]⟩ := make_of_nodup (by decide)
  have hfound := h [topLine] (by decide) _ hmake topLine (by simp) ""
  have hlost : (resolve ⟨[topLine]⟩ "::Line" "").toOption.isSome = false := by decide
  rw [show topLine.name = "::Line" from rfl] at hfound
  rw [hfound] at hlost
  cases hlost

end Registry

end DocWeave
