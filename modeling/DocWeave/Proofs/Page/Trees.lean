import DocWeave.Page.Tree
import DocWeave.Proofs.OrderedMap
import Mathlib.Data.List.Induction
import Mathlib.Data.List.Sort
import Mathlib.Data.String.Basic

/-!
# What a tree of pages holds

A name that does not begin with `::` is put together again from its parts (`joined_splitNamespace`), so
the pages of different subjects have different places in a tree. A tree is known by what it holds at
each place (`Tree.Ordered.ext`), which is the last of the pages that belong there
(`Tree.page?_ofPages`). Pages with places of their own therefore make the same tree in whatever order
they come (`Tree.ofPages_perm`), and each of them is in it once (`Tree.pages_ofPages`).
-/

namespace DocWeave

open DocWeave.Text

/-! ## Names by their parts -/

/-- The name of given parts. -/
def joined (parts : String × String) : String :=
  if parts.1 = "" then parts.2 else parts.1 ++ "::" ++ parts.2

theorem joined_splitNamespace {name : String} (h : startsWith "::".toList name.toList = false) :
    joined (splitNamespace name) = name := by
  unfold splitNamespace splitNamespace?
  cases hsplit : splitLast? "::".toList name.toList with
  | none => rfl
  | some parts =>
    obtain ⟨front, leaf⟩ := parts
    have hname := eq_of_splitLast? hsplit
    have hfront : front ≠ [] := by
      rintro rfl
      have hafter : after? "::".toList name.toList = some leaf := after?_eq_some_iff.mpr hname
      rw [startsWith, hafter] at h
      cases h
    have hscope : String.ofList front ≠ "" := by simpa using hfront
    rw [Option.map_some, Option.getD_some, joined, if_neg hscope, ← String.toList_inj, hname]
    simp

/-- A name that does not begin with `::` is known by its parts. -/
theorem eq_of_splitNamespace {a b : String} (ha : startsWith "::".toList a.toList = false)
    (hb : startsWith "::".toList b.toList = false) (h : splitNamespace a = splitNamespace b) : a = b :=
  calc a = joined (splitNamespace a) := (joined_splitNamespace ha).symm
    _ = joined (splitNamespace b) := by rw [h]
    _ = b := joined_splitNamespace hb

/-! ## Keys in order -/

namespace Page

open OrderedMap

variable {α : Type}

/-- The keys go up. -/
def Ascending (m : List (String × α)) : Prop := (keys m).Pairwise (· < ·)

/-- Setting a key, seen from any key. -/
theorem get?_insertSorted (m : List (String × α)) (k j : String) (a : α) :
    get? (insertSorted k a m) j = if j = k then some a else get? m j := by
  induction m with
  | nil => simp [insertSorted, get?]
  | cons p rest ih =>
    obtain ⟨k', b⟩ := p
    unfold insertSorted
    split
    · next hk =>
      subst hk
      by_cases hj : j = k <;> simp [get?, hj]
    · split
      · simp [get?]
      · next hk _ =>
        by_cases hj : j = k'
        · have hjk : j ≠ k := fun heq => hk (heq.symm.trans hj)
          simp [get?, hj, hj ▸ hjk]
        · simp [get?, hj, ih]

theorem insertSorted_ne_nil (m : List (String × α)) (k : String) (a : α) :
    insertSorted k a m ≠ [] := by
  intro hnil
  have hget := get?_insertSorted m k k a
  rw [hnil, if_pos rfl] at hget
  cases hget

theorem mem_insertSorted {m : List (String × α)} {k : String} {a : α} {entry : String × α}
    (h : entry ∈ insertSorted k a m) : entry = (k, a) ∨ entry ∈ m := by
  induction m with
  | nil => exact .inl (List.mem_singleton.mp h)
  | cons p rest ih =>
    obtain ⟨k', b⟩ := p
    unfold insertSorted at h
    split at h
    · next hk =>
      rw [← hk] at h
      exact (List.mem_cons.mp h).imp_right (List.mem_cons_of_mem _)
    · split at h
      · exact List.mem_cons.mp h
      · rcases List.mem_cons.mp h with rfl | hrest
        · exact .inr List.mem_cons_self
        · exact (ih hrest).imp_right (List.mem_cons_of_mem _)

namespace Ascending

variable {m n : List (String × α)}

theorem nodup (h : Ascending m) : (keys m).Nodup := h.imp ne_of_lt

theorem insertSorted (h : Ascending m) (k : String) (a : α) : Ascending (insertSorted k a m) := by
  induction m with
  | nil => exact List.pairwise_singleton _ _
  | cons p rest ih =>
    obtain ⟨k', b⟩ := p
    obtain ⟨hfirst, hrest⟩ := List.pairwise_cons.mp h
    unfold Page.insertSorted
    split
    · exact h
    · split
      · next hlt =>
        refine List.pairwise_cons.mpr ⟨fun j hj => ?_, h⟩
        rcases List.mem_cons.mp hj with rfl | hj
        · exact hlt
        · exact hlt.trans (hfirst j hj)
      · next hne hnot =>
        refine List.pairwise_cons.mpr ⟨fun j hj => ?_, ih hrest⟩
        obtain ⟨entry, hentry, rfl⟩ := List.mem_map.mp hj
        rcases mem_insertSorted hentry with rfl | hentry
        · exact lt_of_le_of_ne (not_lt.mp hnot) (Ne.symm hne)
        · exact hfirst _ (List.mem_map_of_mem hentry)

/-- A map in order is known by the values at its keys. -/
theorem ext (hm : Ascending m) (hn : Ascending n) (h : ∀ k, get? m k = get? n k) : m = n := by
  have hmem : ∀ p, p ∈ m ↔ p ∈ n := fun p =>
    ⟨fun hp => mem_of_get? ((h p.1).symm.trans (get?_of_mem hm.nodup hp)),
      fun hp => mem_of_get? ((h p.1).trans (get?_of_mem hn.nodup hp))⟩
  have hperm : m.Perm n :=
    (List.perm_ext_iff_of_nodup (.of_map _ hm.nodup) (.of_map _ hn.nodup)).mpr hmem
  refine hperm.eq_of_pairwise (fun a b _ _ hab hba => absurd hab hba.asymm)
    (List.pairwise_map.mp hm) (List.pairwise_map.mp hn)

end Ascending

/-! ## Trees by their places -/

/-- The place of a page in a tree. -/
def slot (p : Page) : String × String := splitNamespace p.subject

namespace Tree

/-- The page at a place. -/
def page? (t : Tree) (scope leaf : String) : Option Page :=
  (get? t scope).bind fun leaves => get? leaves leaf

/-- Namespaces and names are in order, no namespace is empty, and each page is at its place. -/
structure Ordered (t : Tree) : Prop where
  scopes : Ascending t
  leaves : ∀ entry ∈ t, Ascending entry.2
  filled : ∀ entry ∈ t, entry.2 ≠ []
  placed : ∀ entry ∈ t, ∀ leaf ∈ entry.2, leaf.2.slot = (entry.1, leaf.1)

/-- A page goes among those of its namespace. -/
theorem add_eq (t : Tree) (p : Page) :
    t.add p =
      insertSorted p.slot.1 (insertSorted p.slot.2 p ((get? t p.slot.1).getD [])) t := rfl

theorem page?_add (t : Tree) (p : Page) (scope leaf : String) :
    (t.add p).page? scope leaf = if p.slot = (scope, leaf) then some p else t.page? scope leaf := by
  rw [page?, add_eq, get?_insertSorted]
  rcases p.slot with ⟨scope', leaf'⟩
  by_cases hscope : scope = scope'
  · subst hscope
    rw [if_pos rfl, Option.bind_some, get?_insertSorted, page?]
    by_cases hleaf : leaf = leaf'
    · simp [hleaf]
    · rw [if_neg hleaf, if_neg fun heq => hleaf (Prod.ext_iff.mp heq).2.symm]
      cases get? t scope <;> rfl
  · rw [if_neg hscope, if_neg fun heq => hscope (Prod.ext_iff.mp heq).1.symm]
    rfl

namespace Ordered

variable {t u : Tree}

theorem nil : Ordered [] := ⟨List.Pairwise.nil, nofun, nofun, nofun⟩

/-- What is filed under a namespace, if anything is. -/
theorem found (h : t.Ordered) (scope : String) :
    Ascending ((get? t scope).getD []) ∧
      ∀ leaf ∈ (get? t scope).getD [], leaf.2.slot = (scope, leaf.1) := by
  cases hfound : get? t scope with
  | none => exact ⟨List.Pairwise.nil, nofun⟩
  | some leaves =>
    have hmem := mem_of_get? hfound
    exact ⟨h.leaves _ hmem, h.placed _ hmem⟩

theorem add (h : t.Ordered) (p : Page) : (t.add p).Ordered := by
  obtain ⟨hleaves, hplaced⟩ := h.found p.slot.1
  rw [add_eq]
  refine ⟨h.scopes.insertSorted _ _, fun entry hentry => ?_, fun entry hentry => ?_,
    fun entry hentry => ?_⟩ <;> rcases mem_insertSorted hentry with rfl | hentry
  · exact hleaves.insertSorted _ _
  · exact h.leaves _ hentry
  · exact insertSorted_ne_nil _ _ _
  · exact h.filled _ hentry
  · intro leaf hleaf
    rcases mem_insertSorted hleaf with rfl | hleaf
    · rfl
    · exact hplaced _ hleaf
  · exact h.placed _ hentry

theorem mem_pages_iff (h : t.Ordered) {p : Page} :
    p ∈ t.pages ↔ t.page? p.slot.1 p.slot.2 = some p := by
  constructor
  · intro hp
    obtain ⟨⟨scope, leaves⟩, hscope, hp⟩ := List.mem_flatMap.mp hp
    obtain ⟨⟨leaf, q⟩, hleaf, rfl⟩ := List.mem_map.mp hp
    rw [h.placed _ hscope _ hleaf, page?, get?_of_mem h.scopes.nodup hscope, Option.bind_some]
    exact get?_of_mem (h.leaves _ hscope).nodup hleaf
  · intro hp
    obtain ⟨leaves, hleaves, hleaf⟩ := Option.bind_eq_some_iff.mp hp
    exact List.mem_flatMap.mpr ⟨_, mem_of_get? hleaves, List.mem_map_of_mem (mem_of_get? hleaf)⟩

/-- No page is in the tree twice. -/
theorem nodup_pages (h : t.Ordered) : t.pages.Nodup := by
  refine List.nodup_flatMap.mpr ⟨fun entry hentry => ?_, ?_⟩
  · -- the pages of a namespace differ in their names
    have hkeys : (entry.2.map Prod.snd).map (fun p => p.slot.2) = keys entry.2 := by
      rw [List.map_map]
      exact List.map_congr_left fun leaf hleaf => by
        rw [Function.comp_apply, h.placed _ hentry _ hleaf]
    exact .of_map _ (hkeys ▸ (h.leaves _ hentry).nodup)
  · -- those of different namespaces in these
    have hscopes := List.pairwise_map.mp h.scopes
    refine hscopes.imp_of_mem fun {a b} ha hb hlt p hpa hpb => ?_
    obtain ⟨leaf, hleaf, rfl⟩ := List.mem_map.mp hpa
    obtain ⟨leaf', hleaf', heq⟩ := List.mem_map.mp hpb
    have hsame : (a.1, leaf.1) = (b.1, leaf'.1) := by
      rw [← h.placed _ ha _ hleaf, ← h.placed _ hb _ hleaf', heq]
    exact hlt.ne (Prod.ext_iff.mp hsame).1

/-- A namespace without pages is not there. -/
theorem get?_eq_none (h : t.Ordered) {scope : String} (hnone : ∀ leaf, t.page? scope leaf = none) :
    get? t scope = none := by
  cases hleaves : get? t scope with
  | none => rfl
  | some leaves =>
    obtain ⟨leaf, rest, rfl⟩ := List.exists_cons_of_ne_nil (h.filled _ (mem_of_get? hleaves))
    have hpage := hnone leaf.1
    rw [page?, hleaves, Option.bind_some, get?, if_pos (beq_self_eq_true _)] at hpage
    cases hpage

/-- A tree is known by what it holds at each place. -/
theorem ext (ht : t.Ordered) (hu : u.Ordered)
    (h : ∀ scope leaf, t.page? scope leaf = u.page? scope leaf) : t = u := by
  refine ht.scopes.ext hu.scopes fun scope => ?_
  cases hleaves : get? t scope with
  | none =>
    have hnone : ∀ leaf, u.page? scope leaf = none := fun leaf => by
      rw [← h, page?, hleaves, Option.bind_none]
    exact (hu.get?_eq_none hnone).symm
  | some leaves =>
    cases hleaves' : get? u scope with
    | none =>
      have hnone : ∀ leaf, t.page? scope leaf = none := fun leaf => by
        rw [h, page?, hleaves', Option.bind_none]
      cases hleaves.symm.trans (ht.get?_eq_none hnone)
    | some leaves' =>
      refine congrArg some ((ht.leaves _ (mem_of_get? hleaves)).ext
        (hu.leaves _ (mem_of_get? hleaves')) fun leaf => ?_)
      have hpage := h scope leaf
      rwa [page?, page?, hleaves, hleaves', Option.bind_some, Option.bind_some] at hpage

end Ordered

/-! ## The tree of some pages -/

theorem ofPages_concat (pages : List Page) (p : Page) :
    ofPages (pages ++ [p]) = (ofPages pages).add p := by
  rw [ofPages, List.foldl_concat]
  rfl

theorem ordered_ofPages (pages : List Page) : (ofPages pages).Ordered := by
  induction pages using List.reverseRecOn with
  | nil => exact .nil
  | append_singleton pages p ih =>
    rw [ofPages_concat]
    exact ih.add p

/-- Of the pages that belong to a place the last one is there. -/
theorem page?_ofPages (pages : List Page) (scope leaf : String) :
    (ofPages pages).page? scope leaf = pages.reverse.find? fun p => p.slot == (scope, leaf) := by
  induction pages using List.reverseRecOn with
  | nil => rfl
  | append_singleton pages p ih =>
    rw [ofPages_concat, page?_add, List.reverse_append, List.reverse_singleton, List.singleton_append]
    by_cases hslot : p.slot = (scope, leaf)
    · rw [if_pos hslot, List.find?_cons_of_pos (by simp [hslot])]
    · rw [if_neg hslot, List.find?_cons_of_neg (by simp [hslot]), ih]

section

variable {pages pages' : List Page} (hslots : (pages.map slot).Nodup)

include hslots

/-- Where no two pages belong to one place, each is at its own. -/
theorem page?_ofPages_eq_some_iff {scope leaf : String} {p : Page} :
    (ofPages pages).page? scope leaf = some p ↔ p ∈ pages ∧ p.slot = (scope, leaf) := by
  rw [page?_ofPages]
  constructor
  · intro h
    exact ⟨List.mem_reverse.mp (List.mem_of_find?_eq_some h), by simpa using List.find?_some h⟩
  · rintro ⟨hp, hslot⟩
    have hfound : (pages.reverse.find? fun p => p.slot == (scope, leaf)).isSome :=
      List.find?_isSome.mpr ⟨p, List.mem_reverse.mpr hp, by simp [hslot]⟩
    obtain ⟨q, hq⟩ := Option.isSome_iff_exists.mp hfound
    have hmem := List.mem_reverse.mp (List.mem_of_find?_eq_some hq)
    have hsame : q.slot = p.slot := by simpa [hslot] using List.find?_some hq
    rw [hq, List.inj_on_of_nodup_map hslots hmem hp hsame]

/-- The order of the pages does not matter. -/
theorem ofPages_perm (h : pages.Perm pages') : ofPages pages = ofPages pages' := by
  have hslots' : (pages'.map slot).Nodup := (h.map slot).nodup_iff.mp hslots
  refine (ordered_ofPages pages).ext (ordered_ofPages pages') fun scope leaf => ?_
  ext p
  rw [page?_ofPages_eq_some_iff hslots, page?_ofPages_eq_some_iff hslots', h.mem_iff]

/-- Each page is in the tree once. -/
theorem pages_ofPages : (ofPages pages).pages.Perm pages := by
  have hordered := ordered_ofPages pages
  refine (List.perm_ext_iff_of_nodup hordered.nodup_pages (.of_map _ hslots)).mpr fun p => ?_
  rw [hordered.mem_pages_iff, page?_ofPages_eq_some_iff hslots]
  exact and_iff_left rfl

end

end Tree

end Page

end DocWeave
