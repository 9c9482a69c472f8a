import DocWeave.OrderedMap

/-!
# Maps with each key once

`insert` never makes a second place for a key. In a map where each key stands once, the pairs are
exactly the answers of `get?`.
-/

namespace DocWeave.OrderedMap

variable {κ α : Type} [BEq κ] [LawfulBEq κ]

/-- Setting a key, seen from any key. -/
theorem get?_insert [DecidableEq κ] (m : OrderedMap κ α) (k j : κ) (a : α) :
    get? (insert m k a) j = if j = k then some a else get? m j := by
  by_cases h : j = k
  · rw [if_pos h, h]
    exact get?_insert_self m k a
  · rw [if_neg h]
    exact get?_insert_of_ne m a h

/-- Setting a key leaves each key once. -/
theorem nodup_keys_insert {m : OrderedMap κ α} (h : (keys m).Nodup) (k : κ) (a : α) :
    (keys (insert m k a)).Nodup := by
  rw [keys_insert]
  split
  · exact h
  · next hk =>
    rw [List.nodup_append]
    refine ⟨h, by simp, ?_⟩
    rintro j hj i hi rfl
    rw [List.mem_singleton] at hi
    exact hk (hi ▸ hj)

/-- Where each key stands once, a pair of the map is what its key leads to. -/
theorem get?_of_mem {m : OrderedMap κ α} (h : (keys m).Nodup) {k : κ} {a : α} (hm : (k, a) ∈ m) :
    get? m k = some a := by
  induction m with
  | nil => simp at hm
  | cons p rest ih =>
    obtain ⟨j, b⟩ := p
    have hparts : j ∉ keys rest ∧ (keys rest).Nodup := List.nodup_cons.mp h
    rcases List.mem_cons.mp hm with heq | hrest
    · cases heq
      simp [get?]
    · have hne : k ≠ j := by
        rintro rfl
        exact hparts.1 (List.mem_map_of_mem (f := Prod.fst) hrest)
      have hbeq : (k == j) = false := by simpa using hne
      simpa [get?, hbeq] using ih hparts.2 hrest

/-- Where each key stands once, a value of the map is what some key leads to. -/
theorem get?_of_mem_values {m : OrderedMap κ α} (h : (keys m).Nodup) {a : α} (ha : a ∈ values m) :
    ∃ k, get? m k = some a := by
  obtain ⟨⟨k, b⟩, hmem, rfl⟩ := List.mem_map.mp ha
  exact ⟨k, get?_of_mem h hmem⟩

/-- A pair that a key leads to is in the map. -/
theorem mem_of_get? {m : OrderedMap κ α} {k : κ} {a : α} (h : get? m k = some a) : (k, a) ∈ m := by
  induction m with
  | nil => simp [get?] at h
  | cons p rest ih =>
    obtain ⟨j, b⟩ := p
    by_cases hj : k = j
    · subst hj
      have hb : b = a := by simpa [get?] using h
      simp [hb]
    · have hbeq : (k == j) = false := by simpa using hj
      have hrest : get? rest k = some a := by simpa [get?, hbeq] using h
      exact List.mem_cons_of_mem _ (ih hrest)

end DocWeave.OrderedMap
