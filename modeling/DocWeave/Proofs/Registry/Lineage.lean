import DocWeave.Proofs.Registry.Kinship

/-!
# Lineages

The lineage of a subject holds registered subjects only, first of all the subject itself
(`lineage_cons`), and none twice (`nodup_lineage`).
-/

namespace DocWeave.Registry

variable {r : Registry} {name : String} {s : Subject}

/-- What the walk passes lies in every collection that holds the subjects to visit and all that its
members mix in. -/
theorem mem_closed_of_mem_lineageFrom {left todo : List Subject} {P : Subject → Prop}
    (hmixins : ∀ host, P host → ∀ t ∈ r.mixins host, P t) (htodo : ∀ t ∈ todo, P t) :
    ∀ t ∈ r.lineageFrom left todo, P t := by
  fun_induction lineageFrom r left todo with
  | case1 => exact nofun
  | case2 left s rest _ ih =>
    have hs : P s := htodo s List.mem_cons_self
    have hrest : ∀ t ∈ rest, P t := fun t ht => htodo t (List.mem_cons_of_mem _ ht)
    have hnext : ∀ t ∈ r.mixins s ++ rest, P t :=
      List.forall_mem_append.mpr ⟨hmixins s hs, hrest⟩
    exact List.forall_mem_cons.mpr ⟨hs, ih hnext⟩
  | case3 left s rest _ ih => exact ih fun t ht => htodo t (List.mem_cons_of_mem _ ht)

theorem mem_of_mem_lineageFrom {left todo : List Subject} (htodo : ∀ t ∈ todo, t ∈ r.subjects)
    (h : s ∈ r.lineageFrom left todo) : s ∈ r.subjects := by
  refine mem_closed_of_mem_lineageFrom (fun host _ t ht => ?_) htodo s h
  obtain ⟨module, _, hmodule⟩ := List.mem_filterMap.mp ht
  exact mem_of_resolve? hmodule

theorem mem_of_mem_lineage (h : s ∈ r.lineage name) : s ∈ r.subjects := by
  unfold lineage at h
  split at h
  · next t ht =>
    refine mem_of_mem_lineageFrom (fun u hu => ?_) h
    rcases List.mem_cons.mp hu with rfl | hu
    · exact mem_of_get? ht
    · rw [ancestors, ht] at hu
      exact mem_of_mem_ancestorsFrom hu
  · cases h

theorem lineage_cons (h : r.get? name = some s) : ∃ rest, r.lineage name = s :: rest := by
  have hmem : r.subjects.any (·.name == s.name) = true :=
    List.any_eq_true.mpr ⟨s, mem_of_get? h, beq_self_eq_true _⟩
  rw [lineage, h]
  dsimp only
  rw [lineageFrom, dif_pos hmem]
  exact ⟨_, rfl⟩

/-- A subject that inherits nothing is its whole lineage. -/
theorem lineage_eq_singleton (h : r.get? name = some s) (hparent : s.parent = none)
    (hincludes : s.includes = []) : r.lineage name = [s] := by
  have hmem : r.subjects.any (·.name == s.name) = true :=
    List.any_eq_true.mpr ⟨s, mem_of_get? h, beq_self_eq_true _⟩
  have hnone : r.parent? s = none := by rw [parent?, hparent, Option.bind_none]
  have hmixins : r.mixins s = [] := by rw [mixins, hincludes, List.filterMap_nil]
  rw [lineage, h]
  dsimp only
  rw [ancestors, h]
  dsimp only
  rw [ancestorsFrom, hnone]
  dsimp only
  rw [lineageFrom, dif_pos hmem, hmixins, List.append_nil, lineageFrom]

/-- The walk passes only names that are left. -/
theorem name_left_of_mem_lineageFrom {left todo : List Subject} (h : s ∈ r.lineageFrom left todo) :
    ∃ u ∈ left, u.name = s.name := by
  fun_induction lineageFrom r left todo with
  | case1 => cases h
  | case2 left t rest hleft ih =>
    rcases List.mem_cons.mp h with rfl | h
    · exact any_name_iff.mp hleft
    · obtain ⟨u, hu, hname⟩ := ih h
      exact ⟨u, (mem_without.mp hu).1, hname⟩
  | case3 left t rest _ ih => exact ih h

/-- The walk passes no name twice. -/
theorem nodup_lineageFrom (r : Registry) (left todo : List Subject) :
    ((r.lineageFrom left todo).map (·.name)).Nodup := by
  fun_induction lineageFrom r left todo with
  | case1 => exact List.nodup_nil
  | case2 left t rest _ ih =>
    refine List.nodup_cons.mpr ⟨fun hmem => ?_, ih⟩
    obtain ⟨u, hu, hname⟩ := List.mem_map.mp hmem
    obtain ⟨v, hv, hvname⟩ := name_left_of_mem_lineageFrom hu
    exact (mem_without.mp hv).2 (hvname.trans hname)
  | case3 _ _ _ _ ih => exact ih

theorem nodup_lineage (r : Registry) (name : String) : ((r.lineage name).map (·.name)).Nodup := by
  unfold lineage
  split
  · exact nodup_lineageFrom r _ _
  · exact List.nodup_nil

theorem lineage_of_get?_none (h : r.get? name = none) : r.lineage name = [] := by
  rw [lineage, h]

end DocWeave.Registry
