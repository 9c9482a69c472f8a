import DocWeave.Proofs.Text.Splitting

/-!
# The places of a text in another

`places` lists where a text stands, in ascending order. The cut at the first separator is the cut at its
first place (`splitFirst?_eq_places`), the cut at the last one that at its last place
(`splitLast?_eq_places`), and the places behind some point are the places in what is behind it
(`filter_places`).
-/

namespace DocWeave.Text

/-- The places at which `t` stands in `s`. -/
def places (t s : List Char) : List Nat :=
  (List.range (s.length + 1)).filter fun i => t.isPrefixOf (s.drop i)

theorem mem_places {t s : List Char} {i : Nat} : i ∈ places t s ↔ i ≤ s.length ∧ t <+: s.drop i := by
  rw [places, List.mem_filter, List.mem_range, Nat.lt_succ_iff, List.isPrefixOf_iff_prefix]

theorem pairwise_places (t s : List Char) : (places t s).Pairwise (· < ·) :=
  List.pairwise_lt_range.filter _

/-- What follows `t` where it stands. -/
theorem after?_eq (t s : List Char) :
    after? t s = if t.isPrefixOf s then some (s.drop t.length) else none := by
  cases h : after? t s with
  | none =>
    have hnot : ¬ t.isPrefixOf s = true := by
      rw [List.isPrefixOf_iff_prefix]
      exact after?_eq_none_iff.mp h
    rw [if_neg hnot]
  | some rest =>
    obtain rfl := after?_eq_some_iff.mp h
    simp

theorem places_nil (t : List Char) : places t [] = if t.isPrefixOf [] then [0] else [] := by
  show [0].filter (fun i => t.isPrefixOf (List.drop i [])) = _
  rw [List.filter_cons, List.filter_nil, List.drop_nil]

/-- The places in a longer text: its beginning may be one, and the others move on. -/
theorem places_cons (t : List Char) (c : Char) (s : List Char) :
    places t (c :: s) =
      (if t.isPrefixOf (c :: s) then [0] else []) ++ (places t s).map (· + 1) := by
  unfold places
  rw [List.length_cons, List.range_succ_eq_map, List.filter_cons, List.filter_map]
  split <;> simp_all [Function.comp_def]

/-- The cut at the first separator is the cut at its first place. -/
theorem splitFirst?_eq_places (sep s : List Char) :
    splitFirst? sep s =
      (places sep s).head?.map fun i => (s.take i, s.drop (i + sep.length)) := by
  induction s with
  | nil =>
    rw [splitFirst?, after?_eq, places_nil]
    split <;> simp
  | cons c s ih =>
    rw [splitFirst?, after?_eq, places_cons, ih]
    by_cases hhere : sep.isPrefixOf (c :: s) = true
    · simp [hhere]
    · rw [if_neg hhere, if_neg hhere]
      cases places sep s with
      | nil => simp
      | cons i later => simp [Nat.add_right_comm i 1]

/-- The cut at the last separator is the cut at its last place. -/
theorem splitLast?_eq_places (sep s : List Char) :
    splitLast? sep s =
      (places sep s).getLast?.map fun i => (s.take i, s.drop (i + sep.length)) := by
  induction s with
  | nil =>
    rw [splitLast?, after?_eq, places_nil]
    split <;> simp
  | cons c s ih =>
    rw [splitLast?, after?_eq, places_cons, ih, List.getLast?_append, List.getLast?_map]
    cases (places sep s).getLast? with
    | some i => simp [Nat.add_right_comm i 1]
    | none =>
      by_cases hhere : sep.isPrefixOf (c :: s) = true
      · simp [hhere]
      · simp [hhere]

theorem places_eq_nil_iff {t s : List Char} : places t s = [] ↔ ¬t <:+: s := by
  rw [← splitFirst?_eq_none_iff, splitFirst?_eq_places, Option.map_eq_none_iff,
    List.head?_eq_none_iff]

/-- The places from some point on are the places in what is behind that point. -/
theorem filter_places (t s : List Char) {p : Nat} (hp : p ≤ s.length) :
    (places t s).filter (p ≤ ·) = (places t (s.drop p)).map (p + ·) := by
  induction p generalizing s with
  | zero => simp
  | succ p ih =>
    cases s with
    | nil => simp at hp
    | cons c s =>
      have hlater : (places t s).filter ((fun i => decide (p + 1 ≤ i)) ∘ (· + 1)) =
          (places t (s.drop p)).map (p + ·) := by
        rw [← ih s (by simpa using hp)]
        simp [Function.comp_def]
      have hhere : (if t.isPrefixOf (c :: s) then [0] else []).filter
          (fun i => decide (p + 1 ≤ i)) = [] := by
        split <;> simp
      rw [places_cons, List.filter_append, List.filter_map, hhere, hlater, List.drop_succ_cons,
        List.nil_append, List.map_map]
      exact List.map_congr_left fun i _ => Nat.add_right_comm p i 1

end DocWeave.Text
