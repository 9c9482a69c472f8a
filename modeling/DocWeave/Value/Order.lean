import DocWeave.Value.Text

/-!
# The order of values

`sort`, `max` and `min` put the items of an array in the order that `order` gives them. The library's
sort asks for an order that is total on the items (`Ordered`) and promises nothing under any other one:
it may stop the program, and it may leave the items in any arrangement. Up to `insertionLimit` items it
inserts one behind the other whatever the order is. `sorted?` has a result in these two cases alone.
-/

namespace DocWeave.Value

/-- The order of two floats, if they have one. -/
def compareFloat? (a b : Float) : Option Ordering :=
  if a < b then some .lt else if a == b then some .eq else if b < a then some .gt else none

/-- The order of two numbers, if both values are numbers and have an order. -/
def compareNumbers? : Value → Value → Option (Option Ordering)
  | .int a, .int b => some (some (compare a.toInt b.toInt))
  | .int a, .float b => some (compareFloat? a.toFloat b)
  | .float a, .int b => some (compareFloat? a b.toFloat)
  | .float a, .float b => some (compareFloat? a b)
  | _, _ => none

/-- The order by which `sort`, `max` and `min` go: numbers by size, everything else by its text. -/
def order (a b : Value) : Ordering :=
  match compareNumbers? a b with
  | some o => o.getD .eq
  | none => compare a.display b.display

/-- The one value may stand before the other. -/
def AtMost (a b : Value) : Prop := order a b ≠ .gt

/-! ## Orders that are total -/

/-- The order is total on the items: two of them compare the same way from either side, and it is
transitive. -/
structure Ordered (items : List Value) : Prop where
  swap : ∀ a ∈ items, ∀ b ∈ items, order b a = (order a b).swap
  trans : ∀ a ∈ items, ∀ b ∈ items, ∀ c ∈ items, AtMost a b → AtMost b c → AtMost a c

/-- How many of the items are less than a value. -/
def rank (items : List Value) (a : Value) : Nat := items.countP fun b => order b a == .lt

section

variable {items : List Value} {a b c : Value}

theorem atMost_of_order_eq {o : Ordering} (h : order a b = o) (ho : o ≠ .gt) : AtMost a b := by
  rw [AtMost, h]
  exact ho

theorem Ordered.atMost_of_not_lt (h : Ordered items) (ha : a ∈ items) (hb : b ∈ items)
    (hlt : order a b ≠ .lt) : AtMost b a := by
  intro hgt
  rw [h.swap a ha b hb, Ordering.swap_eq_gt] at hgt
  exact hlt hgt

theorem AtMost.order_ne_lt (h : AtMost a b) (hswap : order b a = (order a b).swap) :
    order b a ≠ .lt := by
  intro hlt
  rw [hswap, Ordering.swap_eq_lt] at hlt
  exact h hlt

theorem Ordered.order_ne_lt (h : Ordered items) (ha : a ∈ items) (hb : b ∈ items)
    (hle : AtMost a b) : order b a ≠ .lt :=
  hle.order_ne_lt (h.swap a ha b hb)

theorem Ordered.refl (h : Ordered items) (ha : a ∈ items) : AtMost a a := by
  intro hgt
  have hswap := h.swap a ha a ha
  rw [hgt] at hswap
  cases hswap

/-- What counts for the rank of a value counts for the rank of one that it may stand before. -/
theorem Ordered.counted (h : Ordered items) (ha : a ∈ items) (hb : b ∈ items) (hab : AtMost a b)
    (hc : c ∈ items) (hca : (order c a == .lt) = true) : (order c b == .lt) = true := by
  rw [beq_iff_eq] at hca ⊢
  refine Decidable.byContradiction fun hcb => ?_
  have hbc : AtMost b c := h.atMost_of_not_lt hc hb hcb
  exact h.order_ne_lt ha hc (h.trans a ha b hb c hc hab hbc) hca

theorem Ordered.rank_le (h : Ordered items) (ha : a ∈ items) (hb : b ∈ items) (hab : AtMost a b) :
    rank items a ≤ rank items b :=
  List.countP_mono_left fun _ hc => h.counted ha hb hab hc

theorem Ordered.rank_lt (h : Ordered items) (ha : a ∈ items) (hb : b ∈ items)
    (hlt : order a b = .lt) : rank items a < rank items b := by
  have hle : AtMost a b := atMost_of_order_eq hlt (by decide)
  have hself : ¬(order a a == .lt) = true := by
    rw [beq_iff_eq]
    exact h.order_ne_lt ha ha (h.refl ha)
  -- Besides what is less than `a`, at least `a` itself is less than `b`.
  obtain ⟨before, after, rfl⟩ := List.append_of_mem ha
  rw [rank, rank, List.countP_append, List.countP_append,
    List.countP_cons_of_neg (p := fun c => order c a == .lt) hself,
    List.countP_cons_of_pos (p := fun c => order c b == .lt) (beq_iff_eq.mpr hlt)]
  have hbefore := List.countP_mono_left fun c hc =>
    h.counted (c := c) ha hb hle (List.mem_append_left _ hc)
  have hafter := List.countP_mono_left fun c hc =>
    h.counted (c := c) ha hb hle (List.mem_append_right _ (List.mem_cons_of_mem _ hc))
  omega

/-- An order is total on finitely many items exactly when their ranks tell it. -/
theorem ordered_iff_rank :
    Ordered items ↔
      ∀ a ∈ items, ∀ b ∈ items, order a b = compare (rank items a) (rank items b) := by
  refine ⟨fun h a ha b hb => ?_, fun h => ⟨fun a ha b hb => ?_, fun a ha b hb c hc hab hbc => ?_⟩⟩
  · cases hab : order a b with
    | lt => exact (Nat.compare_eq_lt.mpr (h.rank_lt ha hb hab)).symm
    | eq =>
      have hba : order b a = .eq := by
        rw [h.swap a ha b hb, hab]
        rfl
      have hle := h.rank_le ha hb (atMost_of_order_eq hab (by decide))
      have hge := h.rank_le hb ha (atMost_of_order_eq hba (by decide))
      exact (Nat.compare_eq_eq.mpr (Nat.le_antisymm hle hge)).symm
    | gt =>
      have hba : order b a = .lt := by
        rw [h.swap a ha b hb, hab]
        rfl
      exact (Nat.compare_eq_gt.mpr (h.rank_lt hb ha hba)).symm
  · rw [h a ha b hb, h b hb a ha, Nat.compare_swap]
  · rw [AtMost, h a ha b hb, Nat.compare_ne_gt] at hab
    rw [AtMost, h b hb c hc, Nat.compare_ne_gt] at hbc
    rw [AtMost, h a ha c hc, Nat.compare_ne_gt]
    exact Nat.le_trans hab hbc

end

/-- Every rank is counted once. -/
instance (items : List Value) : Decidable (Ordered items) :=
  let ranked := items.map fun a => (a, rank items a)
  decidable_of_iff (∀ x ∈ ranked, ∀ y ∈ ranked, order x.1 y.1 = compare x.2 y.2) <| by
    simp only [ranked, List.forall_mem_map]
    exact ordered_iff_rank.symm

example : ¬Ordered [.int 9, .int 10, .str "5"] ∧ Ordered [.int 9, .int 10, .str "b", .nil] := by
  decide

/-! ## Sorting -/

/-- The item in a list that is read from its end: it is moved forward past the items that it is less
than. -/
def insertFromEnd (v : Value) : List Value → List Value
  | [] => [v]
  | w :: rest => if order v w = .lt then w :: insertFromEnd v rest else v :: w :: rest

/-- One after the other the items are inserted behind what comes before them; an item that is not less
than another stays behind it. -/
def insertionSorted (items : List Value) : List Value :=
  (items.foldl (fun done v => insertFromEnd v done) []).reverse

/-- So many items are always sorted by insertion. -/
def insertionLimit : Nat := 20

/-- The items in order; items that compare equal keep their places. There is no telling what becomes of
more than `insertionLimit` items on which the order is not total. -/
def sorted? (items : List Value) : Option (List Value) :=
  if items.length ≤ insertionLimit ∨ Ordered items then some (insertionSorted items) else none

end DocWeave.Value
