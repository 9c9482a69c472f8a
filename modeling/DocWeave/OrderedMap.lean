/-!
# Maps that keep the order of insertion

An ordered map is a list of keys with their values. A new key goes to the end; a key that is already
there keeps its place and gets the new value.
-/

namespace DocWeave

/-- Keys with their values, in the order of first insertion. -/
abbrev OrderedMap (κ α : Type) := List (κ × α)

namespace OrderedMap

variable {κ α : Type} [BEq κ]

/-- The value at a key. -/
def get? (m : OrderedMap κ α) (k : κ) : Option α :=
  match m with
  | [] => none
  | (k', a) :: rest => if k == k' then some a else get? rest k

/-- Sets the value at a key, at its place if the key is there and at the end otherwise. -/
def insert (m : OrderedMap κ α) (k : κ) (a : α) : OrderedMap κ α :=
  match m with
  | [] => [(k, a)]
  | (k', b) :: rest => if k == k' then (k', a) :: rest else (k', b) :: insert rest k a

/-- The keys in order. -/
def keys (m : OrderedMap κ α) : List κ := m.map Prod.fst

/-- The values in order. -/
def values (m : OrderedMap κ α) : List α := m.map Prod.snd

/-- The key is there. -/
def hasKey (m : OrderedMap κ α) (k : κ) : Bool := (get? m k).isSome

/-- The map that inserting the pairs one after the other gives. -/
def ofList (pairs : List (κ × α)) : OrderedMap κ α :=
  pairs.foldl (fun m p => insert m p.1 p.2) []

omit [BEq κ] in
@[simp] theorem keys_nil : keys ([] : OrderedMap κ α) = [] := rfl

/-- A new key goes to the end, a known one stays where it is. -/
theorem keys_insert [LawfulBEq κ] (m : OrderedMap κ α) (k : κ) (a : α) :
    keys (insert m k a) = if k ∈ keys m then keys m else keys m ++ [k] := by
  induction m with
  | nil => simp [insert, keys]
  | cons p rest ih =>
    obtain ⟨k', b⟩ := p
    by_cases h : k = k'
    · simp [insert, keys, h]
    · have h1 : (k == k') = false := by simpa using h
      simp only [insert, h1, keys, List.map_cons, List.mem_cons, h, false_or] at ih ⊢
      simp only [Bool.false_eq_true, if_false, List.map_cons, ih]
      split <;> simp [*]

/-- A key that was just set has the value it was set to. -/
theorem get?_insert_self [LawfulBEq κ] (m : OrderedMap κ α) (k : κ) (a : α) :
    get? (insert m k a) k = some a := by
  induction m with
  | nil => simp [insert, get?]
  | cons p rest ih =>
    obtain ⟨k', b⟩ := p
    by_cases h : k = k'
    · simp [insert, get?, h]
    · have h1 : (k == k') = false := by simpa using h
      simpa [insert, get?, h1] using ih

/-- Setting one key leaves the others alone. -/
theorem get?_insert_of_ne [LawfulBEq κ] (m : OrderedMap κ α) {k j : κ} (a : α) (h : j ≠ k) :
    get? (insert m k a) j = get? m j := by
  have hjk : (j == k) = false := by simpa using h
  induction m with
  | nil => simp [insert, get?, hjk]
  | cons p rest ih =>
    obtain ⟨k', b⟩ := p
    by_cases hk : k = k'
    · subst hk; simp [insert, get?, hjk]
    · have h1 : (k == k') = false := by simpa using hk
      by_cases hj : j = k'
      · simp [insert, get?, h1, hj]
      · have h2 : (j == k') = false := by simpa using hj
        simpa [insert, get?, h1, h2] using ih

end OrderedMap

end DocWeave
