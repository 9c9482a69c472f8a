import DocWeave.Text.CaseMap

/-!
# ASCII characters

A property of characters that can be decided holds of all ASCII characters if it holds of the first 128
code points (`forall_ascii`). A text of ASCII characters is lower-cased one by one (`lower_of_ascii`).
-/

namespace DocWeave.Text

/-- What holds of the code points below 128 holds of every ASCII character. -/
theorem forall_ascii {p : Char → Prop} (h : ∀ n < 128, p (Char.ofNat n)) {c : Char}
    (hc : c.toNat < 128) : p c :=
  Char.ofNat_toNat c ▸ h c.toNat hc

theorem isAlpha_of_isUpper {c : Char} (h : c.isUpper = true) : c.isAlpha = true :=
  Bool.or_eq_true_iff.mpr (.inl h)

theorem isAlpha_of_isLower {c : Char} (h : c.isLower = true) : c.isAlpha = true :=
  Bool.or_eq_true_iff.mpr (.inr h)

theorem isAlphanum_of_isAlpha {c : Char} (h : c.isAlpha = true) : c.isAlphanum = true :=
  Bool.or_eq_true_iff.mpr (.inl h)

theorem ascii_of_isAlphanum {c : Char} (h : c.isAlphanum = true) : c.toNat < 128 := by
  have hle : ∀ d : Char, c.val ≤ d.val → c.toNat ≤ d.toNat := fun d hd => hd
  delta Char.isAlphanum Char.isAlpha Char.isUpper Char.isLower Char.isDigit at h
  simp only [Bool.or_eq_true, Bool.and_eq_true, decide_eq_true_eq] at h
  rcases h with (h | h) | h
  · exact Nat.lt_of_le_of_lt (hle 'Z' h.2) (by decide)
  · exact Nat.lt_of_le_of_lt (hle 'z' h.2) (by decide)
  · exact Nat.lt_of_le_of_lt (hle '9' h.2) (by decide)

theorem lowerFrom_of_ascii {s : List Char} (h : ∀ c ∈ s, c.toNat < 128) (before : List Char) :
    lowerFrom before s = s.map Char.toLower := by
  induction s generalizing before with
  | nil => rfl
  | cons c s ih =>
    have hc : c.toNat < 128 := h c List.mem_cons_self
    have hsigma : c.toNat ≠ 0x3A3 := by omega
    rw [lowerFrom, if_neg hsigma, lowerChar, if_pos hc, ih fun d hd => h d (List.mem_cons_of_mem _ hd)]
    rfl

theorem lower_of_ascii {s : List Char} (h : ∀ c ∈ s, c.toNat < 128) : lower s = s.map Char.toLower :=
  lowerFrom_of_ascii h []

end DocWeave.Text
