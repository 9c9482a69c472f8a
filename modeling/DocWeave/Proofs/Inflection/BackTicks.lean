import DocWeave.Proofs.Inflection.Boundaries
import DocWeave.Proofs.Text.Splitting

/-!
# Spellings and back-ticks

No spelling of a name brings in a back-tick. The letter cases map no other character to one
(`not_mem_lowerChar`, `not_mem_upperChar`), the boundaries of words insert underscores only, and every
other step replaces, drops or keeps characters. So headings, anchors and page keys of a name without a
back-tick have none.
-/

namespace DocWeave

namespace Text

/-! ## Letter case -/

/-- The run sends no code point to `n`. -/
def CaseRun.misses (n : Nat) (r : CaseRun) : Bool :=
  decide (Int.ofNat n < Int.ofNat r.first + r.shift) ||
    decide (Int.ofNat r.last + r.shift < Int.ofNat n)

theorem CaseRun.image?_ne {n k image : Nat} (hn : 0 < n) {r : CaseRun} (h : r.misses n = true)
    (himage : r.image? k = some image) : image ≠ n := by
  unfold image? at himage
  split at himage
  · next hin =>
    simp only [Bool.and_eq_true, decide_eq_true_eq] at hin
    simp only [misses, Bool.or_eq_true, decide_eq_true_eq, Int.ofNat_eq_natCast] at h
    obtain rfl := Option.some.inj himage
    simp only [Int.ofNat_eq_natCast]
    omega
  · cases himage

theorem applyRuns_ne {n k image : Nat} (hn : 0 < n) {runs : List CaseRun}
    (h : runs.all (·.misses n) = true) (himage : applyRuns runs k = some image) : image ≠ n := by
  obtain ⟨r, hr, hrimage⟩ := List.exists_of_findSome?_eq_some himage
  exact r.image?_ne hn (List.all_eq_true.mp h r hr) hrimage

theorem ofNat_ne_backTick {n : Nat} (h : n ≠ 0x60) : Char.ofNat n ≠ '\x60' := by
  intro heq
  by_cases hvalid : n.isValidChar
  · rw [Char.ofNat, dif_pos hvalid] at heq
    exact h (congrArg Char.toNat heq)
  · rw [Char.ofNat, dif_neg hvalid] at heq
    cases heq

theorem ofNat_getD_ne_backTick {image : Option Nat} {c : Char} (hc : c ≠ '\x60')
    (h : ∀ n ∈ image, n ≠ 0x60) : (image.map Char.ofNat).getD c ≠ '\x60' := by
  cases image with
  | none => exact hc
  | some n => exact ofNat_ne_backTick (h n rfl)

/-- The small form of a character other than the back-tick has none. -/
theorem not_mem_lowerChar {c : Char} (hc : c ≠ '\x60') : '\x60' ∉ lowerChar c := by
  unfold lowerChar
  split
  · next hascii =>
    exact forall_ascii (p := fun d => d ≠ '\x60' → '\x60' ∉ [d.toLower]) (by decide) hascii hc
  · split
    · decide
    · rw [List.mem_singleton]
      refine (ofNat_getD_ne_backTick hc fun n hn => ?_).symm
      exact applyRuns_ne (by decide) (by decide) hn

/-- The capital form of a character other than the back-tick has none. -/
theorem not_mem_upperChar {c : Char} (hc : c ≠ '\x60') : '\x60' ∉ upperChar c := by
  unfold upperChar
  split
  · next hascii =>
    exact forall_ascii (p := fun d => d ≠ '\x60' → '\x60' ∉ [d.toUpper]) (by decide) hascii hc
  · split
    · next capitals hcapitals =>
      have hall : longCapitals.all (fun entry => entry.2.all (· != 0x60)) = true := by decide
      obtain ⟨before, after, hsplit, -⟩ := List.lookup_eq_some_iff.mp hcapitals
      have hmem : (c.toNat, capitals) ∈ longCapitals := by
        rw [hsplit]
        exact List.mem_append_right _ List.mem_cons_self
      intro htick
      obtain ⟨n, hn, heq⟩ := List.mem_map.mp htick
      have hne := List.all_eq_true.mp (List.all_eq_true.mp hall _ hmem) n hn
      exact ofNat_ne_backTick (by simpa using hne) heq
    · rw [List.mem_singleton]
      refine (ofNat_getD_ne_backTick hc fun n hn => ?_).symm
      exact applyRuns_ne (by decide) (by decide) hn

theorem not_mem_lowerFrom {s : List Char} (h : '\x60' ∉ s) (before : List Char) :
    '\x60' ∉ lowerFrom before s := by
  induction s generalizing before with
  | nil => exact List.not_mem_nil
  | cons c s ih =>
    rw [List.mem_cons, not_or] at h
    rw [lowerFrom, List.mem_append, not_or]
    refine ⟨?_, ih h.2 _⟩
    split
    · -- both small forms of the sigma are beyond ASCII
      split <;> decide
    · exact not_mem_lowerChar (Ne.symm h.1)

theorem not_mem_lower {s : List Char} (h : '\x60' ∉ s) : '\x60' ∉ lower s := not_mem_lowerFrom h []

theorem not_mem_upperFirst {s : List Char} (h : '\x60' ∉ s) : '\x60' ∉ upperFirst s := by
  cases s with
  | nil => exact List.not_mem_nil
  | cons c s =>
    rw [List.mem_cons, not_or] at h
    rw [upperFirst, List.mem_append, not_or]
    exact ⟨not_mem_upperChar (Ne.symm h.1), h.2⟩

/-! ## Replacements -/

theorem not_mem_replaceChar {a b x : Char} (hb : x ≠ b) {s : List Char} (h : x ∉ s) :
    x ∉ replaceChar a b s := by
  intro hx
  obtain ⟨c, hc, heq⟩ := List.mem_map.mp hx
  split at heq
  · exact hb heq.symm
  · exact h (heq ▸ hc)

theorem not_mem_replace {sep sub : List Char} (hsep : sep ≠ []) {x : Char} (hsub : x ∉ sub)
    {s : List Char} (h : x ∉ s) : x ∉ replace sep sub s := by
  induction s using separator_induction hsep with
  | none s hnone => rwa [replace_of_none sub hnone]
  | some front rest hsome ih =>
    simp only [List.mem_append, not_or] at h
    rw [replace_of_some hsep sub hsome]
    simp only [List.mem_append, not_or]
    exact ⟨⟨h.1.1, hsub⟩, ih h.2⟩

end Text

/-! ## Spellings -/

namespace Inflection

open DocWeave.Text

/-- A substitution that inserts underscores brings in no other character. -/
theorem Inserts.not_mem_substitute {find : Recogniser (List Char)} (hfind : Inserts find) {x : Char}
    (hx : x ≠ '_') {s : List Char} (h : x ∉ s) (prev : Option Char) :
    x ∉ substitute find prev s := by
  intro hmem
  have hletter : x ∈ letters (substitute find prev s) :=
    List.mem_filter.mpr ⟨hmem, by simpa using hx⟩
  rw [(hfind.spread prev s).letters_eq] at hletter
  exact h (List.mem_filter.mp hletter).1

variable {s : List Char}

theorem not_mem_underscored (h : '\x60' ∉ s) : '\x60' ∉ underscored s := by
  have hpath : '\x60' ∉ replace [':', ':'] ['/'] s := not_mem_replace (by decide) (by decide) h
  have hacronym := acronymBoundary_inserts.not_mem_substitute (by decide) hpath none
  have hcamel := camelBoundary_inserts.not_mem_substitute (by decide) hacronym none
  exact not_mem_lower (not_mem_replaceChar (by decide) hcamel)

theorem not_mem_spaced (h : '\x60' ∉ s) (capitalize : Bool) : '\x60' ∉ spaced s capitalize := by
  have hlower := not_mem_lower (not_mem_replaceChar (a := '_') (b := ' ') (by decide) h)
  unfold spaced
  split
  · exact not_mem_upperFirst hlower
  · exact hlower

theorem not_mem_capitalizeWords (h : '\x60' ∉ s) (before prev : Option Char) :
    '\x60' ∉ capitalizeWords before prev s := by
  induction s generalizing before prev with
  | nil => exact List.not_mem_nil
  | cons c s ih =>
    rw [List.mem_cons, not_or] at h
    rw [capitalizeWords, List.mem_cons, not_or]
    refine ⟨?_, ih h.2 _ _⟩
    split
    · next hsmall =>
      simp only [Bool.and_eq_true] at hsmall
      have hascii : c.toNat < 128 := by
        have hle := hsmall.1.1
        simp only [isSmall, Bool.and_eq_true, decide_eq_true_eq] at hle
        exact Nat.lt_of_le_of_lt (show c.toNat ≤ 'z'.toNat from hle.2) (by decide)
      exact forall_ascii (p := fun d => isSmall d = true → '\x60' ≠ d.toUpper) (by decide) hascii
        hsmall.1.1
    · exact h.1

/-- The heading of a name without a back-tick has none. -/
theorem not_mem_titleized (h : '\x60' ∉ s) : '\x60' ∉ titleized s := by
  refine not_mem_capitalizeWords (not_mem_spaced (fun hmem => ?_) true) none none
  exact not_mem_underscored h (List.dropWhile_subset _ hmem)

/-- The anchor of a name without a back-tick has none. -/
theorem not_mem_anchored (h : '\x60' ∉ s) : '\x60' ∉ anchored s := fun hmem =>
  not_mem_replaceChar (by decide) (not_mem_lower h) (List.mem_filter.mp hmem).1

/-- The page key of a name without a back-tick has none. -/
theorem not_mem_pageKey (h : '\x60' ∉ s) : '\x60' ∉ (pageKey (String.ofList s)).toList := by
  rw [pageKey, String.toList_ofList, String.toList_ofList]
  exact not_mem_replaceChar (by decide) (not_mem_underscored h)

end Inflection

end DocWeave
