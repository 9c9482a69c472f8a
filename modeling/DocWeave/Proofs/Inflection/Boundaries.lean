import DocWeave.Inflection
import DocWeave.Proofs.Text.Ascii
import Mathlib.Tactic.Tauto

/-!
# Word boundaries

A substitution *inserts* when every piece it takes comes back with an underscore put into it. Such a
substitution leaves the letters and the beginning of a text alone, and it makes the text longer exactly
when there is something to take (`Inserts.spread`). The two substitutions of `underscored` insert, and
between them they find something to take exactly when two words meet in the text (`Breaks`).
-/

namespace DocWeave.Inflection

open DocWeave.Text

/-- The text without its underscores. -/
def letters (s : List Char) : List Char := s.filter (· != '_')

@[simp] theorem letters_append (s t : List Char) : letters (s ++ t) = letters s ++ letters t :=
  List.filter_append _ _

@[simp] theorem letters_underscore (s : List Char) : letters ('_' :: s) = letters s := rfl

/-! ## Substitutions that insert underscores -/

/-- What is taken comes back with an underscore put into it, whatever stands before. -/
structure Inserts (find : Recogniser (List Char)) : Prop where
  blind : ∀ p q s, find p s = find q s
  taken : ∀ p s n out, find p s = some (n, out) →
    ∃ front back rest, front ≠ [] ∧ s = front ++ back ++ rest ∧ n = (front ++ back).length ∧
      out = front ++ '_' :: back

/-- The text `t` has the letters and the beginning of `s`. It is `s` itself where there is nothing to
take in `s`, and otherwise it is longer. -/
structure Spread (find : Recogniser (List Char)) (s t : List Char) : Prop where
  letters_eq : letters t = letters s
  head?_eq : t.head? = s.head?
  same_or_longer : (∀ back, back <:+ s → find none back = none) ∧ t = s ∨
    (∃ back, back <:+ s ∧ find none back ≠ none) ∧ s.length < t.length

section

variable {find : Recogniser (List Char)} {prev : Option Char} {s t : List Char} {c : Char}

theorem Spread.length_le (h : Spread find s t) : s.length ≤ t.length := by
  rcases h.same_or_longer with ⟨-, rfl⟩ | ⟨-, hlonger⟩
  · exact Nat.le_refl _
  · exact Nat.le_of_lt hlonger

theorem Inserts.spread_nil (h : Inserts find) : Spread find [] [] := by
  refine ⟨rfl, rfl, .inl ⟨fun back hback => ?_, rfl⟩⟩
  rw [List.suffix_nil.mp hback]
  cases hfind : find none [] with
  | none => rfl
  | some found =>
    obtain ⟨front, back, rest, hfront, hs, -⟩ := h.taken _ _ _ _ hfind
    rw [eq_comm, List.append_assoc, List.append_eq_nil_iff] at hs
    exact absurd hs.1 hfront

/-- A character where nothing is taken stays. -/
theorem Spread.cons (h : Spread find s t) (hfind : find none (c :: s) = none) :
    Spread find (c :: s) (c :: t) := by
  refine ⟨?_, rfl, ?_⟩
  · rw [letters, letters, List.filter_cons, List.filter_cons]
    exact congrArg (fun l => if (c != '_') = true then c :: l else l) h.letters_eq
  · rcases h.same_or_longer with ⟨hnone, rfl⟩ | ⟨⟨back, hback, hsome⟩, hlonger⟩
    · refine .inl ⟨fun back hback => ?_, rfl⟩
      rcases List.suffix_cons_iff.mp hback with rfl | hback
      · exact hfind
      · exact hnone back hback
    · exact .inr ⟨⟨back, hback.trans (List.suffix_cons _ _), hsome⟩, Nat.succ_lt_succ hlonger⟩

/-- A piece that is taken gets its underscore. -/
theorem Spread.insert (h : Spread find s t) {front back : List Char} (hfront : front ≠ [])
    (hfind : find none (front ++ back ++ s) ≠ none) :
    Spread find (front ++ back ++ s) (front ++ '_' :: back ++ t) := by
  refine ⟨by simp [h.letters_eq], ?_, .inr ⟨⟨_, List.suffix_refl _, hfind⟩, ?_⟩⟩
  · cases front with
    | nil => exact absurd rfl hfront
    | cons d front => rfl
  · have := h.length_le
    simp only [List.length_append, List.length_cons]
    omega

/-- What a substitution that inserts makes of a text. -/
theorem Inserts.spread (h : Inserts find) (prev : Option Char) (s : List Char) :
    Spread find s (substitute find prev s) := by
  -- The induction is on the length: a step goes on behind all that is taken.
  induction hlength : s.length using Nat.strongRecOn generalizing prev s with
  | ind length ih =>
    subst hlength
    cases s with
    | nil =>
      rw [substitute]
      exact h.spread_nil
    | cons c rest =>
      rw [substitute]
      cases hfind : find prev (c :: rest) with
      | none => exact (ih rest.length (by simp) (some c) rest rfl).cons (h.blind prev none _ ▸ hfind)
      | some found =>
        obtain ⟨n, out⟩ := found
        obtain ⟨front, back, more, hfront, hs, hn, rfl⟩ := h.taken _ _ _ _ hfind
        have hpos := List.length_pos_iff.mpr hfront
        rw [List.length_append] at hn
        obtain ⟨k, rfl⟩ : ∃ k, n = k + 1 := ⟨n - 1, by omega⟩
        have hmore : rest.drop k = more := by
          have hdrop : (c :: rest).drop (k + 1) = more := by
            rw [hs, hn, ← List.length_append, List.drop_left]
          simpa using hdrop
        have hshort : more.length < (c :: rest).length := by
          rw [hs]
          simp only [List.length_append]
          omega
        have hsome : find none (front ++ back ++ more) ≠ none := by
          rw [← hs, h.blind none prev, hfind]
          exact Option.some_ne_none _
        dsimp only
        rw [hmore, hs]
        exact (ih more.length hshort _ more rfl).insert hfront hsome

end

/-! ## The boundaries of `underscored` -/

/-- Two words meet before the capital `d`: a small letter or a digit stands before it, or a capital
that belongs to an acronym when a small letter follows. -/
def Meets (c d : Char) (back : List Char) : Prop :=
  isCapital d = true ∧
    (isSmall c = true ∨ isDigit c = true ∨ isCapital c = true ∧ ∃ e ∈ back.head?, isSmall e = true)

/-- Two words meet somewhere in the text. -/
def Breaks (s : List Char) : Prop := ∃ front c d back, s = front ++ c :: d :: back ∧ Meets c d back

theorem camelBoundary_inserts : Inserts camelBoundary where
  blind _ _ _ := rfl
  taken p s n out h := by
    unfold camelBoundary at h
    split at h
    · next c d rest =>
      split at h
      · cases h
        exact ⟨[c], [d], rest, by simp, rfl, rfl, rfl⟩
      · cases h
    · cases h

/-- What the search for acronyms takes. -/
theorem acronymBoundary_some {p : Option Char} {s out : List Char} {n : Nat}
    (h : acronymBoundary p s = some (n, out)) :
    ∃ front last d rest, front ≠ [] ∧ s = front ++ [last, d] ++ rest ∧
      (∀ c ∈ front, isAcronymChar c = true) ∧ isCapital last = true ∧ isSmall d = true ∧
      n = (front ++ [last, d]).length ∧ out = front ++ '_' :: [last, d] := by
  unfold acronymBoundary at h
  dsimp only at h
  split at h
  · next last first front d rest hrun hrest =>
    split at h
    · next hboth =>
      rw [Bool.and_eq_true] at hboth
      have hsplit := List.takeWhile_append_dropWhile (p := isAcronymChar) (l := s)
      have htaken : s.takeWhile isAcronymChar = (first :: front).reverse ++ [last] := by
        rw [← List.reverse_reverse (s.takeWhile isAcronymChar), hrun, List.reverse_cons]
      have hchars : ∀ c ∈ (first :: front).reverse, isAcronymChar c = true := by
        intro c hc
        have hmem : c ∈ s.takeWhile isAcronymChar := htaken ▸ List.mem_append_left _ hc
        exact List.all_eq_true.mp List.all_takeWhile c hmem
      cases h
      refine ⟨(first :: front).reverse, last, d, rest, by simp, ?_, hchars, hboth.1, hboth.2, ?_, rfl⟩
      · rw [← hsplit, htaken, hrest]
        simp
      · rw [htaken]
        simp
    · cases h
  · cases h

theorem acronymBoundary_inserts : Inserts acronymBoundary where
  blind _ _ _ := rfl
  taken p s n out h := by
    obtain ⟨front, last, d, rest, hfront, hs, -, -, -, hn, hout⟩ := acronymBoundary_some h
    exact ⟨front, [last, d], rest, hfront, hs, hn, hout⟩

/-- A small letter ends an acronym. -/
theorem isAcronymChar_of_isSmall {c : Char} (h : isSmall c = true) : isAcronymChar c = false := by
  have hascii : c.toNat < 128 := by
    simp only [isSmall, Bool.and_eq_true, decide_eq_true_eq, Char.le_def, UInt32.le_iff_toNat_le] at h
    have hhigh : c.toNat ≤ 122 := h.2
    omega
  revert h
  exact forall_ascii (p := fun c => isSmall c = true → isAcronymChar c = false) (by decide)
    hascii

/-- An acronym before a word is found where its last character stands. -/
theorem acronymBoundary_ne_none {c d e : Char} (hc : isAcronymChar c = true) (hd : isCapital d = true)
    (he : isSmall e = true) (back : List Char) : acronymBoundary none (c :: d :: e :: back) ≠ none := by
  have hd' : isAcronymChar d = true := by rw [isAcronymChar, hd, Bool.true_or]
  have he' := isAcronymChar_of_isSmall he
  have hrun : (c :: d :: e :: back).takeWhile isAcronymChar = [c, d] := by simp [hc, hd', he']
  have hrest : (c :: d :: e :: back).dropWhile isAcronymChar = e :: back := by simp [hc, hd', he']
  unfold acronymBoundary
  simp [hrun, hrest, hd, he]

theorem camelBoundary_ne_none_iff {s : List Char} :
    camelBoundary none s ≠ none ↔
      ∃ c d back, s = c :: d :: back ∧ (isSmall c = true ∨ isDigit c = true) ∧ isCapital d = true := by
  rcases s with _ | ⟨c, _ | ⟨d, back⟩⟩
  · simp [camelBoundary]
  · simp [camelBoundary]
  · simp only [camelBoundary, ne_eq, ite_eq_right_iff, reduceCtorEq, imp_false, not_not,
      Bool.and_eq_true, Bool.or_eq_true, List.cons.injEq]
    constructor
    · rintro ⟨hc, hd⟩
      exact ⟨c, d, back, ⟨rfl, rfl, rfl⟩, hc, hd⟩
    · rintro ⟨_, _, _, ⟨rfl, rfl, rfl⟩, hc, hd⟩
      exact ⟨hc, hd⟩

/-- Words meet where an acronym ends. -/
theorem breaks_of_acronymBoundary {s back : List Char} (hback : back <:+ s)
    (h : acronymBoundary none back ≠ none) : Breaks s := by
  obtain ⟨⟨n, out⟩, hfound⟩ := Option.ne_none_iff_exists'.mp h
  obtain ⟨front, last, d, rest, hfront, rfl, hchars, hlast, hd, -⟩ := acronymBoundary_some hfound
  obtain ⟨start, rfl⟩ := hback
  obtain ⟨front, c, rfl⟩ : ∃ front' c, front = front' ++ [c] :=
    ⟨_, _, (List.dropLast_concat_getLast hfront).symm⟩
  have hc : isAcronymChar c = true := hchars c (by simp)
  refine ⟨start ++ front, c, last, d :: rest, by simp, hlast, ?_⟩
  rcases Bool.or_eq_true .. ▸ hc with hcapital | hdigit
  · exact .inr (.inr ⟨hcapital, d, rfl, hd⟩)
  · exact .inr (.inl hdigit)

/-- The name with underscores between its words. -/
def parted (s : List Char) : List Char :=
  substitute camelBoundary none (substitute acronymBoundary none s)

/-- Underscores come into a name exactly where two words meet in it. -/
theorem parted_cases (s : List Char) :
    letters (parted s) = letters s ∧ (parted s).head? = s.head? ∧
      (¬ Breaks s ∧ parted s = s ∨ Breaks s ∧ s.length < (parted s).length) := by
  have hacronym := acronymBoundary_inserts.spread none s
  have hcamel := camelBoundary_inserts.spread none (substitute acronymBoundary none s)
  refine ⟨hcamel.letters_eq.trans hacronym.letters_eq, hcamel.head?_eq.trans hacronym.head?_eq, ?_⟩
  rcases hacronym.same_or_longer with ⟨hnone, hsame⟩ | ⟨⟨back, hback, hsome⟩, hlonger⟩
  · rw [hsame] at hcamel
    rw [parted, hsame]
    rcases hcamel.same_or_longer with ⟨hnone', hsame'⟩ | ⟨⟨back, hback, hsome⟩, hlonger⟩
    · refine .inl ⟨?_, hsame'⟩
      rintro ⟨front, c, d, back, rfl, hd, hmeets⟩
      rcases hmeets with hc | hc | ⟨hc, e, he, hsmall⟩
      · exact camelBoundary_ne_none_iff.mpr ⟨c, d, back, rfl, .inl hc, hd⟩
          (hnone' _ (List.suffix_append _ _))
      · exact camelBoundary_ne_none_iff.mpr ⟨c, d, back, rfl, .inr hc, hd⟩
          (hnone' _ (List.suffix_append _ _))
      · obtain ⟨back, rfl⟩ : ∃ rest, back = e :: rest := by
          cases back with
          | nil => cases he
          | cons x rest => exact ⟨rest, by rw [Option.mem_some_iff.mp he]⟩
        exact acronymBoundary_ne_none (by rw [isAcronymChar, hc, Bool.true_or]) hd hsmall back
          (hnone _ (List.suffix_append _ _))
    · obtain ⟨c, d, rest, rfl, hc, hd⟩ := camelBoundary_ne_none_iff.mp hsome
      obtain ⟨front, rfl⟩ := hback
      exact .inr ⟨⟨front, c, d, rest, rfl, hd, by tauto⟩, hlonger⟩
  · exact .inr ⟨breaks_of_acronymBoundary hback hsome, Nat.lt_of_lt_of_le hlonger hcamel.length_le⟩

end DocWeave.Inflection
