import DocWeave.Decimal.Reading
import DocWeave.Inflection
import DocWeave.Proofs.Text.Ascii
import DocWeave.Proofs.Text.Splitting
import Mathlib.Data.List.Induction

/-!
# Digits, numbers and groups

A text of digits is written again as it was when it is read as a number and the number is written out,
unless it begins with a zero (`toDigits_ofDigits`); then it comes back shorter
(`length_toDigits_ofDigits_lt`). Grouping puts in commas only (`filter_groupDigits`), and the digits
between them stand in threes from the right (`exists_inThrees`, `delimit_grouped`).
-/

namespace DocWeave

open DocWeave.Text

/-! ## Reading and writing digits -/

namespace Decimal

variable {d : Char} {ds : List Char}

/-- The number that a digit stands for. -/
def digitValue (d : Char) : Nat := d.toNat - '0'.toNat

theorem digitChar_digitValue (h : d.isDigit = true) :
    digitValue d < 10 ∧ Nat.digitChar (digitValue d) = d :=
  forall_ascii (p := fun c => c.isDigit = true → digitValue c < 10 ∧ Nat.digitChar (digitValue c) = c)
    (by decide) (ascii_of_isAlphanum (by simp [Char.isAlphanum, h])) h

theorem ofDigits_concat (ds : List Char) (d : Char) :
    ofDigits (ds ++ [d]) = 10 * ofDigits ds + digitValue d := by
  rw [ofDigits, List.foldl_append]
  rfl

/-- A digit more is written behind the others, which are not written as long as they are zeros. -/
theorem toDigits_ofDigits_concat (ds : List Char) (hd : d.isDigit = true) :
    Nat.toDigits 10 (ofDigits (ds ++ [d])) =
      if ofDigits ds = 0 then [d] else Nat.toDigits 10 (ofDigits ds) ++ [d] := by
  obtain ⟨hlt, hchar⟩ := digitChar_digitValue hd
  have hone : Nat.toDigits 10 (digitValue d) = [d] := by
    rw [Nat.toDigits_of_lt_base hlt, hchar]
  rw [ofDigits_concat]
  split
  · next hzero => rw [hzero, Nat.mul_zero, Nat.zero_add, hone]
  · next hzero =>
    rw [← Nat.toDigits_append_toDigits (by decide) (Nat.pos_of_ne_zero hzero) hlt, hone]

/-- Digits without a zero in front are those of the number that they spell. -/
theorem toDigits_ofDigits (h : ∀ d ∈ ds, d.isDigit = true) (hne : ds ≠ []) (hlead : ds.head? ≠ some '0') :
    Nat.toDigits 10 (ofDigits ds) = ds := by
  induction ds using List.reverseRecOn with
  | nil => exact absurd rfl hne
  | append_singleton ds d ih =>
    rw [toDigits_ofDigits_concat ds (h d (by simp))]
    cases hds : ds with
    | nil => rfl
    | cons c rest =>
      have hself := ih (fun e he => h e (List.mem_append_left _ he)) (by simp [hds])
        (by simpa [hds] using hlead)
      have hpos : ofDigits ds ≠ 0 := by
        intro hzero
        rw [hzero] at hself
        exact hlead (by rw [← hself]; rfl)
      rw [← hds, if_neg hpos, hself]

theorem length_toDigits_ofDigits_le (h : ∀ d ∈ ds, d.isDigit = true) (hne : ds ≠ []) :
    (Nat.toDigits 10 (ofDigits ds)).length ≤ ds.length := by
  induction ds using List.reverseRecOn with
  | nil => exact absurd rfl hne
  | append_singleton ds d ih =>
    rw [toDigits_ofDigits_concat ds (h d (by simp))]
    split
    · simp
    · next hpos =>
      have hle := ih (fun e he => h e (List.mem_append_left _ he)) fun hnil => hpos (hnil ▸ rfl)
      simpa using hle

/-- Only zeros are lost. -/
theorem filter_toDigits_ofDigits (h : ∀ d ∈ ds, d.isDigit = true) :
    (Nat.toDigits 10 (ofDigits ds)).filter (· != '0') = ds.filter (· != '0') := by
  induction ds with
  | nil => rfl
  | cons d ds ih =>
    by_cases hzero : d = '0'
    · subst hzero
      exact ih fun e he => h e (List.mem_cons_of_mem _ he)
    · rw [toDigits_ofDigits h (List.cons_ne_nil _ _) fun hlead => hzero (Option.some.inj hlead)]

/-- Digits with a zero in front are more than the number that they spell has. -/
theorem length_toDigits_ofDigits_lt (h : ∀ d ∈ ds, d.isDigit = true) (hne : ds ≠ []) :
    (Nat.toDigits 10 (ofDigits ('0' :: ds))).length < ('0' :: ds).length :=
  Nat.lt_succ_of_le (length_toDigits_ofDigits_le h hne)

/-! ### Negative numbers -/

/-- What stands in front of the digits of a number. -/
def sign (n : Int) : List Char := if n < 0 then ['-'] else []

theorem eq_minus_of_mem_sign {c : Char} {n : Int} (h : c ∈ sign n) : c = '-' := by
  rw [sign] at h
  split at h
  · exact List.mem_singleton.mp h
  · cases h

/-- A number in decimals. -/
theorem toList_toString (n : Int) : (toString n).toList = sign n ++ Nat.toDigits 10 n.natAbs := by
  cases n with
  | ofNat m => simp [sign, toString, Int.repr, Nat.repr]
  | negSucc m => simp [sign, toString, Int.repr, Nat.repr, Int.negSucc_lt_zero]

end Decimal

/-! ## Groups of digits -/

namespace Inflection

/-- What leaves the commas out leaves the groups out. -/
theorem filter_groupDigits {p : Char → Bool} (hp : p ',' = false) (s : List Char) :
    (groupDigits s).filter p = s.filter p := by
  induction s with
  | nil => rfl
  | cons c s ih =>
    rw [groupDigits]
    split
    · rw [List.filter_cons, List.filter_cons (x := ','), hp, ih, List.filter_cons]
      rfl
    · rw [List.filter_cons, List.filter_cons, ih]

/-- Some digits, cut into groups of three from the right: the first group has what is left, one to three
digits. -/
structure InThrees (ds first : List Char) (others : List (List Char)) : Prop where
  flatten : first ++ others.flatten = ds
  first_ne_nil : first ≠ []
  first_le : first.length ≤ 3
  others_eq : ∀ g ∈ others, g.length = 3

/-- One more digit in front of some groups goes into the first of them, unless that is full. -/
theorem InThrees.cons {ds first : List Char} {others : List (List Char)} (h : InThrees ds first others)
    (c : Char) : if ds.length % 3 = 0 then InThrees (c :: ds) [c] (first :: others)
      else InThrees (c :: ds) (c :: first) others := by
  have hothers : others.flatten.length % 3 = 0 := by
    rw [List.length_flatten, List.map_eq_replicate_iff.mpr h.others_eq, List.sum_replicate_nat]
    exact Nat.mul_mod_left _ 3
  have hlength : ds.length = first.length + others.flatten.length := by
    rw [← List.length_append, h.flatten]
  have hpos := List.length_pos_iff.mpr h.first_ne_nil
  have hle := h.first_le
  split
  · refine ⟨?_, List.cons_ne_nil _ _, by simp, List.forall_mem_cons.mpr ⟨by omega, h.others_eq⟩⟩
    rw [List.flatten_cons, h.flatten]
    rfl
  · refine ⟨?_, List.cons_ne_nil _ _, ?_, h.others_eq⟩
    · rw [List.cons_append, h.flatten]
    · rw [List.length_cons]
      omega

/-- The commas stand between the groups. -/
theorem exists_inThrees {ds : List Char} (hne : ds ≠ []) :
    ∃ first others, InThrees ds first others ∧
      groupDigits ds = [','].intercalate (first :: others) := by
  induction ds with
  | nil => exact absurd rfl hne
  | cons c ds ih =>
    rw [groupDigits]
    cases ds with
    | nil => exact ⟨[c], [], ⟨rfl, by simp, by simp, by simp⟩, rfl⟩
    | cons d ds =>
      obtain ⟨first, others, hthrees, hgroups⟩ := ih (List.cons_ne_nil _ _)
      have hcons := hthrees.cons c
      rw [hgroups]
      by_cases hfull : (d :: ds).length % 3 = 0
      · rw [if_pos hfull] at hcons
        refine ⟨_, _, hcons, ?_⟩
        rw [hfull, List.intercalate_cons_cons]
        rfl
      · rw [if_neg hfull] at hcons
        refine ⟨_, _, hcons, ?_⟩
        rw [beq_false_of_ne hfull, intercalate_cons, intercalate_cons]
        rfl

theorem head?_groupDigits (ds : List Char) : (groupDigits ds).head? = ds.head? := by
  cases ds with
  | nil => rfl
  | cons d ds =>
    rw [groupDigits]
    split
    · rfl
    · rfl

/-- A comma between groups has a digit on both sides. -/
theorem digits_around_comma {ds : List Char} (h : ∀ d ∈ ds, d.isDigit = true) {front rest : List Char}
    (hcomma : groupDigits ds = front ++ ',' :: rest) :
    (∃ c, front.getLast? = some c ∧ c.isDigit = true) ∧ ∃ c, rest.head? = some c ∧ c.isDigit = true := by
  induction ds generalizing front with
  | nil => exact absurd (congrArg List.length hcomma) (by simp [groupDigits])
  | cons d ds ih =>
    obtain ⟨hd, hds⟩ := List.forall_mem_cons.mp h
    -- the comma is behind the first digit
    have hbehind : ∀ {tail : List Char}, d :: tail = front ++ ',' :: rest →
        ∃ more, front = d :: more ∧ tail = more ++ ',' :: rest := by
      intro tail heq
      rcases List.cons_eq_append_iff.mp heq with ⟨rfl, hhead⟩ | ⟨more, rfl, htail⟩
      · obtain rfl : ',' = d := (List.cons.inj hhead).1
        exact absurd hd (by decide)
      · exact ⟨more, rfl, htail⟩
    rw [groupDigits] at hcomma
    split at hcomma
    · next hgroup =>
      obtain ⟨more, rfl, htail⟩ := hbehind hcomma
      rcases List.cons_eq_append_iff.mp htail with ⟨rfl, hrest⟩ | ⟨more, rfl, htail⟩
      · obtain rfl : rest = groupDigits ds := (List.cons.inj hrest).2
        refine ⟨⟨d, rfl, hd⟩, ?_⟩
        rw [head?_groupDigits]
        cases ds with
        | nil => simp at hgroup
        | cons c ds => exact ⟨c, rfl, hds c List.mem_cons_self⟩
      · obtain ⟨⟨c, hlast, hc⟩, hright⟩ := ih hds (List.cons.inj htail).2
        refine ⟨⟨c, ?_, hc⟩, hright⟩
        rw [List.getLast?_cons, List.getLast?_cons, hlast]
        rfl
    · obtain ⟨more, rfl, htail⟩ := hbehind hcomma
      obtain ⟨⟨c, hlast, hc⟩, hright⟩ := ih hds htail
      refine ⟨⟨c, ?_, hc⟩, hright⟩
      rw [List.getLast?_cons, hlast]
      rfl

theorem toList_delimit (n : Int) :
    (delimit n).toList = Decimal.sign n ++ groupDigits (Nat.toDigits 10 n.natAbs) := by
  rw [delimit, String.toList_ofList, delimited, Decimal.sign]
  split
  · rfl
  · rfl

/-- **Grouped numbers.** Without its commas a grouped number is the number in decimals. Its digits stand
behind the sign in groups with a comma between each two: one to three in the first group and three in each
further one. So every comma has a digit on both sides. -/
theorem delimit_grouped (n : Int) :
    (delimit n).toList.filter (· != ',') = (toString n).toList ∧
    (∃ first others, (delimit n).toList = Decimal.sign n ++ [','].intercalate (first :: others) ∧
      InThrees (Nat.toDigits 10 n.natAbs) first others) ∧
    ∀ front rest, (delimit n).toList = front ++ ',' :: rest →
      (∃ c, front.getLast? = some c ∧ c.isDigit = true) ∧
        ∃ c, rest.head? = some c ∧ c.isDigit = true := by
  have hdigits : ∀ d ∈ Nat.toDigits 10 n.natAbs, d.isDigit = true := fun d hd =>
    Nat.isDigit_of_mem_toDigits (by decide) (by decide) hd
  rw [toList_delimit]
  refine ⟨?_, ?_, ?_⟩
  · have hnone : ',' ∉ Decimal.sign n ++ Nat.toDigits 10 n.natAbs := by
      intro hmem
      rcases List.mem_append.mp hmem with hmem | hmem
      · exact absurd (Decimal.eq_minus_of_mem_sign hmem) (by decide)
      · exact absurd (hdigits ',' hmem) (by decide)
    rw [List.filter_append, filter_groupDigits rfl, ← List.filter_append, Decimal.toList_toString]
    exact List.filter_eq_self.mpr fun c hc => bne_iff_ne.mpr fun heq => hnone (heq ▸ hc)
  · obtain ⟨first, others, hthrees, hgroups⟩ :=
      exists_inThrees Nat.toDigits_ne_nil
    exact ⟨first, others, by rw [hgroups], hthrees⟩
  · intro front rest hcomma
    rcases List.append_eq_append_iff.mp hcomma with ⟨more, rfl, hmore⟩ | ⟨more, hmore, hrest⟩
    · obtain ⟨⟨c, hlast, hc⟩, hright⟩ := digits_around_comma hdigits hmore
      exact ⟨⟨c, by rw [List.getLast?_append, hlast]; rfl, hc⟩, hright⟩
    · -- the comma would stand in the sign, or in front of all groups
      exfalso
      rcases List.cons_eq_append_iff.mp hrest with ⟨rfl, hgroups⟩ | ⟨more, rfl, -⟩
      · have hfirst : groupDigits (Nat.toDigits 10 n.natAbs) = [] ++ ',' :: rest := hgroups
        obtain ⟨⟨c, hlast, -⟩, -⟩ := digits_around_comma hdigits hfirst
        cases hlast
      · have hsign : ',' ∈ Decimal.sign n := by simp [hmore]
        exact absurd (Decimal.eq_minus_of_mem_sign hsign) (by decide)

/-- The least integer of 128 bits, and the comma behind its first group. -/
theorem delimit_grouped_least :
    (delimit (-170141183460469231731687303715884105728)).toList =
        "-170".toList ++ ',' :: "141,183,460,469,231,731,687,303,715,884,105,728".toList ∧
      (∃ c, "-170".toList.getLast? = some c ∧ c.isDigit = true) ∧
      (∃ c, "141,183,460,469,231,731,687,303,715,884,105,728".toList.head? = some c ∧
        c.isDigit = true) ∧
      (delimit (-170141183460469231731687303715884105728)).toList.filter (· != ',') =
        "-170141183460469231731687303715884105728".toList := by
  have hleast : (delimit (-170141183460469231731687303715884105728)).toList =
      "-170".toList ++ ',' :: "141,183,460,469,231,731,687,303,715,884,105,728".toList := by decide +kernel
  obtain ⟨hplain, -, hcommas⟩ := delimit_grouped (-170141183460469231731687303715884105728)
  obtain ⟨hleft, hright⟩ := hcommas _ _ hleast
  exact ⟨hleast, hleft, hright, hplain⟩

end Inflection

end DocWeave
