import DocWeave.Proofs.Inflection.Grouping
import DocWeave.Prose.Number
import Mathlib.Data.List.TakeWhile

/-!
# Grouped numbers keep their digits

`IsNumber` says what a number in a text is without saying how it is found, and a number is `Regrouped`
when it is neither glued to what stands before it nor too large. A regrouped number is read and written
again, which loses the zeros it begins with and nothing else. The pass goes through the text number by
number, so it keeps the digits of the text exactly when no regrouped number begins with a zero
(`unseparated_readableNumbers_iff`).
-/

namespace DocWeave.Prose

open DocWeave.Text

/-! ## Numbers in a text -/

/-- A number with `back` behind it: digits and underscores, at least three of them, from the first digit
to the last before any other character. -/
structure IsNumber (number back : List Char) : Prop where
  chars : ∀ c ∈ number, c.isDigit = true ∨ c = '_'
  first : ∃ c ∈ number.head?, c.isDigit = true
  last : ∃ c ∈ number.getLast?, c.isDigit = true
  long : 3 ≤ number.length
  ends : ∀ c ∈ (back.dropWhile (· == '_')).head?, c.isDigit = false

/-- A number between `front` and `back` that is written in groups: it does not belong to a word or a
decimal fraction, and it fits into 128 bits. -/
structure Regrouped (front number back : List Char) : Prop extends IsNumber number back where
  free : ∀ c ∈ front.getLast?, isAlphanumeric c = false ∧ c ≠ '_' ∧ c ≠ '.'
  fits : Decimal.ofDigits (number.filter (· != '_')) ≤ largestNumber

section

variable {number back rest s us : List Char}

theorem IsNumber.ne_nil (h : IsNumber number back) : number ≠ [] :=
  List.ne_nil_of_length_pos (Nat.lt_of_lt_of_le (by decide) h.long)

theorem throughLastDigit_append (hs : ∃ c ∈ s.getLast?, c.isDigit = true)
    (hus : ∀ c ∈ us, c.isDigit = false) : throughLastDigit (s ++ us) = s := by
  obtain ⟨c, hc, hdigit⟩ := hs
  obtain ⟨front, rfl⟩ := List.getLast?_eq_some_iff.mp hc
  have hdrop : ∀ c ∈ us.reverse, (!c.isDigit) = true := fun c hc => by
    simp [hus c (List.mem_reverse.mp hc)]
  rw [throughLastDigit, List.reverse_append, List.dropWhile_append_of_pos hdrop, List.reverse_concat,
    List.dropWhile_cons_of_neg (by simp [hdigit]), ← List.reverse_concat, List.reverse_reverse]

/-- What is behind the last digit has none. -/
theorem exists_throughLastDigit_append (s : List Char) :
    ∃ us, s = throughLastDigit s ++ us ∧ (∀ c ∈ us, c.isDigit = false) ∧
      ∀ c ∈ (throughLastDigit s).getLast?, c.isDigit = true := by
  refine ⟨(s.reverse.takeWhile fun c => !c.isDigit).reverse, ?_, fun c hc => ?_, fun c hc => ?_⟩
  · rw [throughLastDigit, ← List.reverse_append, List.takeWhile_append_dropWhile, List.reverse_reverse]
  · have := List.mem_takeWhile_imp (List.mem_reverse.mp hc)
    simpa using this
  · rw [throughLastDigit, List.getLast?_reverse] at hc
    have hhead := List.head?_dropWhile_not (fun c => !c.isDigit) s.reverse
    rw [hc] at hhead
    simpa using hhead

/-- A character of a number. -/
def isNumberChar (c : Char) : Bool := c.isDigit || c == '_'

/-- The run of number characters at the beginning of what stands behind a number has no digit. -/
theorem takeWhile_isNumberChar (h : ∀ c ∈ (back.dropWhile (· == '_')).head?, c.isDigit = false) :
    back.takeWhile isNumberChar = back.takeWhile (· == '_') := by
  have hus : ∀ c ∈ back.takeWhile (· == '_'), isNumberChar c = true := fun c hc => by
    simp [isNumberChar, List.mem_takeWhile_imp hc]
  have hrest : (back.dropWhile (· == '_')).takeWhile isNumberChar = [] := by
    cases hdrop : back.dropWhile (· == '_') with
    | nil => rfl
    | cons c rest =>
      have hdigit : c.isDigit = false := h c (by rw [hdrop]; rfl)
      have hunderscore := List.head?_dropWhile_not (· == '_') back
      rw [hdrop] at hunderscore
      exact List.takeWhile_cons_of_neg (by simpa [isNumberChar, hdigit] using hunderscore)
  calc
    back.takeWhile isNumberChar
        = (back.takeWhile (· == '_') ++ back.dropWhile (· == '_')).takeWhile isNumberChar := by
          rw [List.takeWhile_append_dropWhile]
    _ = back.takeWhile (· == '_') := by
          rw [List.takeWhile_append_of_pos hus, hrest, List.append_nil]

theorem takeNumber?_cons (c : Char) (t : List Char) :
    takeNumber? (c :: t) =
      if c.isDigit = true then
        if 2 ≤ (throughLastDigit (t.takeWhile isNumberChar)).length then
          some (c :: throughLastDigit (t.takeWhile isNumberChar))
        else none
      else none := rfl

theorem takeNumber?_append (h : IsNumber number back) : takeNumber? (number ++ back) = some number := by
  obtain ⟨chars, ⟨c, hc, hdigit⟩, last, long, ends⟩ := h
  obtain ⟨body, rfl⟩ := List.head?_eq_some_iff.mp hc
  obtain ⟨-, hbody⟩ := List.forall_mem_cons.mp chars
  rw [List.length_cons] at long
  have hne : body ≠ [] := by
    rintro rfl
    exact absurd long (by decide)
  have hrun : (body ++ back).takeWhile isNumberChar = body ++ back.takeWhile (· == '_') := by
    rw [List.takeWhile_append_of_pos fun d hd => by simpa [isNumberChar] using hbody d hd,
      takeWhile_isNumberChar ends]
  have htaken : throughLastDigit ((body ++ back).takeWhile isNumberChar) = body := by
    rw [hrun]
    refine throughLastDigit_append (by rwa [List.getLast?_cons_of_ne_nil hne] at last) fun d hd => ?_
    have hunderscore : (d == '_') = true := List.mem_takeWhile_imp (p := (· == '_')) hd
    rw [beq_iff_eq.mp hunderscore]
    rfl
  rw [List.cons_append, takeNumber?_cons, if_pos hdigit, htaken, if_pos (by omega)]

theorem exists_of_takeNumber? (h : takeNumber? s = some number) :
    ∃ back, s = number ++ back ∧ IsNumber number back := by
  cases s with
  | nil => cases h
  | cons c t =>
    rw [takeNumber?_cons] at h
    obtain ⟨us, hrun, hus, hlast⟩ := exists_throughLastDigit_append (t.takeWhile isNumberChar)
    generalize throughLastDigit (t.takeWhile isNumberChar) = body at h hrun hlast
    split at h
    · next hdigit =>
      split at h
      · next hlong =>
        cases h
        have hchars : ∀ d ∈ body ++ us, d.isDigit = true ∨ d = '_' := by
          rw [← hrun]
          exact fun d hd => by simpa [isNumberChar] using List.mem_takeWhile_imp hd
        have hunderscores : ∀ d ∈ us, (d == '_') = true := fun d hd => by
          simpa [hus d hd] using hchars d (List.mem_append_right _ hd)
        have hne : body ≠ [] := by
          rintro rfl
          exact absurd hlong (by decide)
        refine ⟨us ++ t.dropWhile isNumberChar, ?_, ?_, ⟨c, rfl, hdigit⟩, ?_, ?_, ?_⟩
        · rw [List.cons_append, ← List.append_assoc, ← hrun, List.takeWhile_append_dropWhile]
        · exact List.forall_mem_cons.mpr
            ⟨.inl hdigit, fun d hd => hchars d (List.mem_append_left _ hd)⟩
        · rw [List.getLast?_cons_of_ne_nil hne]
          exact ⟨_, List.getLast?_eq_some_getLast hne, hlast _ (List.getLast?_eq_some_getLast hne)⟩
        · rw [List.length_cons]
          omega
        · rw [List.dropWhile_append_of_pos hunderscores]
          cases hrest : t.dropWhile isNumberChar with
          | nil => exact fun e he => nomatch he
          | cons d rest =>
            have hstop := List.head?_dropWhile_not isNumberChar t
            rw [hrest] at hstop
            simp only [List.head?_cons, isNumberChar, Bool.or_eq_false_iff] at hstop
            rw [List.dropWhile_cons_of_neg (by simp [hstop.2])]
            intro e he
            cases he
            exact hstop.1
      · cases h
    · cases h

end

/-! ## What a regrouped number keeps -/

/-- The text without separators of digits. -/
def unseparated (s : List Char) : List Char := s.filter fun c => c != '_' && c != ','

section

variable {number back : List Char} {prev : Option Char}

@[simp] theorem unseparated_append (s t : List Char) :
    unseparated (s ++ t) = unseparated s ++ unseparated t := List.filter_append _ _

theorem ne_separator_of_isDigit {d : Char} (h : d.isDigit = true) :
    (d != '_' && d != ',') = true := by
  rw [Bool.and_eq_true, bne_iff_ne, bne_iff_ne]
  constructor
  · rintro rfl
    cases h
  · rintro rfl
    cases h

theorem unseparated_of_digits {ds : List Char} (h : ∀ d ∈ ds, d.isDigit = true) :
    unseparated ds = ds :=
  List.filter_eq_self.mpr fun d hd => ne_separator_of_isDigit (h d hd)

theorem IsNumber.unseparated_eq (h : IsNumber number back) :
    unseparated number = number.filter (· != '_') := by
  refine List.filter_congr fun c hc => ?_
  rcases h.chars c hc with hdigit | rfl
  · have hne := ne_separator_of_isDigit hdigit
    rw [hne, (Bool.and_eq_true_iff.mp hne).1]
  · rfl

theorem IsNumber.digits (h : IsNumber number back) : ∀ c ∈ unseparated number, c.isDigit = true := by
  intro c hc
  rw [h.unseparated_eq, List.mem_filter] at hc
  exact (h.chars c hc.1).resolve_right (by simpa using hc.2)

/-- The digits of a number: its first character and at least one more. -/
theorem IsNumber.exists_digits (h : IsNumber number back) :
    ∃ c ds, number.head? = some c ∧ ds ≠ [] ∧ unseparated number = c :: ds := by
  obtain ⟨c, hc, hdigit⟩ := h.first
  obtain ⟨d, hd, hlast⟩ := h.last
  obtain ⟨body, rfl⟩ := List.head?_eq_some_iff.mp hc
  have hlong := h.long
  have hne : body ≠ [] := by
    rintro rfl
    simp at hlong
  have hmem : d ∈ unseparated body := by
    rw [List.getLast?_cons_of_ne_nil hne] at hd
    exact List.mem_filter.mpr ⟨List.mem_of_getLast? hd, ne_separator_of_isDigit hlast⟩
  refine ⟨c, unseparated body, rfl, List.ne_nil_of_mem hmem, ?_⟩
  rw [← List.singleton_append, unseparated_append, unseparated_of_digits (by simpa using hdigit)]
  rfl

/-- How a number is written that is neither glued nor too large. -/
theorem unseparated_delimited (n : Nat) :
    unseparated (Inflection.delimited (Int.ofNat n)) = Nat.toDigits 10 n := by
  have hdelimited : Inflection.delimited (Int.ofNat n) = Inflection.groupDigits (Nat.toDigits 10 n) := by
    rw [Inflection.delimited, if_neg (by simp)]
    rfl
  rw [hdelimited, unseparated, Inflection.filter_groupDigits rfl, ← unseparated]
  exact unseparated_of_digits fun d hd => Nat.isDigit_of_mem_toDigits (by decide) (by decide) hd

/-- One text is another from which nothing but zeros has been taken. -/
structure FewerZeros (t s : List Char) : Prop where
  length_le : t.length ≤ s.length
  others : t.filter (· != '0') = s.filter (· != '0')

theorem FewerZeros.append {t t' s s' : List Char} (h : FewerZeros t s) (h' : FewerZeros t' s') :
    FewerZeros (t ++ t') (s ++ s') where
  length_le := by
    rw [List.length_append, List.length_append]
    exact Nat.add_le_add h.length_le h'.length_le
  others := by rw [List.filter_append, List.filter_append, h.others, h'.others]

/-- Two texts in two parts are the same if their parts are. -/
theorem FewerZeros.append_eq_iff {t t' s s' : List Char} (h : FewerZeros t s) (h' : FewerZeros t' s') :
    t ++ t' = s ++ s' ↔ t = s ∧ t' = s' := by
  constructor
  · intro heq
    have hlength := congrArg List.length heq
    have hle := h.length_le
    have hle' := h'.length_le
    rw [List.length_append, List.length_append] at hlength
    exact List.append_inj heq (by omega)
  · rintro ⟨rfl, rfl⟩
    rfl

/-- What is written for a number. -/
def written (prev : Option Char) (number : List Char) : List Char :=
  if (prev.any fun c => isAlphanumeric c || c == '_' || c == '.') ||
    decide (largestNumber < Decimal.ofDigits (number.filter (· != '_'))) then number
  else Inflection.delimited (Int.ofNat (Decimal.ofDigits (number.filter (· != '_'))))

theorem written_of_not_regrouped (h : IsNumber number back) (hkept : ¬Regrouped prev.toList number back) :
    written prev number = number := by
  refine if_pos ?_
  by_contra hcond
  simp only [Bool.or_eq_true, decide_eq_true_eq, not_or, Bool.not_eq_true, Nat.not_lt] at hcond
  refine hkept ⟨h, fun c hc => ?_, hcond.2⟩
  cases prev with
  | none => cases hc
  | some d =>
    cases hc
    simpa [and_assoc] using hcond.1

theorem written_of_regrouped (h : Regrouped prev.toList number back) :
    written prev number = Inflection.delimited (Int.ofNat (Decimal.ofDigits (unseparated number))) := by
  have hfree : (prev.any fun c => isAlphanumeric c || c == '_' || c == '.') = false := by
    cases prev with
    | none => rfl
    | some d => simpa [and_assoc] using h.free d rfl
  rw [h.unseparated_eq, written, if_neg (by simp [hfree, h.fits])]

/-- A number loses zeros only, and none unless it is regrouped and begins with a zero. -/
theorem unseparated_written (prev : Option Char) (h : IsNumber number back) :
    FewerZeros (unseparated (written prev number)) (unseparated number) ∧
      (unseparated (written prev number) = unseparated number ↔
        (Regrouped prev.toList number back → number.head? ≠ some '0')) := by
  by_cases hregrouped : Regrouped prev.toList number back
  · obtain ⟨c, ds, hhead, hne, hdigits⟩ := h.exists_digits
    have hall := h.digits
    rw [hdigits] at hall
    rw [written_of_regrouped hregrouped, unseparated_delimited, hdigits, hhead]
    refine ⟨⟨Decimal.length_toDigits_ofDigits_le hall (List.cons_ne_nil _ _),
      Decimal.filter_toDigits_ofDigits hall⟩, ?_⟩
    simp only [hregrouped, true_imp_iff]
    constructor
    · rintro hkept hzero
      cases hzero
      have hshort := Decimal.length_toDigits_ofDigits_lt (fun d hd => hall d (List.mem_cons_of_mem _ hd)) hne
      rw [hkept] at hshort
      exact absurd hshort (Nat.lt_irrefl _)
    · exact fun hlead => Decimal.toDigits_ofDigits hall (List.cons_ne_nil _ _) hlead
  · rw [written_of_not_regrouped h hregrouped]
    exact ⟨⟨Nat.le_refl _, rfl⟩, iff_of_true rfl fun h => absurd h hregrouped⟩

end

/-! ## Number by number -/

/-- No number that is regrouped begins with a zero. -/
def Unpadded (prev : Option Char) (s : List Char) : Prop :=
  ∀ front number back, s = front ++ number ++ back → Regrouped (prev.toList ++ front) number back →
    number.head? ≠ some '0'

section

variable {c : Char} {front front' number number' back back' rest s : List Char} {prev : Option Char}

theorem Regrouped.congr (h : Regrouped front number back) (hfront : front.getLast? = front'.getLast?) :
    Regrouped front' number back :=
  ⟨h.toIsNumber, fun c hc => h.free c (hfront ▸ hc), h.fits⟩

theorem IsNumber.eq (h : IsNumber number back) (h' : IsNumber number' back')
    (heq : number ++ back = number' ++ back') : number = number' ∧ back = back' := by
  have htaken := takeNumber?_append h
  rw [heq, takeNumber?_append h'] at htaken
  cases htaken
  exact ⟨rfl, List.append_cancel_left heq⟩

/-- A number that begins behind a character of another number is not regrouped. -/
theorem Regrouped.not_inside (h : Regrouped front number back) (hfront : front ≠ [])
    (hinside : ∀ c ∈ front.getLast?, c.isDigit = true ∨ c = '_') : False := by
  have hlast := List.getLast?_eq_some_getLast hfront
  obtain ⟨hword, hunderscore, -⟩ := h.free _ hlast
  rcases hinside _ hlast with hdigit | heq
  · have halphanum : (front.getLast hfront).isAlphanum = true := by simp [Char.isAlphanum, hdigit]
    rw [isAlphanumeric_of_ascii (ascii_of_isAlphanum halphanum), halphanum] at hword
    cases hword
  · exact hunderscore heq

theorem unpadded_cons (h : takeNumber? (c :: rest) = none) :
    Unpadded prev (c :: rest) ↔ Unpadded (some c) rest := by
  have hlast (front : List Char) :
      (prev.toList ++ c :: front).getLast? = ((some c).toList ++ front).getLast? := by
    simp [List.getLast?_append, List.getLast?_cons]
  constructor
  · rintro hall front number back rfl hregrouped
    exact hall (c :: front) number back rfl (hregrouped.congr (hlast front).symm)
  · intro hall front number back hs hregrouped
    cases front with
    | nil =>
      rw [hs, List.nil_append, takeNumber?_append hregrouped.toIsNumber] at h
      cases h
    | cons d front =>
      obtain ⟨rfl, hrest⟩ := List.cons.inj hs
      exact hall front number back hrest (hregrouped.congr (hlast front))

theorem unpadded_append (h : IsNumber number back) :
    Unpadded prev (number ++ back) ↔ (Regrouped prev.toList number back → number.head? ≠ some '0') ∧
      Unpadded number.getLast? back := by
  have hne := h.ne_nil
  have hlast (front : List Char) :
      (prev.toList ++ (number ++ front)).getLast? = (number.getLast?.toList ++ front).getLast? := by
    simp [List.getLast?_append, List.getLast?_eq_some_getLast hne, List.getLast?_cons]
  constructor
  · intro hall
    refine ⟨fun hregrouped => hall [] number back rfl (by simpa using hregrouped), ?_⟩
    rintro front number' back' rfl hregrouped
    exact hall (number ++ front) number' back' (by simp) (hregrouped.congr (hlast front).symm)
  · rintro ⟨hfirst, hrest⟩ front number' back' hs hregrouped
    rw [List.append_assoc] at hs
    rcases List.append_eq_append_iff.mp hs with ⟨more, rfl, hback⟩ | ⟨more, rfl, hback⟩
    · exact hrest more number' back' (by simp [hback]) (hregrouped.congr (hlast more))
    · cases front with
      | nil =>
        rw [List.append_nil] at hregrouped
        obtain ⟨rfl, rfl⟩ := h.eq hregrouped.toIsNumber hback.symm
        exact hfirst hregrouped
      | cons d front =>
        refine (hregrouped.not_inside (by simp) fun c hc => h.chars c ?_).elim
        rw [List.getLast?_append, List.getLast?_eq_some_getLast (List.cons_ne_nil d front),
          Option.some_or, Option.mem_some_iff] at hc
        exact List.mem_append_left _ (hc ▸ List.getLast_mem _)

theorem exists_of_readableNumber {n : Nat} {out : List Char}
    (h : readableNumber prev s = some (n + 1, out)) :
    ∃ number back, s = number ++ back ∧ IsNumber number back ∧ number.length = n + 1 ∧
      out = written prev number := by
  obtain ⟨number, hnumber, hout⟩ := Option.map_eq_some_iff.mp h
  obtain ⟨back, hs, hback⟩ := exists_of_takeNumber? hnumber
  obtain ⟨hlength, hwritten⟩ := Prod.mk.inj hout
  exact ⟨number, back, hs, hback, hlength, hwritten.symm⟩

theorem takeNumber?_eq_none (h : ∀ n out, readableNumber prev s ≠ some (n + 1, out)) :
    takeNumber? s = none := by
  by_contra hsome
  obtain ⟨number, hnumber⟩ := Option.ne_none_iff_exists'.mp hsome
  obtain ⟨back, -, hback⟩ := exists_of_takeNumber? hnumber
  have hlong := hback.long
  refine h (number.length - 1) (written prev number) (Option.map_eq_some_iff.mpr ⟨number, hnumber, ?_⟩)
  rw [Nat.sub_add_cancel (by omega)]
  rfl

/-- Where the pass goes on behind a number, and what stands in front of it there. -/
theorem drop_of_length_eq {n : Nat} (hs : c :: rest = number ++ back) (hn : number.length = n + 1) :
    rest.drop n = back ∧ (c :: rest)[n]? = number.getLast? ∧ back.length < (c :: rest).length := by
  refine ⟨?_, ?_, ?_⟩
  · have hdrop : (c :: rest).drop (n + 1) = back := by
      rw [hs, ← hn, List.drop_left]
    rwa [List.drop_succ_cons] at hdrop
  · rw [hs, List.getElem?_append_left (by omega), List.getLast?_eq_getElem?, hn, Nat.add_sub_cancel]
  · rw [hs, List.length_append]
    omega

/-- What the pass makes of a text in front of which a character stands. -/
theorem unseparated_substitute (prev : Option Char) (s : List Char) :
    FewerZeros (unseparated (substitute readableNumber prev s)) (unseparated s) ∧
      (unseparated (substitute readableNumber prev s) = unseparated s ↔ Unpadded prev s) := by
  -- The induction is on the length: a step goes on behind all that is taken.
  induction hlength : s.length using Nat.strongRecOn generalizing prev s with
  | ind length ih =>
    subst hlength
    cases s with
    | nil =>
      rw [substitute]
      refine ⟨⟨Nat.le_refl _, rfl⟩, iff_of_true rfl fun front number back hs hregrouped => ?_⟩
      simp only [List.nil_eq, List.append_eq_nil_iff] at hs
      exact absurd hs.1.2 hregrouped.ne_nil
    | cons c rest =>
      rcases substitute_cons readableNumber prev c rest with ⟨n, out, htaken, heq⟩ | ⟨hnone, heq⟩
      · obtain ⟨number, back, hs, hback, hn, rfl⟩ := exists_of_readableNumber htaken
        obtain ⟨hdrop, hprev, hshort⟩ := drop_of_length_eq hs hn
        obtain ⟨hfewer, hiff⟩ := unseparated_written prev hback
        obtain ⟨hfewer', hiff'⟩ := ih back.length hshort number.getLast? back rfl
        rw [heq, hdrop, hprev, hs, unseparated_append, unseparated_append, unpadded_append hback,
          hfewer.append_eq_iff hfewer', hiff, hiff']
        exact ⟨hfewer.append hfewer', Iff.rfl⟩
      · obtain ⟨hfewer, hiff⟩ := ih rest.length (Nat.lt_succ_self _) (some c) rest rfl
        have hcopied : FewerZeros (unseparated [c]) (unseparated [c]) := ⟨Nat.le_refl _, rfl⟩
        rw [heq, unpadded_cons (takeNumber?_eq_none hnone), ← List.singleton_append,
          ← List.singleton_append (l := rest), unseparated_append, unseparated_append,
          hcopied.append_eq_iff hfewer, hiff]
        exact ⟨hcopied.append hfewer, and_iff_right rfl⟩

end

/-- **Numbers.** The characters of a text other than separators and zeros stay as they are, and the zeros
do as well exactly if no number that is regrouped begins with one. -/
theorem unseparated_readableNumbers_iff (s : List Char) :
    (unseparated (readableNumbers s)).filter (· != '0') = (unseparated s).filter (· != '0') ∧
      (unseparated (readableNumbers s) = unseparated s ↔
        ∀ front number back, s = front ++ number ++ back → Regrouped front number back →
          number.head? ≠ some '0') :=
  have ⟨hfewer, hiff⟩ := unseparated_substitute none s
  ⟨hfewer.others, hiff⟩

/-- The second group of a number that is grouped already loses its zeros. -/
theorem not_unseparated_readableNumbers :
    readableNumbers "1,000".toList = "1,0".toList ∧
      unseparated (readableNumbers "1,000".toList) ≠ unseparated "1,000".toList := by
  decide +kernel

end DocWeave.Prose
