import DocWeave.Proofs.Inflection.Boundaries
import DocWeave.Proofs.Text.Splitting
import Mathlib.Data.List.Basic

/-!
# Anchors and headings

A heading has an id, its *slug*: small letters and digits, with hyphens for blanks. The anchor of a
member is made from its name and the heading from the same name in words. The slug of the heading is the
anchor of the name with underscores between its words and none in front (`slugged_titleized`), so the two
agree exactly for names in which no two words meet and that do not begin with an underscore
(`anchor_eq_slug_iff`).
-/

namespace DocWeave.Inflection

open DocWeave.Text

/-- The id of a heading: in small letters, with nothing but letters, digits, blanks and hyphens, and
with hyphens for the blanks. -/
def slugged (heading : List Char) : List Char :=
  replaceChar ' ' '-' ((lower heading).filter fun c => isAlphanumeric c || c == ' ' || c == '-')

def slug (heading : String) : String := String.ofList (slugged heading.toList)

/-- The name of a method: a letter or `_`, then letters, digits and `_`, and perhaps a mark. The names
of constants, in capitals, are among them. -/
structure MemberName where
  first : Char
  more : List Char
  mark : Option Char := none
  begins : first.isAlpha = true ∨ first = '_'
  word : ∀ c ∈ more, (c.isAlphanum || c == '_') = true
  marked : ∀ c ∈ mark, c = '!' ∨ c = '?'

def MemberName.text (n : MemberName) : List Char := n.first :: (n.more ++ n.mark.toList)

def MemberName.name (n : MemberName) : String := String.ofList n.text

theorem MemberName.of_mem_more (n : MemberName) {c : Char} (hc : c ∈ n.more) :
    c.isAlphanum = true ∨ c = '_' :=
  (Bool.or_eq_true_iff.mp (n.word c hc)).imp_right eq_of_beq

/-! ## Plain characters -/

/-- A character that stands in the name of a member. -/
def isPlain (c : Char) : Bool := c.isAlphanum || c == '_' || c == '?' || c == '!'

theorem ascii_of_isPlain {c : Char} (h : isPlain c = true) : c.toNat < 128 := by
  simp only [isPlain, Bool.or_eq_true, beq_iff_eq] at h
  rcases h with ((h | rfl) | rfl) | rfl
  · exact ascii_of_isAlphanum h
  all_goals decide

/-- What holds of all plain characters below 128 holds of every plain character. -/
theorem forall_plain {p : Char → Prop} (h : ∀ n < 128, isPlain (Char.ofNat n) = true → p (Char.ofNat n))
    {c : Char} (hc : isPlain c = true) : p c :=
  forall_ascii (p := fun c => isPlain c = true → p c) h (ascii_of_isPlain hc) hc

theorem MemberName.isPlain_of_mem (n : MemberName) : ∀ c ∈ n.text, isPlain c = true := by
  intro c hc
  simp only [text, List.mem_cons, List.mem_append, Option.mem_toList] at hc
  simp only [isPlain, Bool.or_eq_true, beq_iff_eq]
  rcases hc with rfl | hc | hc
  · rcases n.begins with h | h
    · exact .inl (.inl (.inl (isAlphanum_of_isAlpha h)))
    · exact .inl (.inl (.inr h))
  · rcases n.of_mem_more hc with h | h
    · exact .inl (.inl (.inl h))
    · exact .inl (.inl (.inr h))
  · rcases n.marked c hc with h | h
    · exact .inr h
    · exact .inl (.inr h)

/-- What becomes of a character of a name in an anchor. -/
def anchorChar (c : Char) : Option Char :=
  if c = '?' ∨ c = '!' then none else if c = '_' then some '-' else some c.toLower

section

variable {s : List Char}

/-- Anchors are made character by character. -/
theorem anchored_of_plain (h : ∀ c ∈ s, isPlain c = true) : anchored s = s.filterMap anchorChar := by
  rw [anchored, dasherized, replaceChar, lower_of_ascii fun c hc => ascii_of_isPlain (h c hc),
    List.map_map, ← List.filterMap_eq_filter, List.filterMap_map]
  refine List.filterMap_congr fun c hc => ?_
  exact forall_plain (p := fun c => (Option.guard (fun c => !(c == ' ' || c == '?' || c == '!')) ∘
    (fun c => if c = '_' then '-' else c) ∘ Char.toLower) c = anchorChar c) (by decide) (h c hc)

theorem toLower_toUpper {c : Char} (hc : c.toNat < 128) :
    c.toUpper.toLower = c.toLower ∧ c.toUpper.toNat < 128 :=
  forall_ascii (p := fun c => c.toUpper.toLower = c.toLower ∧ c.toUpper.toNat < 128)
    (by decide) hc

/-- Two texts are the same but for ASCII capitals. -/
def SameInSmall (s t : List Char) : Prop :=
  s.map Char.toLower = t.map Char.toLower ∧ ∀ c ∈ s, c.toNat < 128

theorem sameInSmall_upperFirst (h : ∀ c ∈ s, c.toNat < 128) : SameInSmall (upperFirst s) s := by
  cases s with
  | nil => exact ⟨rfl, h⟩
  | cons c s =>
    obtain ⟨hc, hs⟩ := List.forall_mem_cons.mp h
    obtain ⟨hlower, hascii⟩ := toLower_toUpper hc
    rw [upperFirst, upperChar, if_pos hc]
    exact ⟨by simp [hlower], List.forall_mem_cons.mpr ⟨hascii, hs⟩⟩

/-- Capitals at the beginnings of words are of no account in small letters. -/
theorem sameInSmall_capitalizeWords (h : ∀ c ∈ s, c.toNat < 128) (before prev : Option Char) :
    SameInSmall (capitalizeWords before prev s) s := by
  induction s generalizing before prev with
  | nil => exact ⟨rfl, h⟩
  | cons c s ih =>
    obtain ⟨hc, hs⟩ := List.forall_mem_cons.mp h
    obtain ⟨hlower, hascii⟩ := toLower_toUpper hc
    obtain ⟨hmap, hrest⟩ := ih hs prev (some c)
    rw [capitalizeWords]
    split
    · exact ⟨by simp [hlower, hmap], List.forall_mem_cons.mpr ⟨hascii, hrest⟩⟩
    · exact ⟨by simp [hmap], List.forall_mem_cons.mpr ⟨hc, hrest⟩⟩

/-- The slug of a name in words is the anchor of the name. -/
theorem slugged_spaced (h : ∀ c ∈ s, isPlain c = true) :
    slugged (capitalizeWords none none (spaced s true)) = s.filterMap anchorChar := by
  have hblanks : ∀ c ∈ replaceChar '_' ' ' s, c.toNat < 128 := by
    intro c hc
    obtain ⟨d, hd, rfl⟩ := List.mem_map.mp hc
    exact forall_plain (p := fun d => (if d = '_' then ' ' else d).toNat < 128) (by decide)
      (h d hd)
  have hlowered : ∀ c ∈ lower (replaceChar '_' ' ' s), c.toNat < 128 := by
    rw [lower_of_ascii hblanks]
    intro c hc
    obtain ⟨d, hd, rfl⟩ := List.mem_map.mp hc
    exact forall_ascii (p := fun d => d.toLower.toNat < 128) (by decide) (hblanks d hd)
  obtain ⟨hfirst, hfirstAscii⟩ := sameInSmall_upperFirst hlowered
  obtain ⟨hwords, hwordsAscii⟩ := sameInSmall_capitalizeWords hfirstAscii none none
  rw [slugged, spaced, if_pos rfl, lower_of_ascii hwordsAscii, hwords, hfirst, lower_of_ascii hblanks, replaceChar,
    replaceChar, List.map_map, List.map_map, ← List.filterMap_eq_filter, List.filterMap_map,
    List.map_filterMap]
  refine List.filterMap_congr fun c hc => ?_
  exact forall_plain (p := fun c => Option.map (fun c => if c = ' ' then '-' else c)
    ((Option.guard (fun c => isAlphanumeric c || c == ' ' || c == '-') ∘
      Char.toLower ∘ Char.toLower ∘ fun c => if c = '_' then ' ' else c) c) = anchorChar c)
    (by decide) (h c hc)

/-! ## Names in words -/

theorem mem_letters {c : Char} : c ∈ letters s ↔ c ∈ s ∧ c ≠ '_' := by
  simp [letters]

theorem isPlain_parted (h : ∀ c ∈ s, isPlain c = true) : ∀ c ∈ parted s, isPlain c = true := by
  intro c hc
  by_cases hunder : c = '_'
  · rw [hunder]
    rfl
  · have hletter : c ∈ letters (parted s) := mem_letters.mpr ⟨hc, hunder⟩
    rw [(parted_cases s).1] at hletter
    exact h c (mem_letters.mp hletter).1

theorem underscored_of_plain (h : ∀ c ∈ s, isPlain c = true) :
    underscored s = (parted s).map Char.toLower := by
  have hcolon : splitFirst? [':', ':'] s = none := by
    rw [splitFirst?_eq_none_iff]
    intro hpart
    exact absurd (h ':' (hpart.subset (by simp))) (by decide)
  have hdash : replaceChar '-' '_' (parted s) = parted s := by
    have hsame : ∀ c ∈ parted s, (if c = '-' then '_' else c) = id c := by
      intro c hc
      refine if_neg ?_
      rintro rfl
      exact absurd (isPlain_parted h '-' hc) (by decide)
    rw [replaceChar, List.map_congr_left hsame, List.map_id]
  show lower (replaceChar '-' '_' (parted (replace [':', ':'] ['/'] s))) = _
  rw [replace_of_none _ hcolon, hdash,
    lower_of_ascii fun c hc => ascii_of_isPlain (isPlain_parted h c hc)]

/-- The name in small letters with underscores between its words and none in front. -/
def worded (s : List Char) : List Char := ((parted s).map Char.toLower).dropWhile (· == '_')

theorem isPlain_toLower {c : Char} (h : isPlain c = true) : isPlain c.toLower = true :=
  forall_plain (p := fun c => isPlain c.toLower = true) (by decide) h

/-- The slug of a heading is the anchor of the name in words. -/
theorem slugged_titleized (h : ∀ c ∈ s, isPlain c = true) :
    slugged (titleized s) = (worded s).filterMap anchorChar := by
  have hplain : ∀ c ∈ worded s, isPlain c = true := by
    intro c hc
    obtain ⟨d, hd, rfl⟩ := List.mem_map.mp ((List.dropWhile_suffix _).subset hc)
    exact isPlain_toLower (isPlain_parted h d hd)
  show slugged (capitalizeWords none none (spaced ((underscored s).dropWhile (· == '_')) true)) = _
  rw [underscored_of_plain h]
  exact slugged_spaced hplain

/-! ## Where they agree -/

theorem anchorChar_toLower {c : Char} (h : isPlain c = true) : anchorChar c.toLower = anchorChar c :=
  forall_plain (p := fun c => anchorChar c.toLower = anchorChar c) (by decide) h

theorem toLower_eq_underscore_iff {c : Char} (h : isPlain c = true) : c.toLower = '_' ↔ c = '_' :=
  forall_plain (p := fun c => c.toLower = '_' ↔ c = '_') (by decide) h

/-- The hyphens of an anchor are the underscores of the name. -/
theorem count_anchor (h : ∀ c ∈ s, isPlain c = true) :
    (s.filterMap anchorChar).count '-' = s.count '_' := by
  induction s with
  | nil => rfl
  | cons c s ih =>
    obtain ⟨hc, hs⟩ := List.forall_mem_cons.mp h
    have hfirst : ([c].filterMap anchorChar).count '-' = [c].count '_' :=
      forall_plain (p := fun c => ([c].filterMap anchorChar).count '-' = [c].count '_')
        (by decide) hc
    rw [← List.singleton_append, List.filterMap_append, List.count_append, List.count_append, hfirst,
      ih hs]

theorem length_eq_letters (s : List Char) : s.length = (letters s).length + s.count '_' := by
  rw [List.length_eq_countP_add_countP (· != '_'), List.countP_eq_length_filter, letters, List.count]
  congr 2
  funext c
  simp [beq_eq_decide]

theorem head?_dropWhile_underscore (s : List Char) :
    (s.dropWhile (· == '_')).head? = (letters s).head? := by
  induction s with
  | nil => rfl
  | cons c s ih =>
    by_cases hc : c = '_'
    · subst hc
      exact ih
    · rw [letters, List.dropWhile_cons_of_neg (by simpa using hc),
        List.filter_cons_of_pos (by simpa using hc)]
      rfl

/-- The name in words begins with the first letter of the name. -/
theorem head?_worded (h : ∀ c ∈ s, isPlain c = true) :
    (worded s).head? = (letters s).head?.map Char.toLower := by
  have hplain := isPlain_parted h
  have hsmall : letters ((parted s).map Char.toLower) = (letters (parted s)).map Char.toLower := by
    rw [letters, List.filter_map, letters]
    congr 1
    refine List.filter_congr fun c hc => ?_
    rw [Function.comp_apply, Bool.eq_iff_iff, bne_iff_ne, bne_iff_ne, ne_eq, ne_eq,
      toLower_eq_underscore_iff (hplain c hc)]
  rw [worded, head?_dropWhile_underscore, hsmall, (parted_cases s).1, List.head?_map]

/-- A name that does not begin with an underscore loses nothing in front. -/
theorem filterMap_worded {c : Char} (h : ∀ d ∈ c :: s, isPlain d = true) (hc : c ≠ '_') :
    (worded (c :: s)).filterMap anchorChar = (parted (c :: s)).filterMap anchorChar := by
  obtain ⟨rest, hrest⟩ : ∃ rest, parted (c :: s) = c :: rest :=
    ⟨_, List.eq_cons_of_mem_head? ((parted_cases (c :: s)).2.1 ▸ rfl)⟩
  have hc' : c.toLower ≠ '_' := fun heq =>
    hc ((toLower_eq_underscore_iff (h c List.mem_cons_self)).mp heq)
  have hplain := isPlain_parted h
  have hworded : worded (c :: s) = (parted (c :: s)).map Char.toLower := by
    rw [worded, hrest, List.map_cons, List.dropWhile_cons_of_neg (by simpa using hc')]
  rw [hworded, List.filterMap_map]
  exact List.filterMap_congr fun d hd => anchorChar_toLower (hplain d hd)

end

theorem Breaks.exists_capital {s : List Char} (h : Breaks s) : ∃ d ∈ s, isCapital d = true := by
  obtain ⟨front, c, d, back, rfl, hd, -⟩ := h
  exact ⟨d, by simp, hd⟩

namespace MemberName

theorem not_breaks_of_letters_nil {n : MemberName} (hfirst : n.first = '_')
    (hmore : letters n.more = []) : ¬ Breaks n.text := by
  intro hbreaks
  obtain ⟨d, hd, hcapital⟩ := hbreaks.exists_capital
  have hunder : d ≠ '_' := by
    rintro rfl
    exact absurd hcapital (by decide)
  simp only [text, hfirst, List.mem_cons, hunder, List.mem_append, Option.mem_toList, false_or] at hd
  rcases hd with hd | hd
  · have hletter : d ∈ letters n.more := mem_letters.mpr ⟨hd, hunder⟩
    rw [hmore] at hletter
    cases hletter
  · rcases n.marked d hd with rfl | rfl
    · exact absurd hcapital (by decide)
    · exact absurd hcapital (by decide)

/-- A name of underscores has an empty heading. -/
theorem filterMap_worded_of_letters_nil {n : MemberName} (hfirst : n.first = '_')
    (hmore : letters n.more = []) : (worded n.text).filterMap anchorChar = [] := by
  have hparted : parted n.text = n.text := by
    rcases (parted_cases n.text).2.2 with ⟨-, hsame⟩ | ⟨hbreaks, -⟩
    · exact hsame
    · exact absurd hbreaks (not_breaks_of_letters_nil hfirst hmore)
  have hfront : ∀ c ∈ (n.first :: n.more).map Char.toLower, (c == '_') = true := by
    intro c hc
    obtain ⟨d, hd, rfl⟩ := List.mem_map.mp hc
    have hd' : d = '_' := by
      rcases List.mem_cons.mp hd with rfl | hd
      · exact hfirst
      · by_contra hne
        have hletter : d ∈ letters n.more := mem_letters.mpr ⟨hd, hne⟩
        rw [hmore] at hletter
        cases hletter
    rw [hd']
    rfl
  rw [worded, hparted, text, ← List.cons_append, List.map_append, List.dropWhile_append_of_pos hfront,
    List.filterMap_eq_nil_iff]
  intro c hc
  obtain ⟨d, hd, rfl⟩ := List.mem_map.mp ((List.dropWhile_suffix _).subset hc)
  rcases n.marked d (Option.mem_toList.mp hd) with rfl | rfl
  · rfl
  · rfl

/-- A name that begins with an underscore has an anchor that begins with a hyphen, and no slug of a
heading does. -/
theorem filterMap_worded_ne {n : MemberName} (hfirst : n.first = '_') :
    (worded n.text).filterMap anchorChar ≠ n.text.filterMap anchorChar := by
  intro heq
  have hanchor : ((worded n.text).filterMap anchorChar).head? = some '-' := by
    rw [heq, text, hfirst]
    rfl
  cases hmore : letters n.more with
  | nil =>
    rw [filterMap_worded_of_letters_nil hfirst hmore] at hanchor
    cases hanchor
  | cons c rest =>
    have hhead : (worded n.text).head? = some c.toLower := by
      rw [head?_worded n.isPlain_of_mem, text, hfirst, letters_underscore, letters_append, hmore]
      rfl
    have hc : c ∈ n.more ∧ c ≠ '_' := mem_letters.mp (hmore ▸ List.mem_cons_self)
    have halnum : c.isAlphanum = true := (n.of_mem_more hc.1).resolve_right hc.2
    obtain ⟨hkept, hdash⟩ : anchorChar c.toLower = some c.toLower ∧ c.toLower ≠ '-' :=
      forall_ascii (p := fun c => c.isAlphanum = true →
        anchorChar c.toLower = some c.toLower ∧ c.toLower ≠ '-') (by decide)
        (ascii_of_isAlphanum halnum) halnum
    rw [List.eq_cons_of_mem_head? hhead, List.filterMap_cons_some hkept, List.head?_cons,
      Option.some.injEq] at hanchor
    exact hdash hanchor

/-- The anchor of a member is the slug of its heading exactly when its name does not begin with an
underscore and no two words meet in it without one. -/
theorem anchor_eq_slug_iff (n : MemberName) :
    anchor n.name = slug (titleize n.name) ↔ n.first ≠ '_' ∧ ¬ Breaks n.text := by
  have hplain := n.isPlain_of_mem
  have hlists : anchor n.name = slug (titleize n.name) ↔
      n.text.filterMap anchorChar = (worded n.text).filterMap anchorChar := by
    rw [anchor, slug, titleize, name, String.toList_ofList, String.toList_ofList, String.ofList_inj,
      anchored_of_plain hplain, slugged_titleized hplain]
  rw [hlists]
  by_cases hfirst : n.first = '_'
  · exact iff_of_false (fun heq => filterMap_worded_ne hfirst heq.symm) fun h => h.1 hfirst
  · have hworded : (worded n.text).filterMap anchorChar = (parted n.text).filterMap anchorChar :=
      filterMap_worded hplain hfirst
    obtain ⟨hletters, -, hcases⟩ := parted_cases n.text
    rw [hworded]
    rcases hcases with ⟨hno, hsame⟩ | ⟨hbreaks, hlonger⟩
    · exact iff_of_true (by rw [hsame]) ⟨hfirst, hno⟩
    · refine iff_of_false (fun heq => ?_) fun h => h.2 hbreaks
      have hcount := congrArg (List.count '-') heq
      rw [count_anchor hplain, count_anchor (isPlain_parted hplain)] at hcount
      have hlength : (parted n.text).length = n.text.length := by
        rw [length_eq_letters, length_eq_letters n.text, hletters, hcount]
      omega

/-- A method whose words are told apart by a capital alone. -/
def camelName : MemberName where
  first := 'f'
  more := "ooBar".toList
  begins := by decide
  word := List.all_eq_true.mp (by decide)
  marked := by simp

/-- A method that begins with an underscore. -/
def hiddenName : MemberName where
  first := '_'
  more := "total".toList
  mark := some '?'
  begins := by decide
  word := List.all_eq_true.mp (by decide)
  marked := by simp

/-- A constant in which a digit stands before a capital. -/
def digitName : MemberName where
  first := 'K'
  more := "2B".toList
  begins := by decide
  word := List.all_eq_true.mp (by decide)
  marked := by simp

/-- Anchors and headings do not always agree, neither for methods nor for constants. -/
theorem not_anchor_eq_slug :
    (anchor camelName.name = "foobar" ∧ slug (titleize camelName.name) = "foo-bar") ∧
    (anchor hiddenName.name = "-total" ∧ slug (titleize hiddenName.name) = "total") ∧
    (anchor digitName.name = "k2b" ∧ slug (titleize digitName.name) = "k2-b") ∧
    ¬ ∀ n : MemberName, anchor n.name = slug (titleize n.name) := by
  have hcamel : anchor camelName.name = "foobar" ∧ slug (titleize camelName.name) = "foo-bar" := by
    decide +kernel
  refine ⟨hcamel, by decide +kernel, by decide +kernel, fun h => ?_⟩
  have heq := h camelName
  rw [hcamel.1, hcamel.2] at heq
  exact absurd heq (by decide)

end MemberName

end DocWeave.Inflection
