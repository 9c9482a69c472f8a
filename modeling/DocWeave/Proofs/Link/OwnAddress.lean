import DocWeave.Link.OwnPage
import DocWeave.Proofs.Link.Markers

/-!
# The own address is cut out of links

`Plain` says what a link of the kind looked at is without saying how it is found. A text is gone through
link by link (`link_induction`): the target of a link is shortened, everything else is copied. What is
cut out is the address between `](` and `#` (`cutOut_shortenAll`). Cutting neither makes nor breaks a
link, since a link that the outcome shows was shown by the text as well (`plainLink?_copied`): so the
links of the outcome are the shortened links of the text (`links_shortenAll`), and there is nothing left
to cut (`collapse_settles`).
-/

namespace DocWeave.Link

open DocWeave.Text

/-! ## Plain links -/

/-- A title and a target of a link that is looked at. -/
structure Plain (title target : List Char) : Prop where
  title : ∀ c ∈ title, isTitleChar c = true
  target : ∀ c ∈ target, c ≠ ')' ∧ c ≠ '\n'

theorem isTitleChar_open : isTitleChar '[' = false := by decide

theorem isTitleChar_close : isTitleChar ']' = false := by decide

theorem isTitleChar_paren : isTitleChar ')' = false := by decide

theorem isTitleChar_lineEnd : isTitleChar '\n' = false := by decide

/-- A link, character by character. -/
theorem markdown_append (title target rest : List Char) :
    markdown title target ++ rest = '[' :: (title ++ ']' :: '(' :: (target ++ ')' :: rest)) := by
  simp [markdown]

/-- A link has a first character, and its rest can be skipped. -/
theorem exists_cons_link (title target rest : List Char) :
    ∃ more n, markdown title target ++ rest = '[' :: more ∧
      (markdown title target).length = n + 1 ∧ more.drop n = rest :=
  ⟨title ++ ']' :: '(' :: target ++ [')'] ++ rest, (title ++ ']' :: '(' :: target ++ [')']).length,
    by simp [markdown], by simp [markdown], List.drop_left⟩

/-- Every plain link is found. -/
theorem Plain.plainLink?_eq {title target : List Char} (h : Plain title target) (rest : List Char) :
    plainLink? (markdown title target ++ rest) = some (title, target) := by
  have htarget : ∀ c ∈ target, (c != ')' && c != '\n') = true := fun c hc => by simpa using h.target c hc
  simp [markdown_append, plainLink?, List.dropWhile_append_of_pos h.title,
    List.takeWhile_append_of_pos h.title, List.dropWhile_append_of_pos htarget,
    List.takeWhile_append_of_pos htarget, isTitleChar_close]

/-- What is found is a plain link. -/
theorem plain_of_plainLink? {s title target : List Char} (h : plainLink? s = some (title, target)) :
    Plain title target ∧ ∃ rest, s = markdown title target ++ rest := by
  unfold plainLink? at h
  split at h
  · next t =>
    split at h
    · next u hu =>
      split at h
      · next rest hrest =>
        cases h
        refine ⟨⟨fun c hc => List.all_eq_true.mp List.all_takeWhile c hc, fun c hc => ?_⟩, rest, ?_⟩
        · have hall := List.all_eq_true.mp (List.all_takeWhile (l := u)) c hc
          simpa using hall
        · have ht := List.takeWhile_append_dropWhile (p := isTitleChar) (l := t)
          have hsplit := List.takeWhile_append_dropWhile (p := fun c => c != ')' && c != '\n') (l := u)
          rw [hu] at ht
          rw [hrest] at hsplit
          rw [markdown_append, hsplit, ht]
      · cases h
    · cases h
  · cases h

/-- A text is empty, begins with a link, or has some other character in front. -/
theorem link_cases (s : List Char) :
    s = [] ∨ (∃ title target rest, Plain title target ∧ s = markdown title target ++ rest) ∨
      ∃ c rest, s = c :: rest ∧ plainLink? (c :: rest) = none := by
  cases s with
  | nil => exact .inl rfl
  | cons c rest =>
    right
    cases hlink : plainLink? (c :: rest) with
    | none => exact .inr ⟨c, rest, rfl, hlink⟩
    | some link =>
      obtain ⟨hplain, more, heq⟩ := plain_of_plainLink? hlink
      exact .inl ⟨link.1, link.2, more, hplain, heq⟩

/-- Induction along the links of a text. -/
theorem link_induction {motive : List Char → Prop} (nil : motive [])
    (link : ∀ title target rest, Plain title target → motive rest →
      motive (markdown title target ++ rest))
    (copy : ∀ c rest, plainLink? (c :: rest) = none → motive rest → motive (c :: rest))
    (s : List Char) : motive s := by
  induction hlength : s.length using Nat.strongRecOn generalizing s with
  | ind length ih =>
    subst hlength
    rcases link_cases s with rfl | ⟨title, target, rest, hplain, rfl⟩ | ⟨c, rest, rfl, hnone⟩
    · exact nil
    · refine link title target rest hplain (ih rest.length ?_ rest rfl)
      simp only [markdown_append, List.length_cons, List.length_append]
      omega
    · exact copy c rest hnone (ih rest.length (by simp) rest rfl)

/-! ## Shortened targets -/

/-- The target of a link, without the address if it is that of the page at `url`. -/
def shortTarget (url target : List Char) : List Char :=
  match splitFirst? ['#'] target with
  | some (path, fragment) => if path = url then '#' :: fragment else target
  | none => target

/-- A target is kept, or loses the address in front of its first `#`. -/
theorem shortTarget_cases (url target : List Char) :
    shortTarget url target = target ∨
      ∃ fragment, target = url ++ '#' :: fragment ∧ shortTarget url target = '#' :: fragment := by
  unfold shortTarget
  split
  · next path fragment hfirst =>
    split
    · next hpath =>
      subst hpath
      exact .inr ⟨fragment, by simpa using eq_of_splitFirst? hfirst, rfl⟩
    · exact .inl rfl
  · exact .inl rfl

/-- Behind a shortened target there is nothing to shorten. -/
theorem shortTarget_shortTarget (url target : List Char) :
    shortTarget url (shortTarget url target) = shortTarget url target := by
  rcases shortTarget_cases url target with hkept | ⟨fragment, -, hcut⟩
  · rw [hkept, hkept]
  · have hfirst : splitFirst? ['#'] ('#' :: fragment) = some ([], fragment) :=
      splitFirst?_append_self ['#'] fragment
    rw [hcut, shortTarget, hfirst]
    dsimp only
    split <;> rfl

theorem Plain.shortTarget {title target : List Char} (h : Plain title target) (url : List Char) :
    Plain title (shortTarget url target) := by
  rcases shortTarget_cases url target with hkept | ⟨fragment, rfl, hcut⟩
  · rwa [hkept]
  · rw [hcut]
    exact ⟨h.title, fun c hc => h.target c (List.mem_append_right url hc)⟩

/-! ## Going through a text -/

/-- The text with every link to the page at `url` shortened. -/
def shortenAll (url s : List Char) : List Char := substitute (ownPageLink url) none s

/-- A plain link with its title and target. -/
def plainLink : Recogniser (List Char × List Char) := fun _ s =>
  (plainLink? s).map fun link => ((markdown link.1 link.2).length, link)

/-- The links of a text, from left to right. -/
def links (s : List Char) : List (List Char × List Char) := Text.collect plainLink none s

variable {url : List Char}

theorem ownPageLink_eq (url : List Char) (prev : Option Char) (s : List Char) :
    ownPageLink url prev s = (plainLink? s).map fun link =>
      ((markdown link.1 link.2).length, markdown link.1 (shortTarget url link.2)) := by
  unfold ownPageLink
  cases hlink : plainLink? s with
  | none => rfl
  | some link =>
    obtain ⟨title, target⟩ := link
    obtain ⟨-, rest, rfl⟩ := plain_of_plainLink? hlink
    have hlength : (markdown title target).length = title.length + target.length + 4 := by
      simp only [markdown, List.length_append, List.length_cons, List.length_nil]
      omega
    have htake : (markdown title target ++ rest).take (markdown title target).length =
        markdown title target := List.take_left
    rw [Option.map_some, Option.map_some, Option.some.injEq]
    dsimp only
    rw [← hlength, htake, shortTarget]
    cases splitFirst? ['#'] target with
    | none => rfl
    | some cut =>
      obtain ⟨path, fragment⟩ := cut
      dsimp only
      split
      · simp [markdown]
      · rfl

@[simp] theorem shortenAll_nil : shortenAll url [] = [] := by
  rw [shortenAll, substitute]

/-- The character before a text has no say. -/
theorem substitute_ownPageLink (prev : Option Char) (s : List Char) :
    substitute (ownPageLink url) prev s = shortenAll url s := by
  unfold shortenAll
  cases s with
  | nil => rw [substitute, substitute]
  | cons c rest => rw [substitute, substitute]; rfl

/-- A step through a text: at a link it goes on behind the link. -/
theorem shortenAll_link {title target : List Char} (h : Plain title target) (rest : List Char) :
    shortenAll url (markdown title target ++ rest) =
      markdown title (shortTarget url target) ++ shortenAll url rest := by
  have htaken : ownPageLink url none (markdown title target ++ rest) =
      some ((markdown title target).length, markdown title (shortTarget url target)) := by
    rw [ownPageLink_eq, h.plainLink?_eq, Option.map_some]
  obtain ⟨more, n, htext, hlength, hdrop⟩ := exists_cons_link title target rest
  rw [htext, hlength] at htaken
  rw [shortenAll, htext, substitute, htaken]
  dsimp only
  rw [substitute_ownPageLink, hdrop]

/-- A step through a text: where no link begins, a character is copied. -/
theorem shortenAll_cons {c : Char} {rest : List Char} (h : plainLink? (c :: rest) = none) :
    shortenAll url (c :: rest) = c :: shortenAll url rest := by
  have hnone : ownPageLink url none (c :: rest) = none := by
    rw [ownPageLink_eq, h, Option.map_none]
  rw [shortenAll, substitute, hnone]
  dsimp only
  rw [substitute_ownPageLink]

@[simp] theorem links_nil : links [] = [] := by
  rw [links, Text.collect]

theorem collect_plainLink (prev : Option Char) (s : List Char) :
    Text.collect plainLink prev s = links s := by
  unfold links
  cases s with
  | nil => rw [Text.collect, Text.collect]
  | cons c rest => rw [Text.collect, Text.collect]; rfl

theorem links_link {title target : List Char} (h : Plain title target) (rest : List Char) :
    links (markdown title target ++ rest) = (title, target) :: links rest := by
  have htaken : plainLink none (markdown title target ++ rest) =
      some ((markdown title target).length, (title, target)) := by
    rw [plainLink, h.plainLink?_eq, Option.map_some]
  obtain ⟨more, n, htext, hlength, hdrop⟩ := exists_cons_link title target rest
  rw [htext, hlength] at htaken
  rw [links, htext, Text.collect, htaken]
  dsimp only
  rw [collect_plainLink, hdrop]

theorem links_cons {c : Char} {rest : List Char} (h : plainLink? (c :: rest) = none) :
    links (c :: rest) = links rest := by
  have hnone : plainLink none (c :: rest) = none := by
    rw [plainLink, h, Option.map_none]
  rw [links, Text.collect, hnone]
  dsimp only
  rw [collect_plainLink]

/-! ## What is copied -/

/-- What the outcome begins with, as long as no bracket opens in it, is copied from the text. -/
theorem copied_of_shortenAll {part more s : List Char} (hpart : '[' ∉ part)
    (h : shortenAll url s = part ++ more) : ∃ rest, s = part ++ rest ∧ shortenAll url rest = more := by
  induction part generalizing s with
  | nil => exact ⟨s, rfl, h⟩
  | cons d part ih =>
    rw [List.mem_cons, not_or] at hpart
    rcases link_cases s with rfl | ⟨title, target, rest, hplain, rfl⟩ | ⟨c, rest, rfl, hnone⟩
    · rw [shortenAll_nil] at h
      cases h
    · -- a link begins with a bracket
      rw [shortenAll_link hplain, markdown_append] at h
      exact absurd (List.cons.inj h).1 hpart.1
    · rw [shortenAll_cons hnone] at h
      obtain ⟨rfl, htail⟩ := List.cons.inj h
      obtain ⟨back, rfl, hback⟩ := ih hpart.2 htail
      exact ⟨back, rfl, hback⟩

/-- A parenthesis is closed on the first line. -/
def Closes (s : List Char) : Prop :=
  ∃ body rest, (∀ c ∈ body, c ≠ ')' ∧ c ≠ '\n') ∧ s = body ++ ')' :: rest

theorem closes_cons {c : Char} {s : List Char} (h : Closes s) (hc : c ≠ ')' ∧ c ≠ '\n') :
    Closes (c :: s) := by
  obtain ⟨body, rest, hbody, rfl⟩ := h
  exact ⟨c :: body, rest, by simpa using ⟨hc, hbody⟩, rfl⟩

theorem closes_cases {c : Char} {s : List Char} (h : Closes (c :: s)) :
    c = ')' ∨ (c ≠ ')' ∧ c ≠ '\n') ∧ Closes s := by
  obtain ⟨body, rest, hbody, heq⟩ := h
  cases body with
  | nil => exact .inl (List.cons.inj heq).1
  | cons d body =>
    obtain ⟨rfl, rfl⟩ := List.cons.inj heq
    exact .inr ⟨hbody _ List.mem_cons_self,
      body, rest, fun e he => hbody e (List.mem_cons_of_mem _ he), rfl⟩

/-- The title of a link opens no parenthesis and its target closes one. -/
theorem Plain.closes {title target : List Char} (h : Plain title target) (rest : List Char) :
    Closes (markdown title target ++ rest) := by
  refine ⟨'[' :: (title ++ ']' :: '(' :: target), rest, ?_, by simp [markdown]⟩
  intro c hc
  simp only [List.mem_cons, List.mem_append] at hc
  rcases hc with rfl | hc | rfl | rfl | hc
  · decide
  · exact ⟨ne_of_class (h.title c hc) isTitleChar_paren,
      ne_of_class (h.title c hc) isTitleChar_lineEnd⟩
  · decide
  · decide
  · exact h.target c hc

/-- Shortening brings in no closing parenthesis. -/
theorem closes_of_shortenAll {s : List Char} (h : Closes (shortenAll url s)) : Closes s := by
  induction s using link_induction with
  | nil => rwa [shortenAll_nil] at h
  | link title target rest hplain ih => exact hplain.closes rest
  | copy c rest hnone ih =>
    rw [shortenAll_cons hnone] at h
    rcases closes_cases h with rfl | ⟨hc, htail⟩
    · exact ⟨[], rest, by simp, rfl⟩
    · exact closes_cons (ih htail) hc

/-- Where the text shows no link, the outcome shows none. -/
theorem plainLink?_copied {c : Char} {rest : List Char} (h : plainLink? (c :: rest) = none) :
    plainLink? (c :: shortenAll url rest) = none := by
  rw [Option.eq_none_iff_forall_ne_some]
  rintro ⟨title, target⟩ hlink
  obtain ⟨hplain, more, heq⟩ := plain_of_plainLink? hlink
  rw [markdown_append] at heq
  obtain ⟨rfl, htail⟩ := List.cons.inj heq
  -- the title and the marks behind it are copied, and the parenthesis was closed before
  have hpart : '[' ∉ title ++ [']', '('] := by
    intro hmem
    rcases List.mem_append.mp hmem with hmem | hmem
    · exact ne_of_class (hplain.title _ hmem) isTitleChar_open rfl
    · revert hmem
      decide
  have hcopied : shortenAll url rest = (title ++ [']', '(']) ++ (target ++ ')' :: more) := by
    simpa using htail
  obtain ⟨back, rfl, hback⟩ := copied_of_shortenAll hpart hcopied
  obtain ⟨body, behind, hbody, rfl⟩ := closes_of_shortenAll ⟨target, more, hplain.target, hback⟩
  have hfound := Plain.plainLink?_eq ⟨hplain.title, hbody⟩ behind
  rw [markdown_append] at hfound
  simp [hfound] at h

/-! ## What is cut out -/

/-- An address between `](` and `#`. -/
def inLink (address : List Char) : List Char := ']' :: '(' :: (address ++ ['#'])

/-- The second text is the first one with the address cut out at some of the places where it stands
between `](` and `#`. -/
def CutOut (url s t : List Char) : Prop :=
  ∃ pieces : List (List Char),
    s = (inLink url).intercalate pieces ∧ t = (inLink []).intercalate pieces

namespace CutOut

variable {s t : List Char}

theorem copied (part : List Char) (h : CutOut url s t) : CutOut url (part ++ s) (part ++ t) := by
  obtain ⟨pieces, rfl, rfl⟩ := h
  cases pieces with
  | nil => exact ⟨[part], by simp, by simp⟩
  | cons first rest =>
    refine ⟨(part ++ first) :: rest, ?_, ?_⟩ <;>
      simp only [intercalate_cons, List.append_assoc]

theorem cut (h : CutOut url s t) : CutOut url (inLink url ++ s) (inLink [] ++ t) := by
  obtain ⟨pieces, rfl, rfl⟩ := h
  cases pieces with
  | nil => exact ⟨[[], []], by simp, by simp⟩
  | cons first rest =>
    refine ⟨[] :: first :: rest, ?_, ?_⟩ <;>
      simp only [intercalate_cons, List.flatMap_cons, List.nil_append, List.append_assoc]

/-- Where the address does not stand between these marks, nothing is cut out. -/
theorem eq_of_not_infix (h : CutOut url s t) (hnot : ¬inLink url <:+: s) : t = s := by
  obtain ⟨pieces, rfl, rfl⟩ := h
  match pieces with
  | [] => rfl
  | [_] => simp
  | first :: second :: rest =>
    refine absurd ⟨first, (inLink url).intercalate (second :: rest), ?_⟩ hnot
    rw [List.intercalate_cons_cons]

end CutOut

/-- Shortening cuts the address out of links and changes nothing else. -/
theorem cutOut_shortenAll (url s : List Char) : CutOut url s (shortenAll url s) := by
  induction s using link_induction with
  | nil => exact ⟨[], by simp, by simp⟩
  | link title target rest hplain ih =>
    rw [shortenAll_link hplain]
    rcases shortTarget_cases url target with hkept | ⟨fragment, rfl, hcut⟩
    · rw [hkept]
      exact ih.copied _
    · rw [hcut]
      have hpieces := ((ih.copied (fragment ++ [')'])).cut).copied ('[' :: title)
      simpa [markdown, inLink] using hpieces
  | copy c rest hnone ih =>
    rw [shortenAll_cons hnone]
    exact ih.copied [c]

/-- The links of the outcome are the links of the text, with shortened targets. -/
theorem links_shortenAll (url s : List Char) :
    links (shortenAll url s) = (links s).map fun link => (link.1, shortTarget url link.2) := by
  induction s using link_induction with
  | nil => simp
  | link title target rest hplain ih =>
    rw [shortenAll_link hplain, links_link (hplain.shortTarget url), links_link hplain, ih,
      List.map_cons]
  | copy c rest hnone ih =>
    rw [shortenAll_cons hnone, links_cons (plainLink?_copied hnone), links_cons hnone, ih]

theorem shortenAll_shortenAll (url s : List Char) :
    shortenAll url (shortenAll url s) = shortenAll url s := by
  induction s using link_induction with
  | nil => simp
  | link title target rest hplain ih =>
    rw [shortenAll_link hplain, shortenAll_link (hplain.shortTarget url), shortTarget_shortTarget, ih]
  | copy c rest hnone ih =>
    rw [shortenAll_cons hnone, shortenAll_cons (plainLink?_copied hnone), ih]

/-- **One pass cuts the own address out of links.** The outcome is the text with the address cut out at
some places between `](` and `#`; a text without such a place stays as it is. The links of the outcome
are those of the text with shortened targets, and a second pass changes nothing. -/
theorem collapse_settles (pageUrl text : String) :
    CutOut pageUrl.toList text.toList (collapse pageUrl text).toList ∧
      (¬inLink pageUrl.toList <:+: text.toList → collapse pageUrl text = text) ∧
      links (collapse pageUrl text).toList =
        (links text.toList).map (fun link => (link.1, shortTarget pageUrl.toList link.2)) ∧
      collapse pageUrl (collapse pageUrl text) = collapse pageUrl text := by
  have hlist : ∀ t : String, (collapse pageUrl t).toList = shortenAll pageUrl.toList t.toList :=
    fun t => String.toList_ofList
  have hcut : CutOut pageUrl.toList text.toList (collapse pageUrl text).toList := by
    rw [hlist]
    exact cutOut_shortenAll _ _
  refine ⟨hcut, fun hnot => ?_, ?_, ?_⟩
  · rw [← String.ofList_toList (s := collapse pageUrl text), hcut.eq_of_not_infix hnot,
      String.ofList_toList]
  · rw [hlist]
    exact links_shortenAll _ _
  · rw [← String.ofList_toList (s := collapse pageUrl (collapse pageUrl text)), hlist, hlist,
      shortenAll_shortenAll, ← hlist, String.ofList_toList]

/-- An address with a bracket in it, and a fragment with a link in it: the fragment is left alone. Without
a `#` right behind the address nothing is cut out. -/
theorem collapse_settles_brackets :
    collapse "a(b" "[T](a(b#[x](a(b#y) [!](a(b#z)" = "[T](#[x](a(b#y) [!](#z)" ∧
      collapse "a(b" "[T](#[x](a(b#y) [!](#z)" = "[T](#[x](a(b#y) [!](#z)" ∧
      ¬inLink "a(b".toList <:+: "[T](a(b) [x](a(bc#y)".toList ∧
      collapse "a(b" "[T](a(b) [x](a(bc#y)" = "[T](a(b) [x](a(bc#y)" := by
  have hcut : collapse "a(b" "[T](a(b#[x](a(b#y) [!](a(b#z)" = "[T](#[x](a(b#y) [!](#z)" := by
    decide +kernel
  have hnot : ¬inLink "a(b".toList <:+: "[T](a(b) [x](a(bc#y)".toList := by
    rw [← splitFirst?_eq_none_iff]
    decide
  refine ⟨hcut, ?_, hnot, (collapse_settles "a(b" "[T](a(b) [x](a(bc#y)").2.1 hnot⟩
  have hagain := (collapse_settles "a(b" "[T](a(b#[x](a(b#y) [!](a(b#z)").2.2.2
  rwa [hcut] at hagain

end DocWeave.Link
