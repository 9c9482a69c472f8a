import DocWeave.Proofs.Text.Ascii
import DocWeave.Prose.Word

/-!
# The walk over the words of a text

The walk stands at a place of the text and knows the character before it. It takes a span, a word or one
character, and goes on behind it (`walk_induction`). `WordAt` says what a word is without saying how it is
cut out, and the length of a span is read off four equations, one for each kind of character.
-/

namespace DocWeave.Prose

open DocWeave.Text

/-! ## Spans -/

section

variable {close : Char}

/-- A backslash takes the next character, whatever it is, into the span. -/
theorem spanLength?_escape (s : List Char) :
    spanLength? close ('\\' :: s) = (spanLength? close s.tail).map (· + 2) := by
  cases s with
  | nil => simp [spanLength?]
  | cons d s => simp [spanLength?]

theorem spanLength?_lineEnd (s : List Char) : spanLength? close ('\n' :: s) = none := by
  cases s with
  | nil => simp [spanLength?]
  | cons d s => simp [spanLength?]

theorem spanLength?_plain {c : Char} (hescape : c ≠ '\\') (hend : c ≠ '\n') (hclose : c ≠ close)
    (s : List Char) : spanLength? close (c :: s) = (spanLength? close s).map (· + 1) := by
  cases s with
  | nil => simp [spanLength?, hclose]
  | cons d s => simp [spanLength?, hescape, hend, hclose]

/-- A character that can close a span. -/
def IsCloser (close : Char) : Prop := close = '\'' ∨ close = '"' ∨ close = '\x60' ∨ close = ')'

theorem IsCloser.ne_escape (h : IsCloser close) : close ≠ '\\' := by
  rcases h with rfl | rfl | rfl | rfl <;> decide

theorem IsCloser.ne_lineEnd (h : IsCloser close) : close ≠ '\n' := by
  rcases h with rfl | rfl | rfl | rfl <;> decide

theorem IsCloser.not_nameChar (h : IsCloser close) : isNameChar close = false := by
  rcases h with rfl | rfl | rfl | rfl <;> decide

theorem spanLength?_close (h : IsCloser close) (s : List Char) :
    spanLength? close (close :: s) = some 1 := by
  cases s with
  | nil => simp [spanLength?, h.ne_escape, h.ne_lineEnd]
  | cons d s => simp [spanLength?, h.ne_escape, h.ne_lineEnd]

theorem closerOf?_eq_some {prev : Option Char} {c : Char} (h : closerOf? prev c = some close) :
    close = c ∧ (c = '\'' ∨ c = '"' ∨ c = '\x60') ∨ close = ')' ∧ c = '(' ∧ prev = some ']' := by
  unfold closerOf? at h
  split at h
  · next hquote => exact .inl ⟨(Option.some.inj h).symm, hquote⟩
  · split at h
    · next hparen => exact .inr ⟨(Option.some.inj h).symm, hparen⟩
    · cases h

theorem isCloser_of_closerOf? {prev : Option Char} {c : Char} (h : closerOf? prev c = some close) :
    IsCloser close := by
  unfold IsCloser
  rcases closerOf?_eq_some h with ⟨rfl, hquote⟩ | ⟨rfl, -⟩
  · rcases hquote with rfl | rfl | rfl <;> simp
  · simp

/-- The character is no escape, no line end and does not close the span. -/
structure Neutral (close c : Char) : Prop where
  ne_escape : c ≠ '\\'
  ne_lineEnd : c ≠ '\n'
  ne_close : c ≠ close

theorem spanLength?_neutral {body : List Char} (h : ∀ c ∈ body, Neutral close c) (s : List Char) :
    spanLength? close (body ++ s) = (spanLength? close s).map (· + body.length) := by
  induction body with
  | nil => simp
  | cons c body ih =>
    have hc : Neutral close c := h c List.mem_cons_self
    have hbody := ih fun d hd => h d (List.mem_cons_of_mem _ hd)
    rw [List.cons_append, spanLength?_plain hc.ne_escape hc.ne_lineEnd hc.ne_close, hbody,
      Option.map_map]
    rfl

/-- Letters, numbers and underscores neither close a span nor end it. -/
theorem IsCloser.neutral (h : IsCloser close) {c : Char} (hc : isNameChar c = true) :
    Neutral close c := by
  have hplain : isNameChar '\\' = false ∧ isNameChar '\n' = false := by decide
  constructor
  · rintro rfl
    simp [hplain] at hc
  · rintro rfl
    simp [hplain] at hc
  · rintro rfl
    simp [h.not_nameChar] at hc

/-- A span is made up of what stands up to its closing character; what follows does not matter. -/
theorem spanLength?_take_append (hclose : IsCloser close) {s : List Char} {n : Nat}
    (h : spanLength? close s = some n) (t : List Char) :
    n ≤ s.length ∧ spanLength? close (s.take n ++ t) = some n := by
  fun_induction spanLength? close s generalizing n with
  | case1 => cases h
  | case2 c hc =>
    obtain rfl := Option.some.inj h
    simpa [hc.2.2] using spanLength?_close hclose t
  | case3 => cases h
  | case4 d s ih =>
    obtain ⟨m, hm, rfl⟩ := Option.map_eq_some_iff.mp h
    obtain ⟨hle, hrest⟩ := ih hm
    have htake : ('\\' :: d :: s).take (m + 2) ++ t = '\\' :: d :: (s.take m ++ t) := rfl
    rw [htake, spanLength?_escape, List.tail_cons, hrest]
    exact ⟨by simp; omega, rfl⟩
  | case5 => cases h
  | case6 d s hne =>
    obtain rfl := Option.some.inj h
    exact ⟨by simp, spanLength?_close hclose t⟩
  | case7 c d s hescape hend hne ih =>
    obtain ⟨m, hm, rfl⟩ := Option.map_eq_some_iff.mp h
    obtain ⟨hle, hrest⟩ := ih hm
    have htake : (c :: d :: s).take (m + 1) ++ t = c :: ((d :: s).take m ++ t) := rfl
    rw [htake, spanLength?_plain hescape hend hne, hrest]
    exact ⟨by simp only [List.length_cons] at hle ⊢; omega, rfl⟩

end

/-- What is taken as a span begins the text, and it would be taken in front of any other text. -/
theorem exists_of_takeSpan? {prev : Option Char} {s : List Char} {n : Nat}
    (h : takeSpan? prev s = some n) :
    ∃ taken rest, s = taken ++ rest ∧ taken ≠ [] ∧
      ∀ t, takeSpan? prev (taken ++ t) = some taken.length := by
  cases s with
  | nil => cases h
  | cons c s =>
    obtain ⟨close, hcloser, hlength⟩ := Option.bind_eq_some_iff.mp h
    obtain ⟨m, hm, rfl⟩ := Option.map_eq_some_iff.mp hlength
    refine ⟨c :: s.take m, s.drop m, by simp, by simp, ?_⟩
    intro t
    obtain ⟨hle, htake⟩ := spanLength?_take_append (isCloser_of_closerOf? hcloser) hm t
    have hlen : (s.take m).length = m := by simp; omega
    simp only [List.cons_append, takeSpan?, hcloser, Option.bind_some, htake, Option.map_some,
      List.length_cons, hlen]

/-! ## Words -/

/-- A character with which a word begins. -/
def isWordStart (c : Char) : Bool := isAlphabetic c || c == '_'

theorem isNameChar_of_isWordStart {c : Char} (h : isWordStart c = true) : isNameChar c = true := by
  unfold isWordStart isAlphabetic at h
  unfold isNameChar isAlphanumeric
  by_cases hascii : c.toNat < 128
  · simp only [if_pos hascii, Bool.or_eq_true] at h ⊢
    exact h.imp isAlphanum_of_isAlpha id
  · simp only [if_neg hascii, Bool.or_eq_true] at h ⊢
    exact h.imp (fun halpha => .inl (.inl halpha)) id

/-- A question or exclamation mark. -/
def isEnding (c : Char) : Bool := c == '?' || c == '!'

/-- The text of a word: a letter or an underscore, more letters, numbers and underscores, and perhaps a
question or exclamation mark. -/
def IsWordText (text : List Char) : Prop :=
  ∃ c inner ending, text = c :: inner ++ ending ∧ isWordStart c = true ∧
    (∀ d ∈ inner, isNameChar d = true) ∧ (ending = [] ∨ ending = ['?'] ∨ ending = ['!'])

/-- No more of the text behind the word belongs to it. -/
def Complete (text rest : List Char) : Prop :=
  text.getLast?.any isNameChar = true → ∀ d ∈ rest.head?, isNameChar d = false ∧ isEnding d = false

/-- A word that begins behind `prev`, in front of `rest`. -/
structure WordAt (prev : Option Char) (word : Word) (rest : List Char) : Prop where
  isText : IsWordText word.text
  complete : Complete word.text rest
  apart : prev.any isNameChar = false
  prev_eq : word.prev = prev
  next_eq : word.next = rest.head?

theorem takeEnding_of_not_ending {s : List Char} (h : ∀ d ∈ s.head?, isEnding d = false) :
    takeEnding s = [] := by
  cases s with
  | nil => rfl
  | cons d s =>
    have hd : isEnding d = false := h d rfl
    simp only [isEnding, Bool.or_eq_false_iff, beq_eq_false_iff_ne] at hd
    simp [takeEnding, hd]

theorem takeEnding_append {ending : List Char} (h : ending = [] ∨ ending = ['?'] ∨ ending = ['!'])
    {rest : List Char} (hrest : ending = [] → ∀ d ∈ rest.head?, isEnding d = false) :
    takeEnding (ending ++ rest) = ending := by
  rcases h with rfl | rfl | rfl
  · exact takeEnding_of_not_ending (hrest rfl)
  · simp [takeEnding]
  · simp [takeEnding]

theorem takeEnding_cases (s : List Char) :
    (takeEnding s = [] ∧ ∀ d ∈ s.head?, isEnding d = false) ∨
      ∃ d rest, s = d :: rest ∧ takeEnding s = [d] ∧ (d = '?' ∨ d = '!') := by
  cases s with
  | nil => exact .inl ⟨rfl, by simp⟩
  | cons d rest =>
    by_cases hd : d = '?' ∨ d = '!'
    · exact .inr ⟨d, rest, rfl, by simp [takeEnding, hd], hd⟩
    · refine .inl ⟨by simp [takeEnding, hd], ?_⟩
      intro e he
      obtain rfl := Option.some.inj he
      simpa [isEnding] using hd

/-- The characters of a word's body are cut off in one go. -/
theorem span_isNameChar {body back : List Char} (hbody : ∀ c ∈ body, isNameChar c = true)
    (hback : ∀ d ∈ back.head?, isNameChar d = false) :
    (body ++ back).takeWhile isNameChar = body ∧ (body ++ back).dropWhile isNameChar = back := by
  have hnone : back.takeWhile isNameChar = [] ∧ back.dropWhile isNameChar = back := by
    cases back with
    | nil => exact ⟨rfl, rfl⟩
    | cons d back => simp [hback d rfl]
  rw [List.takeWhile_append_of_pos hbody, List.dropWhile_append_of_pos hbody, hnone.1, hnone.2]
  simp

/-- Every word is found. -/
theorem WordAt.takeWord?_eq {prev : Option Char} {word : Word} {rest : List Char}
    (h : WordAt prev word rest) : takeWord? prev (word.text ++ rest) = some word := by
  obtain ⟨c, inner, ending, htext, hstart, hinner, hending⟩ := h.isText
  have hbody : ∀ d ∈ c :: inner, isNameChar d = true := by
    intro d hd
    rcases List.mem_cons.mp hd with rfl | hd
    · exact isNameChar_of_isWordStart hstart
    · exact hinner d hd
  -- without an ending the last character is a name character, so what follows is none
  have hnext : ending = [] → ∀ d ∈ rest.head?, isNameChar d = false ∧ isEnding d = false := by
    rintro rfl
    apply h.complete
    rw [htext, List.append_nil, List.getLast?_eq_some_getLast (List.cons_ne_nil _ _)]
    exact hbody _ (List.getLast_mem _)
  have hback : ∀ d ∈ (ending ++ rest).head?, isNameChar d = false := by
    rcases hending with rfl | rfl | rfl
    · exact fun d hd => (hnext rfl d hd).1
    · simp; decide
    · simp; decide
  obtain ⟨htake, hdrop⟩ := span_isNameChar hbody hback
  have htaken : takeEnding (ending ++ rest) = ending :=
    takeEnding_append hending fun hnil d hd => (hnext hnil d hd).2
  have hsplit : word.text ++ rest = c :: (inner ++ (ending ++ rest)) := by simp [htext]
  have hword : (isAlphabetic c || c == '_') = true := hstart
  rw [hsplit]
  rw [List.cons_append] at htake hdrop
  simp only [takeWord?, hword, h.apart, Bool.not_false, Bool.and_self, if_true, htake, hdrop, htaken,
    List.drop_left]
  rw [← htext, ← h.next_eq, ← h.prev_eq]

/-- What is found is a word. -/
theorem exists_of_takeWord? {prev : Option Char} {s : List Char} {word : Word}
    (h : takeWord? prev s = some word) : ∃ rest, s = word.text ++ rest ∧ WordAt prev word rest := by
  cases s with
  | nil => cases h
  | cons c s =>
    simp only [takeWord?] at h
    split at h
    · next hword =>
      simp only [Bool.and_eq_true, Bool.not_eq_true'] at hword
      obtain ⟨hstart, hapart⟩ := hword
      have hc : isNameChar c = true := isNameChar_of_isWordStart hstart
      obtain rfl := Option.some.inj h
      have hbody : ∀ d ∈ (c :: s).takeWhile isNameChar, isNameChar d = true :=
        List.all_eq_true.mp List.all_takeWhile
      have hsplit := List.takeWhile_append_dropWhile (p := isNameChar) (l := c :: s)
      have hback : ∀ d ∈ ((c :: s).dropWhile isNameChar).head?, isNameChar d = false := by
        intro d hd
        have hnot := List.head?_dropWhile_not isNameChar (c :: s)
        rw [Option.mem_def.mp hd] at hnot
        exact hnot
      generalize hend : (c :: s).dropWhile isNameChar = back at hsplit hback ⊢
      have hbegin : (c :: s).takeWhile isNameChar = c :: s.takeWhile isNameChar := by simp [hc]
      rw [hbegin] at hbody hsplit ⊢
      have hinner : ∀ d ∈ s.takeWhile isNameChar, isNameChar d = true :=
        fun d hd => hbody d (List.mem_cons_of_mem _ hd)
      rcases takeEnding_cases back with ⟨hnone, hnext⟩ | ⟨d, rest, rfl, htaken, hd⟩
      · refine ⟨back, by simp [hnone, hsplit], ⟨?_, ?_, hapart, rfl, by simp [hnone]⟩⟩
        · exact ⟨c, _, [], by simp [hnone], hstart, hinner, .inl rfl⟩
        · exact fun _ d hd => ⟨hback d hd, hnext d hd⟩
      · refine ⟨rest, by simp [htaken, ← hsplit], ⟨?_, ?_, hapart, rfl, by simp [htaken]⟩⟩
        · refine ⟨c, _, [d], by simp [htaken], hstart, hinner, ?_⟩
          rcases hd with rfl | rfl <;> simp
        · intro hlast
          simp only [htaken, List.getLast?_concat, Option.any_some] at hlast
          rcases hd with rfl | rfl <;> exact absurd hlast (by decide)
    · cases h

/-- Whether a word begins depends on its first character and the one before it. -/
theorem takeWord?_eq_none_iff {prev : Option Char} {c : Char} {s : List Char} :
    takeWord? prev (c :: s) = none ↔ (isWordStart c && !prev.any isNameChar) = false := by
  show (if (isWordStart c && !prev.any isNameChar) = true then _ else none) = none ↔ _
  split
  · next hstart => simp [hstart]
  · next hstart => simpa using hstart

theorem takeWord?_of_not_isWordStart {prev : Option Char} {c : Char} (h : isWordStart c = false)
    (s : List Char) : takeWord? prev (c :: s) = none :=
  takeWord?_eq_none_iff.mpr (by rw [h, Bool.false_and])

/-- Where no word begins, none begins in front of another text. -/
theorem takeWord?_none_of_none {prev : Option Char} {c : Char} {s : List Char}
    (h : takeWord? prev (c :: s) = none) (t : List Char) : takeWord? prev (c :: t) = none :=
  takeWord?_eq_none_iff.mpr (takeWord?_eq_none_iff.mp h)

/-! ## The walk -/

/-- The walk from a place of the text on, behind `prev`. -/
def mapWordsFrom (f : Word → Option (List Char)) (prev : Option Char) (s : List Char) : List Char :=
  substitute (wordOrSpan f) prev s

section

variable {f : Word → Option (List Char)} {prev : Option Char} {rest : List Char}

theorem closerOf?_of_isWordStart {c : Char} (h : isWordStart c = true) : closerOf? prev c = none := by
  have hmark : isWordStart '\'' = false ∧ isWordStart '"' = false ∧ isWordStart '\x60' = false ∧
      isWordStart '(' = false := by decide
  rw [Option.eq_none_iff_forall_ne_some]
  intro close hclose
  rcases closerOf?_eq_some hclose with ⟨-, rfl | rfl | rfl⟩ | ⟨-, rfl, -⟩ <;> simp [hmark] at h

/-- No span begins with a word. -/
theorem IsWordText.takeSpan?_eq {text : List Char} (h : IsWordText text) :
    takeSpan? prev (text ++ rest) = none := by
  obtain ⟨c, inner, ending, rfl, hstart, -⟩ := h
  simp only [List.cons_append, takeSpan?, closerOf?_of_isWordStart hstart, Option.bind_none]

theorem IsWordText.ne_nil {text : List Char} (h : IsWordText text) : text ≠ [] := by
  obtain ⟨c, inner, ending, rfl, -⟩ := h
  simp

@[simp] theorem mapWordsFrom_nil : mapWordsFrom f prev [] = [] := by
  unfold mapWordsFrom
  rw [substitute]

/-- A step that takes some of the text and puts `out` in its place. -/
theorem mapWordsFrom_taken {taken out : List Char} (hne : taken ≠ [])
    (h : wordOrSpan f prev (taken ++ rest) = some (taken.length, out)) :
    mapWordsFrom f prev (taken ++ rest) = out ++ mapWordsFrom f taken.getLast? rest := by
  cases taken with
  | nil => exact absurd rfl hne
  | cons c taken =>
    have hlast : (c :: (taken ++ rest))[taken.length]? = (c :: taken).getLast? := by
      rw [← List.cons_append, List.getElem?_append_left (by simp), List.getLast?_eq_getElem?]
      simp
    unfold mapWordsFrom
    rw [List.cons_append] at h ⊢
    rw [substitute]
    simp only [h, List.length_cons, List.drop_left, hlast]

theorem mapWordsFrom_span {taken : List Char} (hne : taken ≠ [])
    (h : takeSpan? prev (taken ++ rest) = some taken.length) :
    mapWordsFrom f prev (taken ++ rest) = taken ++ mapWordsFrom f taken.getLast? rest :=
  mapWordsFrom_taken hne (by simp [wordOrSpan, h])

theorem mapWordsFrom_word {word : Word} (h : WordAt prev word rest) :
    mapWordsFrom f prev (word.text ++ rest) =
      (f word).getD word.text ++ mapWordsFrom f word.text.getLast? rest :=
  mapWordsFrom_taken h.isText.ne_nil (by simp [wordOrSpan, h.isText.takeSpan?_eq, h.takeWord?_eq])

theorem mapWordsFrom_copy {c : Char} (hspan : takeSpan? prev (c :: rest) = none)
    (hword : takeWord? prev (c :: rest) = none) :
    mapWordsFrom f prev (c :: rest) = c :: mapWordsFrom f (some c) rest := by
  have h : wordOrSpan f prev (c :: rest) = none := by simp [wordOrSpan, hspan, hword]
  unfold mapWordsFrom
  rw [substitute]
  simp only [h]

/-- What stands before the text counts only as a bracket, as a name character in front of a word, and as
the neighbour that `f` looks at. -/
theorem mapWordsFrom_congr {prev' : Option Char} {s : List Char}
    (hbracket : prev = some ']' ↔ prev' = some ']')
    (hname : ∀ c ∈ s.head?, isWordStart c = true → prev.any isNameChar = prev'.any isNameChar)
    (hf : ∀ text next, f ⟨text, prev, next⟩ = f ⟨text, prev', next⟩) :
    mapWordsFrom f prev s = mapWordsFrom f prev' s := by
  cases s with
  | nil => rw [mapWordsFrom_nil, mapWordsFrom_nil]
  | cons c s =>
    have hspan : takeSpan? prev (c :: s) = takeSpan? prev' (c :: s) := by
      simp only [takeSpan?, closerOf?, hbracket]
    have hword : (takeWord? prev (c :: s)).map (fun word => (word.text.length, (f word).getD word.text)) =
        (takeWord? prev' (c :: s)).map fun word => (word.text.length, (f word).getD word.text) := by
      by_cases hstart : isWordStart c = true
      · have hstart' : (isAlphabetic c || c == '_') = true := hstart
        simp only [takeWord?, hstart', hname c rfl hstart]
        split
        · simp only [Option.map_some, hf]
        · rfl
      · have hstart' : (isAlphabetic c || c == '_') = false := by simpa [isWordStart] using hstart
        simp [takeWord?, hstart']
    have hstep : wordOrSpan f prev (c :: s) = wordOrSpan f prev' (c :: s) := by
      simp only [wordOrSpan, hspan, hword]
    unfold mapWordsFrom
    rw [substitute, substitute, hstep]

end

/-- Induction along the walk: a span, a word or one character is taken at a time. -/
theorem walk_induction {motive : Option Char → List Char → Prop} (nil : ∀ prev, motive prev [])
    (span : ∀ prev taken rest, taken ≠ [] →
      (∀ t, takeSpan? prev (taken ++ t) = some taken.length) →
      motive taken.getLast? rest → motive prev (taken ++ rest))
    (word : ∀ prev word rest, WordAt prev word rest →
      motive word.text.getLast? rest → motive prev (word.text ++ rest))
    (copy : ∀ prev c rest, takeSpan? prev (c :: rest) = none → takeWord? prev (c :: rest) = none →
      motive (some c) rest → motive prev (c :: rest))
    (prev : Option Char) (s : List Char) : motive prev s := by
  induction hn : s.length using Nat.strongRecOn generalizing prev s with
  | _ n ih =>
    subst hn
    cases s with
    | nil => exact nil prev
    | cons c s =>
      rcases hspan : takeSpan? prev (c :: s) with _ | n
      · rcases hword : takeWord? prev (c :: s) with _ | w
        · exact copy prev c s hspan hword (ih _ (by simp) _ s rfl)
        · obtain ⟨rest, hsplit, hat⟩ := exists_of_takeWord? hword
          have hpos := List.length_pos_iff.mpr hat.isText.ne_nil
          rw [hsplit] at ih ⊢
          exact word prev w rest hat (ih _ (by simp; omega) _ rest rfl)
      · obtain ⟨taken, rest, hsplit, hne, hall⟩ := exists_of_takeSpan? hspan
        have hpos := List.length_pos_iff.mpr hne
        rw [hsplit] at ih ⊢
        exact span prev taken rest hne hall (ih _ (by simp; omega) _ rest rfl)

/-- The walk meets a word. -/
inductive Sees : Option Char → List Char → Word → Prop
  | here {prev word rest} : WordAt prev word rest → Sees prev (word.text ++ rest) word
  | span {prev taken rest word} : taken ≠ [] →
      (∀ t, takeSpan? prev (taken ++ t) = some taken.length) → Sees taken.getLast? rest word →
      Sees prev (taken ++ rest) word
  | word {prev first rest word} : WordAt prev first rest → Sees first.text.getLast? rest word →
      Sees prev (first.text ++ rest) word
  | copy {prev c rest word} : takeSpan? prev (c :: rest) = none → takeWord? prev (c :: rest) = none →
      Sees (some c) rest word → Sees prev (c :: rest) word

theorem Sees.length_le {prev : Option Char} {s : List Char} {word : Word} (h : Sees prev s word) :
    word.text.length ≤ s.length := by
  induction h <;> simp <;> omega

/-- A text none of whose words is replaced stays as it is. -/
theorem mapWordsFrom_of_sees {f : Word → Option (List Char)} {prev : Option Char} {s : List Char}
    (h : ∀ word, Sees prev s word → f word = none) : mapWordsFrom f prev s = s := by
  induction prev, s using walk_induction with
  | nil prev => exact mapWordsFrom_nil
  | span prev taken rest hne hall ih =>
    rw [mapWordsFrom_span hne (hall _), ih fun word hsees => h word (.span hne hall hsees)]
  | word prev word rest hat ih =>
    rw [mapWordsFrom_word hat, h word (.here hat), Option.getD_none,
      ih fun word hsees => h word (.word hat hsees)]
  | copy prev c rest hspan hword ih =>
    rw [mapWordsFrom_copy hspan hword, ih fun word hsees => h word (.copy hspan hword hsees)]

/-! ## Links -/

/-- A word that names a member becomes a link. -/
def memberLink (isMember : String → Bool) (link : String → String) (word : Word) :
    Option (List Char) :=
  let name := String.ofList word.text
  if mayNameMember word && isMember name then some (link name).toList else none

/-- A word that names a constant becomes a link. -/
def constantLink (lookup : String → Option Value) (word : Word) : Option (List Char) :=
  if isConstantName word.text then
    (lookup (String.ofList word.text)).map fun v =>
      '[' :: v.present.toList ++ "](#".toList ++ Inflection.anchored word.text ++ [')']
  else none

theorem constantLink_eq_some {lookup : String → Option Value} {prev : Option Char} (next : Option Char)
    {text : List Char} {v : Value} (htext : isConstantName text = true)
    (hvalue : lookup (String.ofList text) = some v) :
    constantLink lookup ⟨text, prev, next⟩ =
      some ('[' :: v.present.toList ++ "](#".toList ++ Inflection.anchored text ++ [')']) := by
  simp only [constantLink, htext, hvalue, if_true, Option.map_some]

end DocWeave.Prose
