import DocWeave.Proofs.Prose.Words

/-!
# Line ends between words

Words are replaced line by line, but for one thing: a backslash takes the next character into a span even
if that is a line end. `LeavesEscape` says of a text that a span is opened on the walk over it, that the
text does not close the span, and that an escape in the span is left over at the end of the text. Such a
text protects words of the next line, and no other text does (`links_lineLocal_iff`).
-/

namespace DocWeave.Prose

open DocWeave.Text

/-! ## Escapes at the end of a text -/

/-- The text neither closes the span nor ends a line in it, and its last character is a backslash that
takes what follows the text. -/
def escapesNext (close : Char) : List Char → Bool
  | [] => false
  | [c] => c == '\\'
  | c :: d :: s =>
    if c = '\\' then escapesNext close s
    else c != '\n' && c != close && escapesNext close (d :: s)

theorem getLast?_of_escapesNext {close : Char} {s : List Char} (h : escapesNext close s = true) :
    s.getLast? = some '\\' := by
  fun_induction escapesNext close s with
  | case1 => cases h
  | case2 c =>
    obtain rfl := eq_of_beq h
    rfl
  | case3 d s ih =>
    have hs := ih h
    rw [List.getLast?_cons_cons, List.getLast?_cons, hs]
    rfl
  | case4 c d s _ ih =>
    simp only [Bool.and_eq_true] at h
    rw [List.getLast?_cons_cons]
    exact ih h.2

section

variable {close : Char} (hclose : IsCloser close)

include hclose

/-- A text without an escape at its end does not close on the next line what it leaves open. -/
theorem spanLength?_append_of_not_escapesNext {s : List Char} (hnone : spanLength? close s = none)
    (h : escapesNext close s = false) (t : List Char) :
    spanLength? close (s ++ '\n' :: t) = none := by
  fun_induction escapesNext close s with
  | case1 => exact spanLength?_lineEnd t
  | case2 c =>
    have hescape : c ≠ '\\' := by simpa using h
    by_cases hend : c = '\n'
    · rw [hend]
      exact spanLength?_lineEnd _
    by_cases hc : c = close
    · rw [hc, spanLength?_close hclose] at hnone
      cases hnone
    · rw [List.singleton_append, spanLength?_plain hescape hend hc, spanLength?_lineEnd]
      rfl
  | case3 d s ih =>
    rw [spanLength?_escape, List.tail_cons, Option.map_eq_none_iff] at hnone
    rw [List.cons_append, spanLength?_escape, List.cons_append, List.tail_cons, ih hnone h]
    rfl
  | case4 c d s hescape ih =>
    by_cases hend : c = '\n'
    · rw [hend]
      exact spanLength?_lineEnd _
    by_cases hc : c = close
    · rw [hc, spanLength?_close hclose] at hnone
      cases hnone
    · rw [spanLength?_plain hescape hend hc, Option.map_eq_none_iff] at hnone
      have hrest : escapesNext close (d :: s) = false := by simpa [hend, hc] using h
      rw [List.cons_append, spanLength?_plain hescape hend hc, ih hnone hrest]
      rfl

omit hclose in
/-- An escape at the end of a text takes the line end into the span, which goes on behind it. -/
theorem spanLength?_append_of_escapesNext {s : List Char} (h : escapesNext close s = true)
    (t : List Char) :
    spanLength? close (s ++ '\n' :: t) = (spanLength? close t).map (· + (s.length + 1)) := by
  fun_induction escapesNext close s with
  | case1 => cases h
  | case2 c =>
    obtain rfl := eq_of_beq h
    exact spanLength?_escape ('\n' :: t)
  | case3 d s ih =>
    rw [List.cons_append, spanLength?_escape, List.cons_append, List.tail_cons, ih h, Option.map_map]
    rfl
  | case4 c d s hescape ih =>
    simp only [Bool.and_eq_true, bne_iff_ne] at h
    obtain ⟨⟨hend, hc⟩, hrest⟩ := h
    rw [List.cons_append, spanLength?_plain hescape hend hc, ih hrest, Option.map_map]
    rfl

end

/-! ## Spans that are left open -/

/-- A mark at the beginning of the text opens a span that the text leaves open, with an escape at its
end. -/
def LeavesOpen (prev : Option Char) (s : List Char) : Prop :=
  ∃ c back close, s = c :: back ∧ closerOf? prev c = some close ∧ escapesNext close back = true

/-- Somewhere on the walk over the text a span is opened that the text leaves open, with an escape at its
end. -/
inductive LeavesEscape : Option Char → List Char → Prop
  | here {prev s} : LeavesOpen prev s → LeavesEscape prev s
  | span {prev taken rest} : taken ≠ [] → (∀ t, takeSpan? prev (taken ++ t) = some taken.length) →
      LeavesEscape taken.getLast? rest → LeavesEscape prev (taken ++ rest)
  | word {prev word rest} : WordAt prev word rest → LeavesEscape word.text.getLast? rest →
      LeavesEscape prev (word.text ++ rest)
  | copy {prev c rest} : takeSpan? prev (c :: rest) = none → takeWord? prev (c :: rest) = none →
      LeavesEscape (some c) rest → LeavesEscape prev (c :: rest)

theorem LeavesEscape.getLast?_eq {prev : Option Char} {s : List Char} (h : LeavesEscape prev s) :
    s.getLast? = some '\\' := by
  induction h with
  | here h =>
    obtain ⟨c, back, close, rfl, -, hescape⟩ := h
    rw [List.getLast?_cons, getLast?_of_escapesNext hescape]
    rfl
  | span _ _ _ ih => rw [List.getLast?_append, ih, Option.some_or]
  | word _ _ ih => rw [List.getLast?_append, ih, Option.some_or]
  | copy _ _ _ ih =>
    rw [List.getLast?_cons, ih]
    rfl

/-- What opens no span in a text opens none with another line behind it. -/
theorem takeSpan?_append_lineEnd {prev : Option Char} {c : Char} {s : List Char}
    (hnone : takeSpan? prev (c :: s) = none) (h : ¬LeavesOpen prev (c :: s)) (t : List Char) :
    takeSpan? prev (c :: s ++ '\n' :: t) = none := by
  cases hcloser : closerOf? prev c with
  | none => simp [takeSpan?, hcloser]
  | some close =>
    have hopen : spanLength? close s = none := by simpa [takeSpan?, hcloser] using hnone
    have hescape : escapesNext close s = false := by
      rw [Bool.eq_false_iff]
      intro hescape
      exact h ⟨c, s, close, rfl, hcloser, hescape⟩
    have hlater := spanLength?_append_of_not_escapesNext (isCloser_of_closerOf? hcloser) hopen hescape t
    simp [takeSpan?, hcloser, hlater]

/-! ## Words at the end of a line -/

/-- The same word with another text behind it. -/
def Word.before (word : Word) (rest : List Char) : Word := { word with next := rest.head? }

/-- A word ends at a line end as it ends at the end of the text. -/
theorem WordAt.append_lineEnd {prev : Option Char} {word : Word} {rest : List Char}
    (h : WordAt prev word rest) (t : List Char) :
    WordAt prev (word.before (rest ++ '\n' :: t)) (rest ++ '\n' :: t) := by
  refine ⟨h.isText, ?_, h.apart, h.prev_eq, rfl⟩
  intro hlast d hd
  cases rest with
  | nil =>
    obtain rfl := Option.some.inj hd
    exact ⟨by decide, by decide⟩
  | cons e rest => exact h.complete hlast d hd

/-- What becomes of a word does not tell a line end from the end of the text. -/
structure LineBlind (f : Word → Option (List Char)) : Prop where
  prev : ∀ text next, f ⟨text, some '\n', next⟩ = f ⟨text, none, next⟩
  next : ∀ text prev, f ⟨text, prev, some '\n'⟩ = f ⟨text, prev, none⟩

theorem LineBlind.before {f : Word → Option (List Char)} (hf : LineBlind f) {prev : Option Char}
    {word : Word} {rest : List Char} (h : WordAt prev word rest) (t : List Char) :
    f (word.before (rest ++ '\n' :: t)) = f word := by
  obtain ⟨text, before, next⟩ := word
  obtain rfl : next = rest.head? := h.next_eq
  cases rest with
  | nil => exact hf.next text before
  | cons d rest => rfl

/-! ## Line by line -/

section

variable {f : Word → Option (List Char)} {prev : Option Char} {s : List Char}

/-- A line begins as a text begins. -/
theorem mapWordsFrom_lineEnd (hf : LineBlind f) (t : List Char) :
    mapWordsFrom f prev ('\n' :: t) = '\n' :: mapWordsFrom f none t := by
  have hspan : takeSpan? prev ('\n' :: t) = none := by simp [takeSpan?, closerOf?]
  rw [mapWordsFrom_copy hspan (takeWord?_of_not_isWordStart (by decide) t), mapWordsFrom_congr (by simp) _ hf.prev]
  intro c _ _
  decide

/-- Where no escape is left over, the words of both lines are replaced as if each stood alone. -/
theorem mapWordsFrom_append_lineEnd (hf : LineBlind f) (h : ¬LeavesEscape prev s) (t : List Char) :
    mapWordsFrom f prev (s ++ '\n' :: t) = mapWordsFrom f prev s ++ '\n' :: mapWordsFrom f none t := by
  induction prev, s using walk_induction with
  | nil prev =>
    rw [mapWordsFrom_nil]
    exact mapWordsFrom_lineEnd hf t
  | span prev taken rest hne hall ih =>
    have hrest := ih fun hrest => h (.span hne hall hrest)
    rw [List.append_assoc, mapWordsFrom_span hne (hall _), mapWordsFrom_span hne (hall _), hrest,
      List.append_assoc]
  | word prev word rest hat ih =>
    have hrest := ih fun hrest => h (.word hat hrest)
    have hlater := mapWordsFrom_word (f := f) (hat.append_lineEnd t)
    rw [hf.before hat] at hlater
    rw [List.append_assoc, mapWordsFrom_word hat]
    exact hlater.trans (by rw [Word.before, hrest, List.append_assoc])
  | copy prev c rest hspan hword ih =>
    have hrest := ih fun hrest => h (.copy hspan hword hrest)
    have hspan' := takeSpan?_append_lineEnd hspan (fun hopen => h (.here hopen)) t
    rw [mapWordsFrom_copy hspan hword, List.cons_append, List.cons_append, ← hrest]
    exact mapWordsFrom_copy hspan' (takeWord?_none_of_none hword _)

/-! ## Words that are protected from the line above -/

/-- A span that a text leaves open with an escape at its end is closed on the next line, and no word in
it is seen. -/
theorem protected_of_leavesOpen (h : LeavesOpen prev s) :
    ∃ close, IsCloser close ∧ ∀ (f : Word → Option (List Char)) (t : List Char),
      (∀ d ∈ t, isNameChar d = true) →
      mapWordsFrom f prev (s ++ '\n' :: (t ++ [close])) = s ++ '\n' :: (t ++ [close]) := by
  obtain ⟨c, back, close, rfl, hcloser, hescape⟩ := h
  have hclose : IsCloser close := isCloser_of_closerOf? hcloser
  refine ⟨close, hclose, ?_⟩
  intro f t ht
  have hneutral : ∀ d ∈ t, Neutral close d := fun d hd => hclose.neutral (ht d hd)
  have hlength : spanLength? close (back ++ '\n' :: (t ++ [close])) =
      some (1 + t.length + (back.length + 1)) := by
    rw [spanLength?_append_of_escapesNext hescape, spanLength?_neutral hneutral,
      spanLength?_close hclose]
    rfl
  -- the span is all of the text
  have hspan : takeSpan? prev (c :: back ++ '\n' :: (t ++ [close]) ++ []) =
      some (c :: back ++ '\n' :: (t ++ [close])).length := by
    rw [List.append_nil]
    simp only [List.cons_append, takeSpan?, hcloser, Option.bind_some, hlength, Option.map_some,
      List.length_cons, List.length_append, List.length_nil]
    congr 1
    omega
  have htaken := mapWordsFrom_span (f := f) (by simp) hspan
  rw [mapWordsFrom_nil] at htaken
  simpa only [List.append_nil] using htaken

/-- Where an escape is left over, some character on the next line closes the span, and a word between the
two is no longer seen. -/
theorem exists_protected (h : LeavesEscape prev s) :
    ∃ close, IsCloser close ∧ ∀ (f : Word → Option (List Char)) (t : List Char),
      (∀ d ∈ t, isNameChar d = true) → (∀ word : Word, word.text.length ≤ s.length → f word = none) →
      mapWordsFrom f prev (s ++ '\n' :: (t ++ [close])) = s ++ '\n' :: (t ++ [close]) := by
  induction h with
  | here h =>
    obtain ⟨close, hclose, hall⟩ := protected_of_leavesOpen h
    exact ⟨close, hclose, fun f t ht _ => hall f t ht⟩
  | span hne hall _ ih =>
    obtain ⟨close, hclose, hrest⟩ := ih
    refine ⟨close, hclose, ?_⟩
    intro f t ht hf
    rw [List.append_assoc, mapWordsFrom_span hne (hall _),
      hrest f t ht fun word hword => hf word (by simp; omega)]
  | word hat _ ih =>
    obtain ⟨close, hclose, hrest⟩ := ih
    refine ⟨close, hclose, ?_⟩
    intro f t ht hf
    have hlater := mapWordsFrom_word (f := f) (hat.append_lineEnd (t ++ [close]))
    rw [hf (Word.before _ _) (by simp [Word.before]), Option.getD_none, Word.before,
      hrest f t ht fun word hword => hf word (by simp; omega)] at hlater
    rw [List.append_assoc]
    exact hlater
  | @copy prev c rest hspan hword _ ih =>
    by_cases hleaves : LeavesOpen prev (c :: rest)
    · obtain ⟨close, hclose, hall⟩ := protected_of_leavesOpen hleaves
      exact ⟨close, hclose, fun f t ht _ => hall f t ht⟩
    · obtain ⟨close, hclose, hrest⟩ := ih
      refine ⟨close, hclose, ?_⟩
      intro f t ht hf
      have hspan' := takeSpan?_append_lineEnd hspan hleaves (t ++ [close])
      rw [List.cons_append] at hspan' ⊢
      rw [mapWordsFrom_copy hspan' (takeWord?_none_of_none hword _), hrest f t ht fun word hword => hf word (by simp; omega)]

/-- A closing character by itself stays as it is. -/
theorem mapWordsFrom_closer {close : Char} (h : IsCloser close) :
    mapWordsFrom f prev [close] = [close] := by
  have hspan : takeSpan? prev [close] = none := by
    cases hcloser : closerOf? prev close <;> simp [takeSpan?, hcloser, spanLength?]
  have hstart : isWordStart close = false := by
    rw [Bool.eq_false_iff]
    intro hstart
    exact Bool.false_ne_true (h.not_nameChar.symm.trans (isNameChar_of_isWordStart hstart))
  rw [mapWordsFrom_copy hspan (takeWord?_of_not_isWordStart hstart []), mapWordsFrom_nil]

/-- Where an escape is left over, a word that is longer than all words of the text and that `f` replaces
shows that the two lines are not replaced one by one. -/
theorem exists_not_local (h : LeavesEscape none s) {c : Char} (inner : List Char)
    (hstart : isWordStart c = true) (hinner : ∀ d ∈ inner, isNameChar d = true)
    (hshort : ∀ word : Word, word.text.length ≤ s.length → f word = none)
    (hlong : ∀ next, next ≠ some ':' → ∃ out, f ⟨c :: inner, none, next⟩ = some out ∧ out ≠ c :: inner) :
    ∃ t, mapWordsFrom f none (s ++ '\n' :: t) ≠ mapWordsFrom f none s ++ '\n' :: mapWordsFrom f none t := by
  obtain ⟨close, hclose, hall⟩ := exists_protected h
  have hchars : ∀ d ∈ c :: inner, isNameChar d = true := by
    intro d hd
    rcases List.mem_cons.mp hd with rfl | hd
    · exact isNameChar_of_isWordStart hstart
    · exact hinner d hd
  have hend : isEnding close = false ∧ close ≠ ':' := by
    rcases hclose with rfl | rfl | rfl | rfl <;> decide
  obtain ⟨out, hout, hne⟩ := hlong (some close) (by simpa using hend.2)
  have hat : WordAt none ⟨c :: inner, none, some close⟩ [close] := by
    refine ⟨⟨c, inner, [], by simp, hstart, hinner, .inl rfl⟩, ?_, rfl, rfl, rfl⟩
    intro _ d hd
    obtain rfl := Option.some.inj hd
    exact ⟨hclose.not_nameChar, hend.1⟩
  refine ⟨c :: inner ++ [close], ?_⟩
  intro heq
  have halone := mapWordsFrom_word (f := f) hat
  rw [hout, Option.getD_some, mapWordsFrom_closer hclose] at halone
  rw [hall f _ hchars hshort, mapWordsFrom_of_sees fun word hsees => hshort word hsees.length_le, halone,
    List.append_cancel_left_eq, List.cons_inj_right, List.append_cancel_right_eq] at heq
  exact hne heq.symm

end

/-! ## Links -/

theorem lineBlind_memberLink (isMember : String → Bool) (link : String → String) :
    LineBlind (memberLink isMember link) where
  prev text next := by simp [memberLink, mayNameMember]
  next text prev := by simp [memberLink, mayNameMember]

theorem lineBlind_constantLink (lookup : String → Option Value) : LineBlind (constantLink lookup) where
  prev _ _ := rfl
  next _ _ := rfl

/-- **Line by line.** Members and constants are replaced on each of two lines as if it stood alone,
whatever stands on the second, exactly if the first leaves no escape over in an open span; such an escape
is a backslash at its end. -/
theorem links_lineLocal_iff (a : List Char) :
    ((∀ isMember link b, membersAsLinks isMember link (a ++ '\n' :: b) =
        membersAsLinks isMember link a ++ '\n' :: membersAsLinks isMember link b) ↔
      ¬LeavesEscape none a) ∧
    ((∀ lookup b, constantsAsLinks lookup (a ++ '\n' :: b) =
        constantsAsLinks lookup a ++ '\n' :: constantsAsLinks lookup b) ↔
      ¬LeavesEscape none a) ∧
    (LeavesEscape none a → a.getLast? = some '\\') := by
  refine ⟨⟨?_, ?_⟩, ⟨?_, ?_⟩, LeavesEscape.getLast?_eq⟩
  · intro hlocal hleaves
    -- members are exactly the names that are longer than the line
    let isMember : String → Bool := fun name => decide (a.length < name.length)
    obtain ⟨t, hne⟩ := exists_not_local (f := memberLink isMember fun _ => "") hleaves
      (c := 'x') (List.replicate a.length 'x') (by decide)
      (fun d hd => by rw [List.eq_of_mem_replicate hd]; decide)
      (fun word hword => by simp [memberLink, isMember]; omega)
      (fun next hnext => ⟨[], by simp [memberLink, isMember, mayNameMember, hnext], by simp⟩)
    exact hne (hlocal isMember (fun _ => "") t)
  · intro hleaves isMember link b
    exact mapWordsFrom_append_lineEnd (lineBlind_memberLink isMember link) hleaves b
  · intro hlocal hleaves
    let lookup : String → Option Value := fun name => if a.length < name.length then some .nil else none
    let name : List Char := 'K' :: List.replicate (a.length + 1) 'K'
    have hname : isConstantName name = true := by simp [name, isConstantName, List.replicate_succ]
    have hlookup : lookup (String.ofList name) = some .nil := by
      simp only [lookup, name, String.length_ofList, List.length_cons, List.length_replicate]
      rw [if_pos (by omega)]
    obtain ⟨t, hne⟩ := exists_not_local (f := constantLink lookup) hleaves
      (c := 'K') (List.replicate (a.length + 1) 'K') (by decide)
      (fun d hd => by rw [List.eq_of_mem_replicate hd]; decide)
      (fun word hword => by simp [constantLink, lookup]; omega)
      (fun next _ => ⟨_, constantLink_eq_some next hname hlookup, by simp⟩)
    exact hne (hlocal lookup t)
  · intro hleaves lookup b
    exact mapWordsFrom_append_lineEnd (lineBlind_constantLink lookup) hleaves b

/-- The backslash at the end of the first line takes the line end into the quote, which a later quotation
mark closes: the member on the second line, and the constant, are left alone. -/
theorem not_links_lineLocal :
    membersAsLinks (· == "total") (fun name => "^\x60" ++ name ++ "\x60")
        ("'x\\".toList ++ '\n' :: "total'".toList) = "'x\\\ntotal'".toList ∧
      membersAsLinks (· == "total") (fun name => "^\x60" ++ name ++ "\x60") "'x\\".toList ++ '\n' ::
        membersAsLinks (· == "total") (fun name => "^\x60" ++ name ++ "\x60") "total'".toList =
          "'x\\\n^\x60total\x60'".toList ∧
      constantsAsLinks (fun _ => some (.int 1)) ("'x\\".toList ++ '\n' :: "LIMIT'".toList) =
        "'x\\\nLIMIT'".toList ∧
      constantsAsLinks (fun _ => some (.int 1)) "'x\\".toList ++ '\n' ::
        constantsAsLinks (fun _ => some (.int 1)) "LIMIT'".toList =
          "'x\\\n[1](#limit)'".toList := by
  decide +kernel

end DocWeave.Prose
