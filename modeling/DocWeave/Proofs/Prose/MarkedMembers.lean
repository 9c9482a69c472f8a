import DocWeave.Directive.Builtin
import DocWeave.Proofs.Prose.Words
import DocWeave.Proofs.Text.Splitting

/-!
# Marked members

The marker of a member is its name between back-ticks behind a caret. `Marking` relates a text to the text
with some of its words put into markers. In a text without back-ticks the walk takes the same spans before
and after the marking (`Marking.spanLength?_eq_none_iff`), since a marker neither opens, closes nor ends a
span of another kind; a marker itself is a span. So a second pass finds nothing to replace, and dropping
the markers gives the text back (`membersAsLinks_settles`).
-/

namespace DocWeave.Prose

open DocWeave.Text DocWeave.Directive

/-! ## Texts with markers -/

/-- The text with some of its words put into markers. -/
inductive Marking : List Char → List Char → Prop
  | nil : Marking [] []
  | copy {s t} (c : Char) : Marking s t → Marking (c :: s) (c :: t)
  | mark {s t text} : IsWordText text → Marking s t →
      Marking (text ++ s) ('^' :: '\x60' :: (text ++ '\x60' :: t))

theorem Marking.append {s t : List Char} (h : Marking s t) (front : List Char) :
    Marking (front ++ s) (front ++ t) := by
  induction front with
  | nil => exact h
  | cons c front ih => exact .copy c ih

/-- A marking begins as the text does, or with a caret in place of a word. -/
theorem Marking.head? {s t : List Char} (h : Marking s t) :
    t.head? = s.head? ∨ t.head? = some '^' ∧ ∃ c, s.head? = some c ∧ isWordStart c = true := by
  cases h with
  | nil => exact .inl rfl
  | copy c _ => exact .inl rfl
  | mark htext _ =>
    obtain ⟨c, inner, ending, rfl, hstart, -⟩ := htext
    exact .inr ⟨rfl, c, rfl, hstart⟩

/-- What holds of the first character of a text and of a caret holds of that of a marking. -/
theorem Marking.forall_head? {s t : List Char} (h : Marking s t) {p : Char → Prop}
    (hs : ∀ c ∈ s.head?, p c) (hcaret : p '^') : ∀ c ∈ t.head?, p c := by
  intro c hc
  rcases h.head? with heq | ⟨heq, -⟩
  · exact hs c (heq ▸ hc)
  · rw [heq] at hc
    obtain rfl := Option.some.inj hc
    exact hcaret

theorem isWordText_chars {text : List Char} (h : IsWordText text) :
    ∀ c ∈ text, isNameChar c = true ∨ isEnding c = true := by
  obtain ⟨d, inner, ending, rfl, hstart, hinner, hending⟩ := h
  intro c hc
  rw [List.cons_append, List.mem_cons, List.mem_append] at hc
  rcases hc with rfl | hc | hc
  · exact .inl (isNameChar_of_isWordStart hstart)
  · exact .inl (hinner c hc)
  · rcases hending with rfl | rfl | rfl
    · cases hc
    · rw [List.mem_singleton.mp hc]
      exact .inr rfl
    · rw [List.mem_singleton.mp hc]
      exact .inr rfl

/-- A character that is in no word is not in this one. -/
theorem IsWordText.ne_of_mem {text : List Char} (h : IsWordText text) {c d : Char} (hc : c ∈ text)
    (hd : (isNameChar d || isEnding d) = false) : c ≠ d := by
  rintro rfl
  rw [Bool.or_eq_false_iff] at hd
  rcases isWordText_chars h c hc with hname | hending
  · exact Bool.false_ne_true (hd.1.symm.trans hname)
  · exact Bool.false_ne_true (hd.2.symm.trans hending)

theorem IsWordText.neutral {text : List Char} (h : IsWordText text) {close : Char}
    (hclose : IsCloser close) : ∀ c ∈ text, Neutral close c := by
  intro c hc
  refine ⟨h.ne_of_mem hc (by decide), h.ne_of_mem hc (by decide), h.ne_of_mem hc ?_⟩
  rcases hclose with rfl | rfl | rfl | rfl <;> decide

/-! ## Spans of a marking -/

theorem spanLength?_neutral_isNone {close : Char} {body : List Char}
    (h : ∀ c ∈ body, Neutral close c) (s : List Char) :
    spanLength? close (body ++ s) = none ↔ spanLength? close s = none := by
  rw [spanLength?_neutral h, Option.map_eq_none_iff]

/-- A span of another kind than the back-ticked ones is left open in a marking exactly if it was in the
text. -/
theorem Marking.spanLength?_eq_none_iff {s t : List Char} (h : Marking s t) {close : Char}
    (hclose : IsCloser close) (hother : close ≠ '\x60') :
    spanLength? close t = none ↔ spanLength? close s = none := by
  -- An escape takes one character, whatever it is, so the induction keeps an eye on the tails as well.
  suffices (spanLength? close t = none ↔ spanLength? close s = none) ∧
      (spanLength? close t.tail = none ↔ spanLength? close s.tail = none) from this.1
  have hcaret : Neutral close '^' := ⟨by decide, by decide, by
    rcases hclose with rfl | rfl | rfl | rfl <;> decide⟩
  have htick : Neutral close '\x60' := ⟨by decide, by decide, hother.symm⟩
  induction h with
  | nil => exact ⟨Iff.rfl, Iff.rfl⟩
  | @copy s t c _ ih =>
    refine ⟨?_, ih.1⟩
    by_cases hescape : c = '\\'
    · rw [hescape, spanLength?_escape, spanLength?_escape, Option.map_eq_none_iff,
        Option.map_eq_none_iff]
      exact ih.2
    by_cases hend : c = '\n'
    · rw [hend, spanLength?_lineEnd, spanLength?_lineEnd]
    by_cases hc : c = close
    · rw [hc, spanLength?_close hclose, spanLength?_close hclose]
    · rw [spanLength?_plain hescape hend hc, spanLength?_plain hescape hend hc,
        Option.map_eq_none_iff, Option.map_eq_none_iff]
      exact ih.1
  | @mark s t text htext _ ih =>
    have hneutral : ∀ c ∈ text, Neutral close c := htext.neutral hclose
    have hbehind : spanLength? close ('\x60' :: (text ++ '\x60' :: t)) = none ↔
        spanLength? close s = none := by
      rw [spanLength?_plain htick.ne_escape htick.ne_lineEnd htick.ne_close, Option.map_eq_none_iff,
        spanLength?_neutral_isNone hneutral,
        spanLength?_plain htick.ne_escape htick.ne_lineEnd htick.ne_close, Option.map_eq_none_iff]
      exact ih.1
    constructor
    · rw [spanLength?_plain hcaret.ne_escape hcaret.ne_lineEnd hcaret.ne_close, Option.map_eq_none_iff,
        spanLength?_neutral_isNone hneutral]
      exact hbehind
    · have htail : (text ++ s).tail = text.tail ++ s := List.tail_append_of_ne_nil htext.ne_nil
      rw [htail, List.tail_cons,
        spanLength?_neutral_isNone fun c hc => hneutral c (List.mem_of_mem_tail hc)]
      exact hbehind

/-! ## The pass that marks members -/

section

variable {isMember : String → Bool} {prev : Option Char}

/-- A word that names a member becomes its marker. -/
def markLink (isMember : String → Bool) : Word → Option (List Char) := memberLink isMember memberMarker

theorem markLink_cases (isMember : String → Bool) (word : Word) :
    markLink isMember word = none ∨
      markLink isMember word = some ('^' :: '\x60' :: (word.text ++ ['\x60'])) := by
  unfold markLink memberLink
  dsimp only
  split
  · right
    simp [memberMarker, String.toList_append]
  · exact .inl rfl

/-- The pass puts words into markers and changes nothing else. -/
theorem marking_mapWordsFrom (isMember : String → Bool) (prev : Option Char) (s : List Char) :
    Marking s (mapWordsFrom (markLink isMember) prev s) := by
  induction prev, s using walk_induction with
  | nil prev =>
    rw [mapWordsFrom_nil]
    exact .nil
  | span prev taken rest hne hall ih =>
    rw [mapWordsFrom_span hne (hall _)]
    exact ih.append taken
  | word prev word rest hat ih =>
    rw [mapWordsFrom_word hat]
    rcases markLink_cases isMember word with hnone | hsome
    · rw [hnone, Option.getD_none]
      exact ih.append word.text
    · rw [hsome, Option.getD_some]
      simpa using Marking.mark hat.isText ih
  | copy prev c rest hspan hword ih =>
    rw [mapWordsFrom_copy hspan hword]
    exact .copy c ih

/-- A marker is copied, whatever it is that `f` replaces. -/
theorem mapWordsFrom_marker {f : Word → Option (List Char)} {text : List Char} (h : IsWordText text)
    (t : List Char) : mapWordsFrom f prev ('^' :: '\x60' :: (text ++ '\x60' :: t)) =
      '^' :: '\x60' :: (text ++ '\x60' :: mapWordsFrom f (some '\x60') t) := by
  have hclose : IsCloser '\x60' := .inr (.inr (.inl rfl))
  have hspan : takeSpan? prev ('^' :: '\x60' :: (text ++ '\x60' :: t)) = none := by
    simp [takeSpan?, closerOf?]
  have hlength : spanLength? '\x60' (text ++ '\x60' :: t) = some (1 + text.length) := by
    rw [spanLength?_neutral (h.neutral hclose), spanLength?_close hclose]
    rfl
  have hquoted : takeSpan? (some '^') ('\x60' :: (text ++ ['\x60']) ++ t) =
      some ('\x60' :: (text ++ ['\x60'])).length := by
    have hsplit : '\x60' :: (text ++ ['\x60']) ++ t = '\x60' :: (text ++ '\x60' :: t) := by simp
    rw [hsplit]
    simp [takeSpan?, closerOf?, hlength, Nat.add_comm]
  have hlast : ('\x60' :: (text ++ ['\x60'])).getLast? = some '\x60' := by
    rw [← List.cons_append, List.getLast?_concat]
  have htaken := mapWordsFrom_span (f := f) (by simp) hquoted
  rw [hlast] at htaken
  rw [mapWordsFrom_copy hspan (takeWord?_of_not_isWordStart (by decide) _)]
  simpa using htaken

/-- What is done with a word only depends on whether a colon comes next. -/
theorem markLink_next {text : List Char} {next next' : Option Char}
    (h : next = some ':' ↔ next' = some ':') :
    markLink isMember ⟨text, prev, next⟩ = markLink isMember ⟨text, prev, next'⟩ := by
  have hcolon : (next != some ':') = (next' != some ':') := by
    rw [Bool.eq_iff_iff, bne_iff_ne, bne_iff_ne]
    exact not_congr h
  simp only [markLink, memberLink, mayNameMember, hcolon]
  rfl

/-- Behind a word the walk goes on as behind a back-tick. -/
theorem mapWordsFrom_behind {text : List Char} (htext : IsWordText text) {s : List Char}
    (hcomplete : Complete text s) :
    mapWordsFrom (markLink isMember) (some '\x60') s =
      mapWordsFrom (markLink isMember) text.getLast? s := by
  have hlast : ∀ d, (isNameChar d || isEnding d) = false → text.getLast? ≠ some d := by
    intro d hd heq
    exact htext.ne_of_mem (List.mem_of_getLast? heq) hd rfl
  refine mapWordsFrom_congr (iff_of_false (by simp) (hlast ']' (by decide))) ?_ ?_
  · intro c hc hstart
    rw [show (some '\x60').any isNameChar = false by decide, eq_comm, Bool.eq_false_iff]
    intro hname
    have hnot := (hcomplete hname c hc).1
    rw [isNameChar_of_isWordStart hstart] at hnot
    cases hnot
  · intro word next
    have hmark : text.getLast?.any (fun c => c == '.' || c == ':' || c == '@' || c == '$') = false := by
      cases hc : text.getLast? with
      | none => rfl
      | some c =>
        have hne : ∀ d, (isNameChar d || isEnding d) = false → c ≠ d := by
          rintro d hd rfl
          exact hlast c hd hc
        simp [hne '.' (by decide), hne ':' (by decide), hne '@' (by decide), hne '$' (by decide)]
    simp [markLink, memberLink, mayNameMember, hmark]

/-- A word that is complete in front of a text is complete in front of a marking of it. -/
theorem Complete.marking {text s t : List Char} (h : Complete text s) (hmarking : Marking s t) :
    Complete text t := by
  intro hlast
  exact hmarking.forall_head? (h hlast) (by decide)

/-- A marking begins with a colon where the text does. -/
theorem Marking.head?_eq_colon_iff {s t : List Char} (h : Marking s t) :
    t.head? = some ':' ↔ s.head? = some ':' := by
  rcases h.head? with heq | ⟨heq, c, hc, hstart⟩
  · rw [heq]
  · rw [heq, hc]
    refine iff_of_false (by simp) ?_
    rintro heq
    rw [Option.some.inj heq] at hstart
    exact absurd hstart (by decide)

/-- No span begins in front of a marking that does not begin in front of the text. -/
theorem Marking.takeSpan?_eq_none {s t : List Char} (hmarking : Marking s t) {c : Char}
    (h : '\x60' ∉ c :: s) (hspan : takeSpan? prev (c :: s) = none) : takeSpan? prev (c :: t) = none := by
  cases hcloser : closerOf? prev c with
  | none => simp [takeSpan?, hcloser]
  | some close =>
    have hother : close ≠ '\x60' := by
      rintro rfl
      rcases closerOf?_eq_some hcloser with ⟨rfl, -⟩ | ⟨hparen, -⟩
      · exact h List.mem_cons_self
      · cases hparen
    have hopen : spanLength? close s = none := by simpa [takeSpan?, hcloser] using hspan
    have hlater := (hmarking.spanLength?_eq_none_iff (isCloser_of_closerOf? hcloser) hother).mpr hopen
    simp [takeSpan?, hcloser, hlater]

/-- A second pass changes nothing. -/
theorem mapWordsFrom_markLink_settles (isMember : String → Bool) (prev : Option Char) {s : List Char}
    (h : '\x60' ∉ s) :
    mapWordsFrom (markLink isMember) prev (mapWordsFrom (markLink isMember) prev s) =
      mapWordsFrom (markLink isMember) prev s := by
  induction prev, s using walk_induction with
  | nil prev => rw [mapWordsFrom_nil, mapWordsFrom_nil]
  | span prev taken rest hne hall ih =>
    have hrest := ih fun hmem => h (List.mem_append_right _ hmem)
    rw [mapWordsFrom_span hne (hall _), mapWordsFrom_span hne (hall _), hrest]
  | word prev word rest hat ih =>
    have hrest := ih fun hmem => h (List.mem_append_right _ hmem)
    have hmarking := marking_mapWordsFrom isMember word.text.getLast? rest
    have hcomplete := hat.complete.marking hmarking
    rw [mapWordsFrom_word hat]
    generalize mapWordsFrom (markLink isMember) word.text.getLast? rest = out at hrest hmarking hcomplete
    rcases markLink_cases isMember word with hnone | hsome
    · -- the word stays, with the same neighbours as far as they count
      obtain ⟨text, before, next⟩ := word
      obtain rfl : next = rest.head? := hat.next_eq
      have hat' : WordAt prev ⟨text, before, out.head?⟩ out :=
        ⟨hat.isText, hcomplete, hat.apart, hat.prev_eq, rfl⟩
      rw [hnone, Option.getD_none, mapWordsFrom_word hat', markLink_next hmarking.head?_eq_colon_iff,
        hnone, Option.getD_none]
      exact congrArg (text ++ ·) hrest
    · -- the marker is a span of its own
      have hmarker : '^' :: '\x60' :: (word.text ++ ['\x60']) ++ out =
          '^' :: '\x60' :: (word.text ++ '\x60' :: out) := by simp
      rw [hsome, Option.getD_some, hmarker, mapWordsFrom_marker hat.isText,
        mapWordsFrom_behind hat.isText hcomplete, hrest]
  | copy prev c rest hspan hword ih =>
    have hrest := ih fun hmem => h (List.mem_cons_of_mem _ hmem)
    have hmarking := marking_mapWordsFrom isMember (some c) rest
    have hspan' := hmarking.takeSpan?_eq_none h hspan
    have hword' := takeWord?_none_of_none hword (mapWordsFrom (markLink isMember) (some c) rest)
    rw [mapWordsFrom_copy hspan hword, mapWordsFrom_copy hspan' hword', hrest]

/-! ## Without the markers -/

/-- A caret and a text between back-ticks. -/
def quotedName : Recogniser (List Char) := fun _ s =>
  (after? ['^', '\x60'] s).bind fun t =>
    (splitFirst? ['\x60'] t).map fun (name, _) => (name.length + 3, name)

/-- Every caret and text between back-ticks gives way to that text. -/
def withoutMarkers (s : List Char) : List Char := substitute quotedName none s

theorem quotedName_eq_none {c : Char} {t : List Char} (h : t.head? ≠ some '\x60') :
    quotedName prev (c :: t) = none := by
  have hnone : after? ['^', '\x60'] (c :: t) = none := by
    rw [Option.eq_none_iff_forall_ne_some]
    intro rest hrest
    obtain ⟨-, rfl⟩ := List.cons.inj (after?_eq_some_iff.mp hrest)
    exact h rfl
  rw [quotedName, hnone]
  rfl

/-- Without its markers, a marking of a text without back-ticks is that text. -/
theorem Marking.substitute_quotedName {s t : List Char} (h : Marking s t) (hs : '\x60' ∉ s)
    (prev : Option Char) : substitute quotedName prev t = s := by
  induction h generalizing prev with
  | nil => rw [substitute]
  | @copy s t c hmarking ih =>
    rw [List.mem_cons, not_or] at hs
    have hhead : t.head? ≠ some '\x60' := by
      intro heq
      refine hmarking.forall_head? (p := (· ≠ '\x60')) ?_ (by decide) _ heq rfl
      rintro d hd rfl
      exact hs.2 (List.mem_of_mem_head? hd)
    rw [substitute]
    simp only [quotedName_eq_none hhead]
    rw [ih hs.2]
  | @mark s t text htext _ ih =>
    rw [List.mem_append, not_or] at hs
    have hfound : quotedName prev ('^' :: '\x60' :: (text ++ '\x60' :: t)) =
        some (text.length + 2 + 1, text) := by
      have hafter : after? ['^', '\x60'] ('^' :: '\x60' :: (text ++ '\x60' :: t)) =
          some (text ++ '\x60' :: t) := rfl
      rw [quotedName, hafter, Option.bind_some, splitFirst?_singleton hs.1]
      rfl
    have hdrop : ('\x60' :: (text ++ '\x60' :: t)).drop (text.length + 2) = t := by simp
    rw [substitute]
    simp only [hfound]
    rw [hdrop, ih hs.2]

/-- A text with a word that names a member grows. -/
theorem length_mapWordsFrom_markLink {s : List Char} {word : Word} (h : Sees prev s word)
    (hlink : markLink isMember word ≠ none) :
    s.length < (mapWordsFrom (markLink isMember) prev s).length := by
  have hle : ∀ {s t}, Marking s t → s.length ≤ t.length := by
    intro s t hmarking
    induction hmarking with
    | nil => exact Nat.le_refl _
    | copy c _ ih => simpa using ih
    | mark _ _ ih =>
      simp only [List.length_append, List.length_cons]
      omega
  induction h with
  | @here prev word rest hat =>
    have hrest := hle (marking_mapWordsFrom isMember word.text.getLast? rest)
    rw [mapWordsFrom_word hat, (markLink_cases isMember word).resolve_left hlink, Option.getD_some]
    simp only [List.length_append, List.length_cons]
    omega
  | span hne hall _ ih =>
    have hrest := ih hlink
    rw [mapWordsFrom_span hne (hall _)]
    simpa using hrest
  | @word prev first rest word hat _ ih =>
    have hrest := ih hlink
    rw [mapWordsFrom_word hat]
    rcases markLink_cases isMember first with hnone | hsome
    · rw [hnone]
      simpa using hrest
    · rw [hsome, Option.getD_some]
      simp only [List.length_append, List.length_cons]
      omega
  | copy hspan hword _ ih =>
    have hrest := ih hlink
    rw [mapWordsFrom_copy hspan hword]
    simpa using hrest

end

/-- The word stands where a member may be named, and it names one. -/
def NamesMember (isMember : String → Bool) (word : Word) : Prop :=
  mayNameMember word = true ∧ isMember (String.ofList word.text) = true

theorem markLink_eq_none_iff {isMember : String → Bool} {word : Word} :
    markLink isMember word = none ↔ ¬NamesMember isMember word := by
  simp [markLink, memberLink, NamesMember]

/-- **Marking members.** In a text without back-ticks a second pass marks nothing more, and dropping the
markers gives the text back; the text stays as it is exactly if no word that the walk meets names a
member. -/
theorem membersAsLinks_settles (isMember : String → Bool) (s : List Char) (h : '\x60' ∉ s) :
    membersAsLinks isMember memberMarker (membersAsLinks isMember memberMarker s) =
        membersAsLinks isMember memberMarker s ∧
      withoutMarkers (membersAsLinks isMember memberMarker s) = s ∧
      (membersAsLinks isMember memberMarker s = s ↔ ∀ word, Sees none s word →
        ¬NamesMember isMember word) := by
  refine ⟨mapWordsFrom_markLink_settles isMember none h, ?_, ?_, ?_⟩
  · exact (marking_mapWordsFrom isMember none s).substitute_quotedName h none
  · intro heq word hsees hnames
    have hgrows := length_mapWordsFrom_markLink hsees (mt markLink_eq_none_iff.mp (not_not_intro hnames))
    rw [show mapWordsFrom (markLink isMember) none s = s from heq] at hgrows
    exact Nat.lt_irrefl _ hgrows
  · intro hnone
    exact mapWordsFrom_of_sees fun word hsees => markLink_eq_none_iff.mpr (hnone word hsees)

/-- Two members without a blank between them, one with an escape before it in an open quote, and one in a
closed quote and in the target of a link. -/
theorem membersAsLinks_settles_tricky :
    '\x60' ∉ "ready?total '\\total\n'total' [1](total) x.total".toList ∧
      membersAsLinks (["ready?", "total"].contains ·) memberMarker
          "ready?total '\\total\n'total' [1](total) x.total".toList =
        "^\x60ready?\x60^\x60total\x60 '\\^\x60total\x60\n'total' [1](total) x.total".toList ∧
      membersAsLinks (["ready?", "total"].contains ·) memberMarker
          "^\x60ready?\x60^\x60total\x60 '\\^\x60total\x60\n'total' [1](total) x.total".toList =
        "^\x60ready?\x60^\x60total\x60 '\\^\x60total\x60\n'total' [1](total) x.total".toList := by
  have h : '\x60' ∉ "ready?total '\\total\n'total' [1](total) x.total".toList := by decide
  have hmarked : membersAsLinks (["ready?", "total"].contains ·) memberMarker
      "ready?total '\\total\n'total' [1](total) x.total".toList =
        "^\x60ready?\x60^\x60total\x60 '\\^\x60total\x60\n'total' [1](total) x.total".toList := by
    decide +kernel
  have hsettles := (membersAsLinks_settles (["ready?", "total"].contains ·) _ h).1
  rw [hmarked] at hsettles
  exact ⟨h, hmarked, hsettles⟩

end DocWeave.Prose
