import DocWeave.Proofs.Expr.Printing
import DocWeave.Proofs.Text.Splitting

/-!
# Pieces of canonical text

`Cuts` says that the lexer takes some words off the front of a text, wherever the text stands; such
steps compose. Strings, numbers, names, labels, constants, symbols and marks are each cut into their
words when what follows cannot be taken for a part of the piece (`Stops`).
-/

namespace DocWeave.Expr

open DocWeave.Text

/-! ## Taking words off a text -/

/-- The lexer takes the words `ws` off the front of `s` and goes on with `rest`, at any offset and
depth and behind any token. -/
def Cuts (spaced : Bool) (s : List Char) (ws : List Word) (rest : List Char) : Prop :=
  ∀ offset depth last, ∃ offset' depth' last' ps,
    ps.map Placed.word = ws ∧ (∀ p ∈ ps, p.isSeparator = false) ∧
    lexFrom offset depth spaced last s =
      (lexFrom offset' depth' false last' rest).map (ps ++ ·)

theorem Cuts.refl (rest : List Char) : Cuts false rest [] rest := by
  intro offset depth last
  refine ⟨offset, depth, last, [], rfl, by simp, ?_⟩
  cases lexFrom offset depth false last rest <;> rfl

theorem Cuts.trans {spaced : Bool} {s mid rest : List Char} {ws ws' : List Word}
    (h : Cuts spaced s ws mid) (h' : Cuts false mid ws' rest) :
    Cuts spaced s (ws ++ ws') rest := by
  intro offset depth last
  obtain ⟨o₁, d₁, l₁, ps₁, hw₁, hs₁, he₁⟩ := h offset depth last
  obtain ⟨o₂, d₂, l₂, ps₂, hw₂, hs₂, he₂⟩ := h' o₁ d₁ l₁
  refine ⟨o₂, d₂, l₂, ps₁ ++ ps₂, by rw [List.map_append, hw₁, hw₂], ?_, ?_⟩
  · intro p hp
    rcases List.mem_append.mp hp with hp | hp
    · exact hs₁ p hp
    · exact hs₂ p hp
  · rw [he₁, he₂]
    cases lexFrom o₂ d₂ false l₂ rest with
    | error fault => rfl
    | ok tokens =>
      show Except.ok (ps₁ ++ (ps₂ ++ tokens)) = Except.ok (ps₁ ++ ps₂ ++ tokens)
      rw [List.append_assoc]

/-- A blank belongs to the word behind it. -/
theorem Cuts.blank {s rest : List Char} {ws : List Word} (spaced : Bool) (h : Cuts true s ws rest) :
    Cuts spaced (' ' :: s) ws rest := by
  intro offset depth last
  obtain ⟨o, d, l, ps, hw, hs, he⟩ := h (offset + 1) depth last
  refine ⟨o, d, l, ps, hw, hs, ?_⟩
  rw [lexFrom, if_pos (Or.inl rfl), he]

/-- A character that begins a word. -/
def beginsWord (c : Char) : Bool := !([' ', '\t', '\r', '#', '\n', ';'].contains c)

/-- One word is taken off a text that begins with it. -/
theorem Cuts.word {c : Char} {s rest : List Char} {t : Token} (spaced : Bool)
    (hc : beginsWord c = true) (h : lexOne c s = .ok (t, rest))
    (ht : ∀ offset, Placed.isSeparator ⟨t, spaced, offset⟩ = false) :
    Cuts spaced (c :: s) [(t, spaced)] rest := by
  intro offset depth last
  have hne : c ≠ ' ' ∧ c ≠ '\t' ∧ c ≠ '\r' ∧ c ≠ '#' ∧ c ≠ '\n' ∧ c ≠ ';' := by
    simpa [beginsWord] using hc
  refine ⟨offset + byteLength ((c :: s).take (s.length + 1 - rest.length)), depthAfter depth t,
    some t, [⟨t, spaced, offset⟩], rfl, ?_, ?_⟩
  · intro p hp
    rw [List.mem_singleton.mp hp]
    exact ht offset
  · rw [lexFrom, if_neg (by simp [hne]), if_neg (by simp [hne]), if_neg (by simp [hne])]
    split
    · next hn => rw [h] at hn; cases hn
    · next hn =>
      rw [h] at hn
      cases hn
      rfl

/-! ## What may follow a piece -/

/-- A character that ends every word before it. -/
def isStop (c : Char) : Bool := [' ', ',', '.', '(', ')', '[', ']', '\x7d'].contains c

/-- What follows cannot be taken for a part of the piece before it. A point that follows is no decimal
point. -/
structure Stops (rest : List Char) : Prop where
  head : ∀ c ∈ rest.head?, isStop c = true
  point : ∀ c s, rest = '.' :: c :: s → c.isDigit = false

theorem Stops.nil : Stops [] := ⟨by simp, by simp⟩

theorem Stops.cons {c : Char} {s : List Char} (hc : isStop c = true) (hp : c ≠ '.') :
    Stops (c :: s) := by
  refine ⟨by simpa using hc, ?_⟩
  intro d t h
  exact absurd (List.cons.inj h).1 hp

/-- What a character that ends words is not. -/
theorem isStop_spec {c : Char} (h : isStop c = true) :
    isNameInner c = false ∧ isNumberChar c = false ∧ c ≠ '?' ∧ c ≠ '!' ∧ c ≠ '=' ∧ c ≠ ':' := by
  have hc : c = ' ' ∨ c = ',' ∨ c = '.' ∨ c = '(' ∨ c = ')' ∨ c = '[' ∨ c = ']' ∨ c = '\x7d' := by
    simpa [isStop] using h
  rcases hc with rfl | rfl | rfl | rfl | rfl | rfl | rfl | rfl <;> decide

/-! ## Strings and numbers -/

/-- A quoted text is taken up to its closing quote. -/
theorem takeString_escaped (s rest : List Char) :
    takeString '\'' (s.flatMap escapeChar ++ '\'' :: rest) = some (s, rest) := by
  induction s with
  | nil => cases rest <;> simp [takeString]
  | cons c s ih =>
    rw [List.flatMap_cons, List.append_assoc]
    by_cases hc : c = '\\' ∨ c = '\''
    · have hu : unescape '\'' c = some c := by
        rcases hc with rfl | rfl <;> rfl
      simp [escapeChar, hc, takeString, hu, ih]
    · rw [not_or] at hc
      -- the closing quote is still to come, so the text behind `c` is not empty
      obtain ⟨d, tail, hd⟩ : ∃ d tail, s.flatMap escapeChar ++ '\'' :: rest = d :: tail := by
        cases h : s.flatMap escapeChar with
        | nil => exact ⟨'\'', rest, rfl⟩
        | cons d t => exact ⟨d, t ++ '\'' :: rest, rfl⟩
      rw [hd] at ih ⊢
      simp [escapeChar, hc, takeString, ih]

theorem cuts_quoted (s : String) (spaced : Bool) (rest : List Char) :
    Cuts spaced (quotedText s ++ rest) [(.str s, spaced)] rest := by
  have h := takeString_escaped s.toList rest
  rw [quotedText, List.cons_append, List.append_assoc]
  apply Cuts.word spaced (by decide)
  · simp [lexOne, h, String.ofList_toList]
  · intro offset; rfl

/-- What is left of a run when a character that does not belong to it follows. -/
theorem span_append {p : Char → Bool} {s rest : List Char} (hs : ∀ c ∈ s, p c = true)
    (hr : ∀ c ∈ rest.head?, p c = false) :
    (s ++ rest).takeWhile p = s ∧ (s ++ rest).dropWhile p = rest := by
  have hrest : rest.takeWhile p = [] ∧ rest.dropWhile p = rest := by
    cases rest with
    | nil => exact ⟨rfl, rfl⟩
    | cons c t =>
      have hc : p c = false := hr c rfl
      simp [hc]
  constructor
  · rw [List.takeWhile_append_of_pos hs, hrest.1, List.append_nil]
  · rw [List.dropWhile_append_of_pos hs, hrest.2]

/-- A number of 64 bits fits into 64 bits. -/
theorem fit?_toInt (i : Int64) : Value.fit? i.toInt = some i := by
  rw [Value.fit?, if_pos ⟨Int64.minValue_le_toInt i, Int64.toInt_le i⟩, Int64.ofInt_toInt]

/-- The digits of a number spell it. -/
theorem ofDigits_toDigits (n : Nat) : Decimal.ofDigits (Nat.toDigits 10 n) = n :=
  Nat.ofDigitChars_ten_toDigits

theorem lexNumber_toDigits {i : Int64} {c : Char} {s rest : List Char} (hi : 0 ≤ i.toInt)
    (hs : Nat.toDigits 10 i.toInt.toNat = c :: s) (hr : Stops rest) :
    lexNumber c (s ++ rest) = .ok (.int i, rest) := by
  have hdigit : ∀ d ∈ c :: s, d.isDigit = true := by
    intro d hd
    exact Nat.isDigit_of_mem_toDigits (by decide) (by decide) (hs ▸ hd)
  have hspan : ((c :: s) ++ rest).takeWhile isNumberChar = c :: s ∧
      ((c :: s) ++ rest).dropWhile isNumberChar = rest :=
    span_append (fun d hd => by simp [isNumberChar, hdigit d hd])
      (fun d hd => (isStop_spec (hr.head d hd)).2.1)
  have hplain : (c :: s).filter (· != '_') = c :: s := by
    rw [List.filter_eq_self]
    intro d hd
    have : d ≠ '_' := by
      rintro rfl
      exact absurd (hdigit '_' hd) (by decide)
    simpa using this
  have htake : takeNumber (c :: (s ++ rest)) = (c :: s, rest) := by
    rw [← List.cons_append, takeNumber, hspan.1, hspan.2, hplain]
  have hfit : Value.fit? (Int.ofNat (Decimal.ofDigits (c :: s))) = some i := by
    rw [← hs, ofDigits_toDigits]
    show Value.fit? ((i.toInt.toNat : Nat) : Int) = some i
    rw [Int.toNat_of_nonneg hi, fit?_toInt]
  have hint : lexNumber.integer (c :: s) rest = .ok (.int i, rest) := by
    rw [lexNumber.integer, hfit]
  simp only [lexNumber, htake]
  split
  · next d tail =>
    rw [if_neg (by simp [hr.point d tail rfl])]
    exact hint
  · exact hint

theorem cuts_number {i : Int64} (hi : 0 ≤ i.toInt) (spaced : Bool) {rest : List Char}
    (hr : Stops rest) :
    Cuts spaced (Nat.toDigits 10 i.toInt.toNat ++ rest) [(.int i, spaced)] rest := by
  obtain ⟨c, s, hs⟩ := List.exists_cons_of_ne_nil (Nat.toDigits_ne_nil (b := 10) (n := i.toInt.toNat))
  have hc : c.isDigit = true :=
    Nat.isDigit_of_mem_toDigits (by decide) (by decide) (hs ▸ List.mem_cons_self)
  have hne : c ≠ '"' ∧ c ≠ '\'' ∧ beginsWord c = true := by
    refine ⟨?_, ?_, ?_⟩
    · rintro rfl; exact absurd hc (by decide)
    · rintro rfl; exact absurd hc (by decide)
    · simp only [beginsWord, Bool.not_eq_true', List.contains_eq_mem, decide_eq_false_iff_not,
        List.mem_cons, List.not_mem_nil, or_false]
      rintro (rfl | rfl | rfl | rfl | rfl | rfl) <;> exact absurd hc (by decide)
  rw [hs, List.cons_append]
  apply Cuts.word spaced hne.2.2
  · rw [lexOne, if_neg (by simp [hne.1, hne.2.1]), if_pos hc, lexNumber_toDigits hi hs hr]
    rfl
  · intro offset; rfl

/-! ## Names -/

/-- A name's tail is cut off together with the mark at its end, whatever stands behind it. -/
theorem nameTail_split {s : List Char} (hs : isNameTail s = true) (rest : List Char)
    (hr : ∀ c ∈ rest.head?, isNameInner c = false) :
    ∃ last, (last = [] ∨ last = ['?'] ∨ last = ['!']) ∧
      (s ++ rest).takeWhile isNameInner ++ last = s ∧
      (s ++ rest).dropWhile isNameInner = last ++ rest := by
  have hsplit : s = s.takeWhile isNameInner ++ s.dropWhile isNameInner :=
    List.takeWhile_append_dropWhile.symm
  have hinner : ∀ c ∈ s.takeWhile isNameInner, isNameInner c = true :=
    fun c hc => List.all_eq_true.mp List.all_takeWhile c hc
  -- a last mark is no inner character, so the run of inner characters ends before it
  have hlast : ∀ last : List Char, s.dropWhile isNameInner = last →
      (∀ c ∈ (last ++ rest).head?, isNameInner c = false) →
      (s ++ rest).takeWhile isNameInner ++ last = s ∧
      (s ++ rest).dropWhile isNameInner = last ++ rest := by
    intro last hd hh
    have hspan := span_append hinner hh
    rw [hd] at hsplit
    rw [← List.append_assoc, ← hsplit] at hspan
    rw [hspan.1, hspan.2]
    exact ⟨hsplit.symm, rfl⟩
  unfold isNameTail at hs
  split at hs
  · next hd => exact ⟨[], Or.inl rfl, hlast [] hd (by simpa using hr)⟩
  · next c hd =>
    have hc : c = '?' ∨ c = '!' := by simpa using hs
    refine ⟨[c], by simpa using hc, hlast [c] hd ?_⟩
    intro d hd
    obtain rfl : c = d := by simpa using hd
    rcases hc with rfl | rfl <;> decide
  · cases hs

theorem takeNameEnd_append {last rest : List Char} (hl : last = [] ∨ last = ['?'] ∨ last = ['!'])
    (hr : ∀ c ∈ rest.head?, c ≠ '?' ∧ c ≠ '!' ∧ c ≠ '=') :
    takeNameEnd (last ++ rest) = (last, rest) := by
  rcases hl with rfl | rfl | rfl
  · cases rest with
    | nil => rfl
    | cons c s =>
      have hc := hr c rfl
      simp [takeNameEnd, hc]
  all_goals
    have he : rest.head? ≠ some '=' := by
      intro h
      exact (hr '=' (by simp [h])).2.2 rfl
    simp [takeNameEnd, he]

theorem takeSymbolEnd_append {last rest : List Char}
    (hl : last = [] ∨ last = ['?'] ∨ last = ['!'])
    (hr : ∀ c ∈ rest.head?, c ≠ '?' ∧ c ≠ '!') :
    takeSymbolEnd (last ++ rest) = (last, rest) := by
  rcases hl with rfl | rfl | rfl
  · cases rest with
    | nil => rfl
    | cons c s =>
      have hc := hr c rfl
      simp [takeSymbolEnd, hc]
  all_goals simp [takeSymbolEnd]

theorem isLower_iff_toNat {c : Char} : c.isLower = true ↔ 97 ≤ c.toNat ∧ c.toNat ≤ 122 := by
  show (decide ('a'.val ≤ c.val) && decide (c.val ≤ 'z'.val)) = true ↔ _
  simp [UInt32.le_iff_toNat_le]

theorem isUpper_iff_toNat {c : Char} : c.isUpper = true ↔ 65 ≤ c.toNat ∧ c.toNat ≤ 90 := by
  show decide ('A'.val ≤ c.val ∧ c.val ≤ 'Z'.val) = true ↔ _
  simp [UInt32.le_iff_toNat_le]

/-- A character with a property that blanks, separators, comments and quotes lack begins a word that
is no string. -/
theorem beginsWord_of {p : Char → Bool} {c : Char} (h : p c = true)
    (hp : [' ', '\t', '\r', '#', '\n', ';', '"', '\''].all (fun d => !p d) = true) :
    beginsWord c = true ∧ c ≠ '"' ∧ c ≠ '\'' := by
  have hne : ∀ d ∈ [' ', '\t', '\r', '#', '\n', ';', '"', '\''], c ≠ d := by
    rintro d hd rfl
    have := List.all_eq_true.mp hp c hd
    simp [h] at this
  refine ⟨?_, hne _ (by simp), hne _ (by simp)⟩
  simp [beginsWord, hne ' ' (by simp), hne '\t' (by simp), hne '\r' (by simp), hne '#' (by simp),
    hne '\n' (by simp), hne ';' (by simp)]

/-- No digit begins a name. -/
theorem isDigit_of_isNameStart {c : Char} (h : isNameStart c = true) : c.isDigit = false := by
  cases hd : c.isDigit with
  | false => rfl
  | true =>
    rw [Char.isDigit_iff_toNat] at hd
    simp only [isNameStart, Bool.or_eq_true, beq_iff_eq, isLower_iff_toNat] at h
    rcases h with (h | rfl) | rfl
    · have h9 : c.toNat ≤ 57 := hd.2
      omega
    · exact absurd hd (by decide)
    · exact absurd hd (by decide)

theorem lexOne_name {c : Char} (s : List Char) (h : isNameStart c = true) :
    lexOne c s = .ok (lexName c s) := by
  obtain ⟨-, h₁, h₂⟩ := beginsWord_of h (by decide)
  rw [lexOne, if_neg (by simp [h₁, h₂]), if_neg (by simp [isDigit_of_isNameStart h]), if_pos h]

/-- A name ends where no character goes on with it. -/
theorem lexName_ident {c : Char} {s rest : List Char} (hs : isNameTail s = true)
    (hr : Stops rest) : lexName c (s ++ rest) = (.ident (String.ofList (c :: s)), rest) := by
  have hstop := fun d hd => isStop_spec (hr.head d hd)
  obtain ⟨last, hl, htake, hdrop⟩ := nameTail_split hs rest (fun d hd => (hstop d hd).1)
  have hend : takeNameEnd (last ++ rest) = (last, rest) :=
    takeNameEnd_append hl fun d hd =>
      ⟨(hstop d hd).2.2.1, (hstop d hd).2.2.2.1, (hstop d hd).2.2.2.2.1⟩
  simp only [lexName, hdrop, hend, List.cons_append, htake]
  split
  · rfl
  · exact absurd rfl (hstop ':' rfl).2.2.2.2.2
  · rfl

/-- A name before a lone colon is a label. -/
theorem lexName_label {c : Char} {s : List Char} (hs : isNameTail s = true) (rest : List Char) :
    lexName c (s ++ ':' :: ' ' :: rest) = (.label (String.ofList (c :: s)), ' ' :: rest) := by
  obtain ⟨last, hl, htake, hdrop⟩ :=
    nameTail_split hs (':' :: ' ' :: rest) (by simp; decide)
  have hend : takeNameEnd (last ++ ':' :: ' ' :: rest) = (last, ':' :: ' ' :: rest) :=
    takeNameEnd_append hl (by simp)
  simp only [lexName, hdrop, hend, List.cons_append, htake]
  rfl

/-- The first character of an identifier, and the others. -/
theorem isIdentifier_cons {name : String} (h : isIdentifier name = true) :
    ∃ c s, name.toList = c :: s ∧ isNameStart c = true ∧ isNameTail s = true := by
  unfold isIdentifier at h
  split at h
  · next c s hs =>
    rw [Bool.and_eq_true] at h
    exact ⟨c, s, hs, h.1, h.2⟩
  · cases h

theorem cuts_name {name : String} (h : isIdentifier name = true) (spaced : Bool) {rest : List Char}
    (hr : Stops rest) : Cuts spaced (name.toList ++ rest) [(.ident name, spaced)] rest := by
  obtain ⟨c, s, hn, hc, hs⟩ := isIdentifier_cons h
  have hname : String.ofList (c :: s) = name := by rw [← hn, String.ofList_toList]
  rw [hn, List.cons_append]
  apply Cuts.word spaced (beginsWord_of hc (by decide)).1
  · rw [lexOne_name _ hc, lexName_ident hs hr, hname]
  · intro offset; rfl

theorem cuts_label {name : String} (h : isIdentifier name = true) (spaced : Bool)
    (rest : List Char) :
    Cuts spaced (name.toList ++ ':' :: ' ' :: rest) [(.label name, spaced)] (' ' :: rest) := by
  obtain ⟨c, s, hn, hc, hs⟩ := isIdentifier_cons h
  have hname : String.ofList (c :: s) = name := by rw [← hn, String.ofList_toList]
  rw [hn, List.cons_append]
  apply Cuts.word spaced (beginsWord_of hc (by decide)).1
  · rw [lexOne_name _ hc, lexName_label hs, hname]
  · intro offset; rfl

/-! ## Constants and symbols -/

theorem isDigit_of_isUpper {c : Char} (h : c.isUpper = true) : c.isDigit = false := by
  have hn := isUpper_iff_toNat.mp h
  rw [← Bool.not_eq_true, Char.isDigit_iff_toNat]
  rintro ⟨-, h9⟩
  have : c.toNat ≤ 57 := h9
  omega

theorem lexOne_constant {c : Char} {s rest : List Char} (hc : c.isUpper = true)
    (hs : s.all isNameInner = true) (hr : ∀ d ∈ rest.head?, isNameInner d = false) :
    lexOne c (s ++ rest) = .ok (.const (String.ofList (c :: s)), rest) := by
  obtain ⟨-, h₁, h₂⟩ := beginsWord_of hc (by decide)
  have hn := isUpper_iff_toNat.mp hc
  have hstart : isNameStart c = false := by
    simp only [isNameStart, Bool.or_eq_false_iff, beq_eq_false_iff_ne]
    refine ⟨⟨?_, ?_⟩, ?_⟩
    · rw [← Bool.not_eq_true, isLower_iff_toNat]
      omega
    · rintro rfl; exact absurd hc (by decide)
    · rintro rfl; exact absurd hc (by decide)
  have hspan := span_append (List.all_eq_true.mp hs) hr
  rw [lexOne, if_neg (by simp [h₁, h₂]), if_neg (by simp [isDigit_of_isUpper hc]),
    if_neg (by simp [hstart]), if_pos hc, hspan.1, hspan.2]

theorem cuts_constant {name : List Char} (h : isConstantName name = true) (spaced : Bool)
    {rest : List Char} (hr : ∀ d ∈ rest.head?, isNameInner d = false) :
    Cuts spaced (name ++ rest) [(.const (String.ofList name), spaced)] rest := by
  unfold isConstantName at h
  split at h
  · next c s =>
    rw [Bool.and_eq_true] at h
    rw [List.cons_append]
    apply Cuts.word spaced (beginsWord_of h.1 (by decide)).1 (lexOne_constant h.1 h.2 hr)
    intro offset; rfl
  · cases h

/-- A path is its first part with the others behind it, each with the colons before it. -/
theorem exists_pathParts (path : String) : ∃ first parts, pathParts path = first :: parts ∧
    path.toList = first ++ parts.flatMap ([':', ':'] ++ ·) := by
  obtain ⟨first, parts, hp⟩ := List.exists_cons_of_ne_nil (splitOn_ne_nil [':', ':'] path.toList)
  refine ⟨first, parts, hp, ?_⟩
  rw [← intercalate_cons, ← hp]
  exact (intercalate_splitOn _ _).symm

/-- A part of a path ends at the colons of the next one, or where the path does. -/
theorem pathTail_stops (parts : List (List Char)) {rest : List Char} (hr : Stops rest) :
    ∀ d ∈ (parts.flatMap ([':', ':'] ++ ·) ++ rest).head?, isNameInner d = false := by
  intro d hd
  cases parts with
  | nil => exact (isStop_spec (hr.head d (by simpa using hd))).1
  | cons next parts =>
    obtain rfl : ':' = d := by simpa using hd
    decide

/-- The parts behind the first are cut off one by one, each with the colons before it. -/
theorem cuts_pathTail {parts : List (List Char)} (h : parts.all isConstantName = true)
    {rest : List Char} (hr : Stops rest) :
    Cuts false (parts.flatMap ([':', ':'] ++ ·) ++ rest)
      (parts.flatMap fun name => [(.mark .scope, false), (.const (String.ofList name), false)])
      rest := by
  induction parts with
  | nil => exact Cuts.refl rest
  | cons name parts ih =>
    rw [List.all_cons, Bool.and_eq_true] at h
    simp only [List.flatMap_cons, List.append_assoc, List.cons_append, List.nil_append]
    have hscope : Cuts false (':' :: ':' :: (name ++ (parts.flatMap ([':', ':'] ++ ·) ++ rest)))
        [(.mark .scope, false)] (name ++ (parts.flatMap ([':', ':'] ++ ·) ++ rest)) :=
      Cuts.word false (by decide) rfl fun _ => rfl
    exact hscope.trans ((cuts_constant h.1 false (pathTail_stops parts hr)).trans (ih h.2))

theorem cuts_path {path : String} (h : isConstantPath path = true) (spaced : Bool)
    {rest : List Char} (hr : Stops rest) :
    Cuts spaced (path.toList ++ rest) (pathWords path spaced) rest := by
  obtain ⟨first, parts, hp, hpath⟩ := exists_pathParts path
  rw [isConstantPath, hp, List.all_cons, Bool.and_eq_true] at h
  rw [pathWords, hp, hpath, List.append_assoc]
  exact (cuts_constant h.1 spaced (pathTail_stops parts hr)).trans (cuts_pathTail h.2 hr)

theorem cuts_bareSymbol {name : String} (h : isBareSymbol name = true) (spaced : Bool)
    {rest : List Char} (hr : Stops rest) :
    Cuts spaced (':' :: (name.toList ++ rest)) [(.symbol name, spaced)] rest := by
  unfold isBareSymbol at h
  split at h
  · next c s hn =>
    simp only [Bool.and_eq_true, Bool.not_eq_true'] at h
    have hstop := fun d hd => isStop_spec (hr.head d hd)
    obtain ⟨last, hl, htake, hdrop⟩ := nameTail_split h.2 rest (fun d hd => (hstop d hd).1)
    have hend : takeSymbolEnd (last ++ rest) = (last, rest) :=
      takeSymbolEnd_append hl fun d hd => ⟨(hstop d hd).2.2.1, (hstop d hd).2.2.2.1⟩
    have hsym : lexSymbol (c :: (s ++ rest)) = (.symbol name, rest) := by
      simp only [lexSymbol, List.takeWhile_cons, List.dropWhile_cons, h.1.1, if_true, hdrop, hend,
        List.cons_append, htake]
      rw [← hn, String.ofList_toList]
    have hcolon : c ≠ ':' := by
      rintro rfl
      exact absurd h.1.1 (by decide)
    have hletter : isNameStart c = true ∨ c.isUpper = true := by
      have h₁ : (c.isUpper || c.isLower || c.isDigit || c == '_') = true := h.1.1
      simp only [Bool.or_eq_true, h.1.2, beq_iff_eq, Bool.false_eq_true, or_false] at h₁
      rcases h₁ with (h₁ | h₁) | rfl
      · exact Or.inr h₁
      · exact Or.inl (by simp [isNameStart, h₁])
      · exact Or.inl (by decide)
    rw [hn, List.cons_append]
    apply Cuts.word spaced (by decide)
    · show lexColon (c :: (s ++ rest)) = _
      unfold lexColon
      split
      · next he => exact absurd (List.cons.inj he).1 hcolon
      · next d tail _ he =>
        obtain ⟨rfl, rfl⟩ := List.cons.inj he
        rw [if_pos (by simpa using hletter), hsym]
      · next he => cases he
    · intro offset; rfl
  · cases h

theorem cuts_quotedSymbol (s : String) (spaced : Bool) (rest : List Char) :
    Cuts spaced (':' :: (quotedText s ++ rest)) [(.symbol s, spaced)] rest := by
  have h := takeString_escaped s.toList rest
  rw [quotedText, List.cons_append, List.append_assoc]
  apply Cuts.word spaced (by decide)
  · show lexColon ('\'' :: (s.toList.flatMap escapeChar ++ (['\''] ++ rest))) = _
    simp [lexColon, h, isNameStart, String.ofList_toList]
  · intro offset; rfl

/-! ## Marks -/

/-- A mark of one character, unless it makes a longer one together with what follows. -/
theorem Cuts.mark {c : Char} {m : Mark} (spaced : Bool) (hm : mark1? c = some m) {rest : List Char}
    (hr : ∀ d ∈ rest.head?, mark2? c d = none) :
    Cuts spaced (c :: rest) [(.mark m, spaced)] rest := by
  have hlex : lexMark c rest = .ok (.mark m, rest) := by
    unfold lexMark
    split
    · next d tail =>
      rw [hr d rfl]
      simp [lexMark.single, hm]
    · simp [lexMark.single, hm]
  have hok : (lexMark c rest).mapError (fun fault => (0, fault)) = .ok (.mark m, rest) := by
    rw [hlex]
    rfl
  have hword : beginsWord c = true ∧ lexOne c rest = .ok (.mark m, rest) ∧ m ≠ .separator := by
    unfold mark1? at hm
    split at hm
    all_goals cases hm
    all_goals exact ⟨by decide, by simp [lexOne, hok, isNameStart], by decide⟩
  refine Cuts.word spaced hword.1 hword.2.1 ?_
  intro offset
  unfold Placed.isSeparator
  split
  · next ht => cases ht; exact absurd rfl hword.2.2
  · rfl

/-- The opening and closing marks never make a longer mark. -/
theorem Cuts.bracket {c : Char} {m : Mark} (spaced : Bool) (hm : mark1? c = some m)
    (hc : ['(', ')', '[', ']', '\x7b', '\x7d', ',', '.', '-', '*'].contains c = true)
    (rest : List Char) : Cuts spaced (c :: rest) [(.mark m, spaced)] rest := by
  refine Cuts.mark spaced hm ?_
  intro d _
  simp only [List.contains_eq_mem, List.mem_cons, List.not_mem_nil, or_false,
    decide_eq_true_eq] at hc
  rcases hc with rfl | rfl | rfl | rfl | rfl | rfl | rfl | rfl | rfl | rfl <;> rfl

/-- A binary operator stands between blanks. -/
theorem cuts_operator (op : BinaryOp) (rest : List Char) :
    Cuts false (' ' :: (op.symbol ++ ' ' :: rest)) [(.mark op.mark, true)] (' ' :: rest) := by
  apply Cuts.blank
  cases op
  all_goals
    refine Cuts.word true (by decide) rfl ?_
    intro offset; rfl

theorem cuts_arrow (rest : List Char) :
    Cuts false (' ' :: '=' :: '>' :: rest) [(.mark .arrow, true)] rest := by
  apply Cuts.blank
  refine Cuts.word true (by decide) rfl ?_
  intro offset; rfl

end DocWeave.Expr
