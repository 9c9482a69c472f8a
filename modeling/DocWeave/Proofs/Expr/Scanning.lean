import DocWeave.Proofs.Expr.Phrases
import DocWeave.Proofs.Expr.Pieces

/-!
# Texts behind one another

`Scans` says by rules what the tokens of a text are; it is `lexFrom` as a relation (`scans_iff`). A
line end closes the word before it: a word of a text is also cut off when a line end and other text
follow (`lexOne_append`), and so the tokens of the text are also the first tokens of a longer one
(`Scans.append`). A text that begins further on, behind a blank or behind a separator has the same
tokens at other places (`Scans.shift`, `Scans.restart`).
-/

namespace DocWeave.Expr

/-! ## The rules -/

/-- The tokens of a text that starts at the byte `o`, inside `d` brackets, behind a blank if `b` says
so and behind the token `last`. -/
inductive Scans : Nat → Nat → Bool → Option Token → List Char → List Placed → Prop where
  | nil {o d b last} : Scans o d b last [] []
  | blank {o d b last c s ts} (hc : c = ' ' ∨ c = '\t' ∨ c = '\r')
      (h : Scans (o + 1) d true last s ts) : Scans o d b last (c :: s) ts
  | comment {o d b last s ts}
      (h : Scans (o + '#'.utf8Size + byteLength (s.takeWhile (· != '\n'))) d b last
        (s.dropWhile (· != '\n')) ts) : Scans o d b last ('#' :: s) ts
  | separator {o d b last c s ts} (hc : c = '\n' ∨ c = ';')
      (hd : d = 0 ∧ last.any (!absorbsLineEnd ·) = true)
      (h : Scans (o + 1) d true (some (.mark .separator)) s ts) :
      Scans o d b last (c :: s) (⟨.mark .separator, b, o⟩ :: ts)
  | lineEnd {o d b last c s ts} (hc : c = '\n' ∨ c = ';')
      (hd : ¬(d = 0 ∧ last.any (!absorbsLineEnd ·) = true))
      (h : Scans (o + 1) d true last s ts) : Scans o d b last (c :: s) ts
  | word {o d b last c s rest t ts} (hc : beginsWord c = true) (h₁ : lexOne c s = .ok (t, rest))
      (h₂ : Scans (o + byteLength ((c :: s).take (s.length + 1 - rest.length))) (depthAfter d t)
        false (some t) rest ts) : Scans o d b last (c :: s) (⟨t, b, o⟩ :: ts)

theorem Scans.lexFrom_eq {o d : Nat} {b : Bool} {last : Option Token} {s : List Char}
    {ts : List Placed} (h : Scans o d b last s ts) : lexFrom o d b last s = .ok ts := by
  induction h with
  | nil => rw [lexFrom]
  | blank hc _ ih => rw [lexFrom, if_pos hc, ih]
  | comment _ ih => rw [lexFrom, if_neg (by decide), if_pos rfl, ih]
  | separator hc hd _ ih =>
    rw [lexFrom, if_neg (by rcases hc with rfl | rfl <;> decide),
      if_neg (by rcases hc with rfl | rfl <;> decide), if_pos hc, if_pos hd, ih]
    rfl
  | lineEnd hc hd _ ih =>
    rw [lexFrom, if_neg (by rcases hc with rfl | rfl <;> decide),
      if_neg (by rcases hc with rfl | rfl <;> decide), if_pos hc, if_neg hd, ih]
  | @word o d b last c s rest t ts hc h₁ _ ih =>
    have hne : c ≠ ' ' ∧ c ≠ '\t' ∧ c ≠ '\r' ∧ c ≠ '#' ∧ c ≠ '\n' ∧ c ≠ ';' := by
      simpa [beginsWord] using hc
    rw [lexFrom, if_neg (by simp [hne]), if_neg (by simp [hne]), if_neg (by simp [hne])]
    split
    · next hn => rw [h₁] at hn; cases hn
    · next hn =>
      rw [h₁] at hn
      cases hn
      show (lexFrom _ _ _ _ _ >>= _) = _
      rw [ih]
      rfl

theorem scans_of_lexFrom {o d : Nat} {b : Bool} {last : Option Token} {s : List Char}
    {ts : List Placed} (h : lexFrom o d b last s = .ok ts) : Scans o d b last s ts := by
  fun_induction lexFrom o d b last s generalizing ts with
  | case1 => cases h; exact .nil
  | case2 _ _ _ _ _ _ hc ih => exact .blank hc (ih h)
  | case3 =>
    rename_i ih
    exact .comment (ih h)
  | case4 _ _ _ _ _ _ _ _ hc hd ih =>
    obtain ⟨tokens, htokens, h⟩ := Stateful.bind_eq_ok h
    cases h
    exact .separator hc hd (ih htokens)
  | case5 _ _ _ _ _ _ _ _ hc hd ih => exact .lineEnd hc hd (ih h)
  | case6 => cases h
  | case7 o d b last c rest hblank hcomment hline t tail hword =>
    rename_i ih
    obtain ⟨tokens, htokens, h⟩ := Stateful.bind_eq_ok h
    cases h
    refine .word ?_ hword (ih htokens)
    simp only [not_or] at hblank hline
    simp [beginsWord, hblank, hcomment, hline]

theorem scans_iff {o d : Nat} {b : Bool} {last : Option Token} {s : List Char} {ts : List Placed} :
    Scans o d b last s ts ↔ lexFrom o d b last s = .ok ts :=
  ⟨Scans.lexFrom_eq, scans_of_lexFrom⟩

/-! ## A line end behind a word -/

section

variable {c : Char} {a text rest : List Char} {t : Token} (s : List Char)

theorem span_before_lineEnd {p : Char → Bool} (hp : p '\n' = false) :
    (a ++ '\n' :: s).takeWhile p = a.takeWhile p ∧
      (a ++ '\n' :: s).dropWhile p = a.dropWhile p ++ '\n' :: s := by
  induction a with
  | nil => simp [hp]
  | cons c a ih =>
    rw [List.cons_append, List.takeWhile_cons, List.dropWhile_cons, List.takeWhile_cons,
      List.dropWhile_cons]
    cases p c with
    | false => exact ⟨rfl, rfl⟩
    | true => exact ⟨congrArg (c :: ·) ih.1, ih.2⟩

theorem takeString_append {quote : Char} (h : takeString quote a = some (text, rest)) :
    takeString quote (a ++ s) = some (text, rest ++ s) := by
  fun_induction takeString quote a generalizing text with
  | case1 => cases h
  | case2 =>
    cases h
    cases s <;> simp [takeString]
  | case3 => cases h
  | case4 d a =>
    cases h
    simp [takeString]
  | case5 c d a hc e he ih =>
    simp only [Option.map_eq_some_iff, Prod.mk.injEq, Prod.exists] at h
    obtain ⟨text', rest', h, rfl, rfl⟩ := h
    simp only [List.cons_append, takeString, if_neg hc, he, ih h]
    rfl
  | case6 c d a hc he ih =>
    simp only [Option.map_eq_some_iff, Prod.mk.injEq, Prod.exists] at h
    obtain ⟨text', rest', h, rfl, rfl⟩ := h
    have ih := ih h
    rw [List.cons_append] at ih
    simp only [List.cons_append, takeString, if_neg hc, he, ih]
    rfl

theorem takeNumber_append :
    takeNumber (a ++ '\n' :: s) = ((takeNumber a).1, (takeNumber a).2 ++ '\n' :: s) := by
  obtain ⟨htake, hdrop⟩ := span_before_lineEnd (a := a) s (p := isNumberChar) (by decide)
  simp only [takeNumber, htake, hdrop]

theorem lexNumber_integer_append {digits : List Char}
    (h : lexNumber.integer digits a = .ok (t, rest)) :
    lexNumber.integer digits (a ++ s) = .ok (t, rest ++ s) := by
  unfold lexNumber.integer at h ⊢
  split at h
  · cases h; rfl
  · cases h

theorem lexNumber_append (h : lexNumber c a = .ok (t, rest)) :
    lexNumber c (a ++ '\n' :: s) = .ok (t, rest ++ '\n' :: s) := by
  have hnumber := takeNumber_append (a := c :: a) s
  rw [List.cons_append] at hnumber
  unfold lexNumber at h ⊢
  rw [hnumber]
  generalize takeNumber (c :: a) = whole at h ⊢
  obtain ⟨whole, left⟩ := whole
  dsimp only at h ⊢
  split at h
  · next d tail =>
    rw [List.cons_append, List.cons_append]
    show (if d.isDigit = true then _ else _) = _
    split at h
    · next hd =>
      cases h
      have hfraction := takeNumber_append (a := d :: tail) s
      rw [List.cons_append] at hfraction
      rw [if_pos hd, hfraction]
    · next hd =>
      rw [if_neg hd]
      exact lexNumber_integer_append _ h
  · next hpoint =>
    split
    · next d tail hleft =>
      have hd : d = '\n' := by
        rcases left with _ | ⟨x, _ | ⟨y, left⟩⟩
        · cases hleft
        · cases hleft; rfl
        · cases hleft; exact (hpoint _ _ rfl).elim
      rw [if_neg (by rw [hd]; decide)]
      exact lexNumber_integer_append _ h
    · exact lexNumber_integer_append _ h

theorem takeNameEnd_before_lineEnd :
    takeNameEnd (a ++ '\n' :: s) = ((takeNameEnd a).1, (takeNameEnd a).2 ++ '\n' :: s) := by
  cases a with
  | nil => rfl
  | cons c a =>
    have hhead : ((a ++ '\n' :: s).head? != some '=') = (a.head? != some '=') := by
      cases a <;> rfl
    rw [List.cons_append, takeNameEnd, takeNameEnd, hhead]
    split <;> rfl

theorem takeSymbolEnd_before_lineEnd :
    takeSymbolEnd (a ++ '\n' :: s) = ((takeSymbolEnd a).1, (takeSymbolEnd a).2 ++ '\n' :: s) := by
  cases a with
  | nil => rfl
  | cons c a =>
    rw [List.cons_append, takeSymbolEnd, takeSymbolEnd]
    split <;> rfl

theorem lexName_append (c : Char) (a : List Char) :
    lexName c (a ++ '\n' :: s) = ((lexName c a).1, (lexName c a).2 ++ '\n' :: s) := by
  obtain ⟨htake, hdrop⟩ := span_before_lineEnd (a := a) s (p := isNameInner) (by decide)
  simp only [lexName, htake, hdrop, takeNameEnd_before_lineEnd]
  generalize takeNameEnd (a.dropWhile isNameInner) = ending
  obtain ⟨last, left⟩ := ending
  -- a label takes one colon, and the line end is none
  rcases left with _ | ⟨x, _ | ⟨y, left⟩⟩
  · rfl
  · simp only [List.cons_append, List.nil_append]
    by_cases hx : x = ':'
    · subst hx; rfl
    · simp [hx]
  · simp only [List.cons_append]
    by_cases hx : x = ':'
    · subst hx
      by_cases hy : y = ':'
      · subst hy; rfl
      · simp [hy]
    · simp [hx]

theorem lexSymbol_append (a : List Char) :
    lexSymbol (a ++ '\n' :: s) = ((lexSymbol a).1, (lexSymbol a).2 ++ '\n' :: s) := by
  obtain ⟨htake, hdrop⟩ := span_before_lineEnd (a := a) s (p := isNameInner) (by decide)
  simp only [lexSymbol, htake, hdrop, takeSymbolEnd_before_lineEnd]

theorem lexMark_single_append (h : lexMark.single c a = .ok (t, rest)) :
    lexMark.single c (a ++ s) = .ok (t, rest ++ s) := by
  unfold lexMark.single at h ⊢
  split at h
  · cases h; rfl
  · cases h

theorem mark2?_lineEnd (c : Char) : mark2? c '\n' = none := by
  unfold mark2?
  split <;> first | rfl | (next h => cases h)

theorem lexMark_append (h : lexMark c a = .ok (t, rest)) :
    lexMark c (a ++ '\n' :: s) = .ok (t, rest ++ '\n' :: s) := by
  cases a with
  | nil =>
    rw [lexMark] at h
    rw [List.nil_append, lexMark, mark2?_lineEnd]
    exact lexMark_single_append _ h
  | cons d a =>
    rw [lexMark] at h
    rw [List.cons_append, lexMark]
    split at h
    · cases h; rfl
    · exact lexMark_single_append _ h

theorem lexColon_append (h : lexColon a = .ok (t, rest)) :
    lexColon (a ++ '\n' :: s) = .ok (t, rest ++ '\n' :: s) := by
  unfold lexColon at h
  split at h
  · cases h; rfl
  · next d tail hcolon =>
    rw [List.cons_append, lexColon.eq_def]
    simp only
    split at h
    · next hname =>
      rw [if_pos hname, ← List.cons_append, lexSymbol_append, Except.ok.inj h]
    · next hname =>
      rw [if_neg hname]
      split at h
      · next hquote =>
        rw [if_pos hquote]
        split at h
        · next hstring =>
          cases h
          rw [takeString_append _ hstring]
        · cases h
      · cases h
  · cases h

/-- A line end behind a word does not change it. -/
theorem lexOne_append (h : lexOne c a = .ok (t, rest)) :
    lexOne c (a ++ '\n' :: s) = .ok (t, rest ++ '\n' :: s) := by
  unfold lexOne at h ⊢
  split at h
  · next hc =>
    rw [if_pos hc]
    split at h
    · next hstring =>
      cases h
      rw [takeString_append _ hstring]
    · cases h
  · next hc =>
    rw [if_neg hc]
    split at h
    · next hd =>
      rw [if_pos hd]
      cases hn : lexNumber c a with
      | error fault => rw [hn] at h; cases h
      | ok p =>
        rw [hn] at h
        cases h
        rw [lexNumber_append _ hn]
        rfl
    · next hd =>
      rw [if_neg hd]
      split at h
      · next hn =>
        rw [if_pos hn, lexName_append, Except.ok.inj h]
      · next hn =>
        rw [if_neg hn]
        split at h
        · next hu =>
          obtain ⟨htake, hdrop⟩ := span_before_lineEnd (a := a) s (p := isNameInner) (by decide)
          rw [if_pos hu, htake, hdrop]
          cases h
          rfl
        · next hu =>
          rw [if_neg hu]
          split at h
          · next hcolon =>
            rw [if_pos hcolon]
            exact lexColon_append _ h
          · next hcolon =>
            rw [if_neg hcolon]
            cases hm : lexMark c a with
            | error fault => rw [hm] at h; cases h
            | ok p =>
              rw [hm] at h
              cases h
              rw [lexMark_append _ hm]
              rfl

end

/-! ## The tokens of a longer text -/

/-- The last of the tokens, or the one before them. -/
def lastToken (last : Option Token) (ts : List Placed) : Option Token :=
  (ts.getLast?.map Placed.token).or last

theorem lastToken_cons (last : Option Token) (p : Placed) (ts : List Placed) :
    lastToken last (p :: ts) = lastToken (some p.token) ts := by
  cases ts with
  | nil => rfl
  | cons q ts =>
    simp only [lastToken, List.getLast?_cons]
    rfl

section

variable {o d : Nat} {b : Bool} {last : Option Token} {a s : List Char} {ts : List Placed}

/-- A line end and more text leave the tokens of a text as they are. What follows is scanned from the
depth and behind the token at its end. -/
theorem Scans.append (h : Scans o d b last a ts) (s : List Char) :
    ∃ o' b', ∀ us, Scans o' (depthThrough d ts) b' (lastToken last ts) ('\n' :: s) us →
      Scans o d b last (a ++ '\n' :: s) (ts ++ us) := by
  induction h with
  | nil => exact ⟨_, _, fun us h => h⟩
  | blank hc _ ih =>
    obtain ⟨o', b', ih⟩ := ih
    exact ⟨o', b', fun us h => .blank hc (ih us h)⟩
  | @comment o d b last a ts _ ih =>
    obtain ⟨htake, hdrop⟩ := span_before_lineEnd (a := a) s (p := (· != '\n')) (by decide)
    obtain ⟨o', b', ih⟩ := ih
    refine ⟨o', b', fun us h => ?_⟩
    rw [List.cons_append]
    refine .comment ?_
    rw [htake, hdrop]
    exact ih us h
  | separator hc hd _ ih =>
    obtain ⟨o', b', ih⟩ := ih
    refine ⟨o', b', fun us h => .separator hc hd (ih us ?_)⟩
    rw [lastToken_cons] at h
    exact h
  | lineEnd hc hd _ ih =>
    obtain ⟨o', b', ih⟩ := ih
    exact ⟨o', b', fun us h => .lineEnd hc hd (ih us h)⟩
  | @word o d b last c a rest t ts hc h₁ _ ih =>
    obtain ⟨o', b', ih⟩ := ih
    refine ⟨o', b', fun us h => ?_⟩
    rw [lastToken_cons] at h
    rw [List.cons_append, List.cons_append]
    refine .word hc (lexOne_append s h₁) ?_
    -- the word takes as many characters as before
    have hlength := (lexOne_suffix h₁).length_le
    have htaken : (c :: (a ++ '\n' :: s)).take
        ((a ++ '\n' :: s).length + 1 - (rest ++ '\n' :: s).length) =
        (c :: a).take (a.length + 1 - rest.length) := by
      rw [← List.cons_append, List.take_append_of_le_length (by simp; omega)]
      congr 1
      simp only [List.length_append]
      omega
    rw [htaken]
    exact ih us h

theorem Scans.shift (h : Scans o d b last s ts) (k : Nat) :
    Scans (o + k) d b last s (ts.map (Placed.shift k)) := by
  induction h with
  | nil => exact .nil
  | blank hc _ ih => exact .blank hc (Nat.add_right_comm _ _ k ▸ ih)
  | comment _ ih =>
    refine .comment ?_
    rw [Nat.add_right_comm _ k, Nat.add_right_comm _ k]
    exact ih
  | separator hc hd _ ih => exact .separator hc hd (Nat.add_right_comm _ _ k ▸ ih)
  | lineEnd hc hd _ ih => exact .lineEnd hc hd (Nat.add_right_comm _ _ k ▸ ih)
  | word hc h₁ _ ih => exact .word hc h₁ (Nat.add_right_comm _ _ k ▸ ih)

/-- The tokens behind a blank. -/
def afterBlank (ts : List Placed) : List Placed := ts.modifyHead fun p => { p with spaced := true }

/-- A blank before the text, or another token that a line end would treat in the same way, changes
nothing but the first token's blank. -/
theorem Scans.restart (h : Scans o d b last s ts) {last' : Option Token}
    (hl : last'.any (!absorbsLineEnd ·) = last.any (!absorbsLineEnd ·)) :
    Scans o d true last' s (afterBlank ts) := by
  induction h with
  | nil => exact .nil
  | blank hc _ ih => exact .blank hc (ih hl)
  | comment _ ih => exact .comment (ih hl)
  | separator hc hd h _ => exact .separator hc (hl ▸ hd) h
  | lineEnd hc hd _ ih => exact .lineEnd hc (hl ▸ hd) (ih hl)
  | word hc h₁ h₂ _ => exact .word hc h₁ h₂

end

end DocWeave.Expr
