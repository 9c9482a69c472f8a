import DocWeave.Proofs.Expr.Places
import DocWeave.Proofs.Expr.Scanning
import Mathlib.Data.List.DropRight

/-!
# Programs behind one another

Two programs with a line end between them are one program that has the statements of both
(`parse_lines`). The first of the two leaves nothing open that could reach into the second: its
brackets are closed, and its last token is one behind which a line end counts. So the line end
becomes a separator, unless one stands there already, and what follows it is read as if it stood
alone, at another place and behind a blank. An expression is a program of one statement.
-/

namespace DocWeave

namespace Expr

/-! ## The tokens of a program -/

section

variable {ts behind : List Placed} {A B : Program}

theorem DerivesProgram.settled (h : DerivesProgram ts A) : Settled ts := by
  induction h with
  | nil h => exact .of_skipSeparators (h ▸ settled_nil)
  | cons h₁ _ _ ih => exact (h₁.settled ih).of_skipSeparators

theorem DerivesProgram.depthThrough_eq (h : DerivesProgram ts A) (d : Nat) :
    depthThrough d ts = d := by
  induction h with
  | nil h => rw [← depthThrough_skipSeparators, h]; rfl
  | cons h₁ _ _ ih =>
    rw [← depthThrough_skipSeparators]
    exact (h₁.depthThrough_eq d).trans ih

theorem eq_nil_of_derivesProgram_nil (h : DerivesProgram [] A) : A = [] := by
  cases h with
  | nil _ => rfl
  | cons h₁ _ _ => exact absurd rfl (h₁.ne_nil rfl)

theorem skipSeparators_eq_nil_iff : skipSeparators ts = [] ↔ ∀ p ∈ ts, p.isSeparator = true :=
  List.dropWhile_eq_nil_iff

theorem endsStatement_of_skipSeparators (h : skipSeparators ts = []) : endsStatement ts = true := by
  cases ts with
  | nil => rfl
  | cons p ts => exact skipSeparators_eq_nil_iff.mp h p List.mem_cons_self

theorem skipSeparators_append (h : skipSeparators ts = []) :
    skipSeparators (ts ++ behind) = skipSeparators behind := by
  unfold skipSeparators at h ⊢
  rw [List.dropWhile_append, h]
  rfl

/-- A separator ends a program, and another one may follow. -/
theorem DerivesProgram.moved (h : DerivesProgram ts A) (hb : endsStatement behind = true)
    (hB : DerivesProgram behind B) (k : Nat) : DerivesProgram (moved k behind ts) (A ++ B) := by
  induction h with
  | nil h =>
    refine hB.congr (skipSeparators_append ?_)
    rw [skipSeparators_eq_nil_iff] at h ⊢
    intro p hp
    obtain ⟨q, hq, rfl⟩ := List.mem_map.mp hp
    exact h q hq
  | @cons s ts rest A h₁ he h₂ ih =>
    refine .cons ?_ ?_ ih
    · rw [skipSeparators_moved k (h₁.ne_nil rfl)]
      exact h₁.moved h₂.settled hb k
    · cases rest with
      | nil => exact hb
      | cons p rest => exact he

theorem DerivesProgram.append (h : DerivesProgram ts A) (hb : endsStatement behind = true)
    (hB : DerivesProgram behind B) : DerivesProgram (ts ++ behind) (A ++ B) := by
  have hmoved := h.moved hb hB 0
  rw [Expr.moved, show Placed.shift 0 = id from rfl, List.map_id] at hmoved
  exact hmoved

theorem DerivesProgram.shift (h : DerivesProgram ts A) (k : Nat) :
    DerivesProgram (ts.map (Placed.shift k)) A := by
  have hmoved : DerivesProgram (Expr.moved k [] ts) (A ++ []) := h.moved rfl (.nil rfl) k
  rwa [Expr.moved, List.append_nil, List.append_nil] at hmoved

theorem DerivesProgram.afterBlank (h : DerivesProgram ts A) : DerivesProgram (afterBlank ts) A := by
  cases ts with
  | nil => exact h
  | cons p ts =>
    obtain ⟨t, b, o⟩ := p
    by_cases hp : Placed.isSeparator ⟨t, b, o⟩ = true
    · obtain rfl : t = .mark .separator := congrArg Placed.token (Placed.eq_of_isSeparator hp)
      exact h.congr rfl
    · have hfirst : ∀ b', skipSeparators (⟨t, b', o⟩ :: ts) = ⟨t, b', o⟩ :: ts :=
        fun b' => List.dropWhile_cons_of_neg hp
      cases h with
      | nil h => rw [hfirst] at h; cases h
      | cons h₁ he h₂ =>
        refine .cons ?_ he h₂
        rw [hfirst] at h₁
        show Derives _ (skipSeparators (⟨t, true, o⟩ :: ts)) _
        rw [hfirst]
        exact h₁.spaced_stmt

end

/-! ## Separators at the end -/

theorem rdropWhile_append {α : Type} (p : α → Bool) (xs ys : List α) :
    (xs ++ ys).rdropWhile p =
      if (ys.rdropWhile p).isEmpty then xs.rdropWhile p else xs ++ ys.rdropWhile p := by
  simp only [List.rdropWhile, List.reverse_append, List.dropWhile_append, List.isEmpty_reverse]
  split <;> simp

section

variable {ts us front : List Placed} {A B : Program}

theorem skipSeparators_rtakeWhile (ts : List Placed) :
    skipSeparators (ts.rtakeWhile Placed.isSeparator) = [] :=
  skipSeparators_eq_nil_iff.mpr fun _ hp => List.mem_rtakeWhile_imp hp

theorem DerivesProgram.of_rdropWhile (h : DerivesProgram (ts.rdropWhile Placed.isSeparator) A) :
    DerivesProgram ts A := by
  have hseparators := skipSeparators_rtakeWhile ts
  have happend := h.append (endsStatement_of_skipSeparators hseparators) (.nil hseparators)
  rwa [List.rdropWhile_append_rtakeWhile, List.append_nil] at happend

/-- The second program stands behind a separator, or behind nothing. -/
theorem DerivesProgram.join (hA : DerivesProgram (front.rdropWhile Placed.isSeparator) A)
    (hB : DerivesProgram us B) (hf : front = [] ∨ front.rtakeWhile Placed.isSeparator ≠ []) :
    DerivesProgram (front ++ us) (A ++ B) := by
  rcases hf with rfl | hf
  · rw [eq_nil_of_derivesProgram_nil hA]
    exact hB
  · have hseparators := skipSeparators_rtakeWhile front
    have hends : endsStatement (front.rtakeWhile Placed.isSeparator ++ us) = true := by
      obtain ⟨p, tail, hp⟩ := List.exists_cons_of_ne_nil hf
      rw [hp] at hseparators ⊢
      exact skipSeparators_eq_nil_iff.mp hseparators p List.mem_cons_self
    have happend := hA.append hends (hB.congr (skipSeparators_append hseparators))
    rwa [← List.append_assoc, List.rdropWhile_append_rtakeWhile] at happend

theorem DerivesProgram.rdropWhile_append
    (hA : DerivesProgram (front.rdropWhile Placed.isSeparator) A)
    (hB : DerivesProgram (us.rdropWhile Placed.isSeparator) B)
    (hf : front = [] ∨ front.rtakeWhile Placed.isSeparator ≠ []) :
    DerivesProgram ((front ++ us).rdropWhile Placed.isSeparator) (A ++ B) := by
  rw [Expr.rdropWhile_append]
  split
  · next hempty =>
    rw [List.isEmpty_iff.mp hempty] at hB
    rw [eq_nil_of_derivesProgram_nil hB, List.append_nil]
    exact hA
  · exact hA.join hB hf

theorem rdropWhile_afterBlank (us : List Placed) :
    (afterBlank us).rdropWhile Placed.isSeparator =
      afterBlank (us.rdropWhile Placed.isSeparator) := by
  cases us with
  | nil => rfl
  | cons p us =>
    show ([_] ++ us).rdropWhile _ = Expr.afterBlank (([p] ++ us).rdropWhile _)
    rw [rdropWhile_append, rdropWhile_append, List.rdropWhile_singleton, List.rdropWhile_singleton]
    show (if _ then (if p.isSeparator = true then _ else _) else _) = _
    split
    · split <;> rfl
    · rfl

theorem rdropWhile_shift (k : Nat) (us : List Placed) :
    (us.map (Placed.shift k)).rdropWhile Placed.isSeparator =
      (us.rdropWhile Placed.isSeparator).map (Placed.shift k) := by
  rw [List.rdropWhile, List.rdropWhile, ← List.map_reverse, List.dropWhile_map, List.map_reverse]
  rfl

end

/-! ## The line end between two programs -/

theorem isSeparator_of_absorbsLineEnd {p : Placed} (h : absorbsLineEnd p.token = true)
    (hp : endsPhrase p.token = true) : p.isSeparator = true := by
  obtain ⟨t, b, o⟩ := p
  cases t with
  | mark m => cases m <;> first | rfl | (cases hp; done) | cases h
  | _ => cases h

/-- The line end between two texts becomes a separator, unless one stands there or the first text has
no tokens at all. -/
theorem exists_scans_lines {a b : List Char} {ts us : List Placed} {A : Program}
    (ha : Scans 0 0 false none a ts) (hA : DerivesProgram ts A)
    (hb : Scans 0 0 false none b us) :
    ∃ gap k, Scans 0 0 false none (a ++ '\n' :: b)
        (ts ++ gap ++ (afterBlank us).map (Placed.shift k)) ∧
      (∀ p ∈ gap, p.isSeparator = true) ∧
      (ts ++ gap = [] ∨ (ts ++ gap).rtakeWhile Placed.isSeparator ≠ []) := by
  obtain ⟨o, spaced, happend⟩ := ha.append b
  rw [hA.depthThrough_eq] at happend
  have hstart : ∀ {last : Option Token}, last.any (!absorbsLineEnd ·) = false →
      Scans (o + 1) 0 true last b ((afterBlank us).map (Placed.shift (o + 1))) := by
    intro last hl
    have h := (hb.restart hl).shift (o + 1)
    rwa [Nat.zero_add] at h
  by_cases hl : (lastToken none ts).any (!absorbsLineEnd ·) = true
  · refine ⟨[⟨.mark .separator, spaced, o⟩], o + 1, ?_, ?_, ?_⟩
    · rw [List.append_assoc]
      exact happend _ (.separator (.inl rfl) ⟨rfl, hl⟩ (hstart rfl))
    · intro p hp
      rw [List.mem_singleton.mp hp]
      rfl
    · right
      rw [List.rtakeWhile_concat_pos _ _ _ rfl]
      simp
  · refine ⟨[], o + 1, ?_, by simp, ?_⟩
    · rw [List.append_nil]
      exact happend _ (.lineEnd (.inl rfl) (by simp [hl]) (hstart (by simpa using hl)))
    · rw [List.append_nil]
      rcases List.eq_nil_or_concat ts with rfl | ⟨init, p, rfl⟩
      · exact .inl rfl
      · right
        have habsorbs : absorbsLineEnd p.token = true := by simpa [lastToken] using hl
        have hends : endsPhrase p.token = true := hA.settled p (by simp)
        rw [List.concat_eq_append,
          List.rtakeWhile_concat_pos _ _ _ (isSeparator_of_absorbsLineEnd habsorbs hends)]
        simp

theorem lex_eq_ok_iff {s : String} {ts : List Placed} : lex s = .ok ts ↔
    ∃ all, Scans 0 0 false none s.toList all ∧ ts = all.rdropWhile Placed.isSeparator := by
  simp only [scans_iff, lex]
  cases lexFrom 0 0 false none s.toList with
  | error e => simp [Except.map]
  | ok all => simp [Except.map, List.rdropWhile, eq_comm]

theorem parseProgram_eq_ok_iff {s : String} {A : Program} : Program.parse s = .ok A ↔
    ∃ ts, lex s = .ok ts ∧ DerivesProgram ts A := by
  unfold Program.parse
  cases lex s with
  | error e => simp [bind, Except.bind]
  | ok ts => simp [bind, Except.bind, parseStmts_eq_ok_iff]

/-! ## Expressions -/

theorem endsOperators_closing {m : Mark} {b : Bool} {o : Nat} {tail : List Placed}
    (h : m ∈ [Mark.parenClose, .bracketClose, .braceClose, .comma, .arrow]) (n : Nat) :
    endsOperators n (⟨.mark m, b, o⟩ :: tail) = true := by
  rw [endsOperators, operatorAt?_closing n h]
  rfl

/-- Where no operator of any level follows, an operand with its signs is a whole expression. -/
theorem Derives.of_signed {n : Nat} {e : Expr} {ts rest : List Placed}
    (h : Derives (.signed e) ts rest) (hr : ∀ m, endsOperators m rest = true) :
    Derives (.level n e) ts rest := by
  by_cases hn : n < levels
  · exact .level hn (h.of_signed hr) (.operatorsEnd (hr n))
  · exact .tightest (Nat.not_lt.mp hn) h
termination_by levels - n

theorem parseWhole_eq_ok_iff {ts : List Placed} {e : Expr} : parseWhole ts = .ok e ↔
    ∃ rest, Derives (.level 0 e) (skipSeparators ts) rest ∧ skipSeparators rest = [] := by
  unfold parseWhole
  constructor
  · intro h
    obtain ⟨e', rest, _, h₁, h⟩ := yields_of_bind h
    dsimp only at h
    split at h
    · next hrest => cases h; exact ⟨rest, derives_iff_reads.mpr h₁, hrest⟩
    · cases h
  · rintro ⟨rest, h, hrest⟩
    obtain ⟨_, h⟩ := h.reads
    simp only [h, bind, Except.bind, hrest]
    rfl

theorem assignFollows_of_level {us rest : List Placed} {e : Expr} (h : Derives (.level 0 e) us rest)
    (hrest : skipSeparators rest = []) : assignFollows us = false := by
  unfold assignFollows
  split
  · refine headIs_eq_false ?_
    rintro b o tail rfl
    rw [h.rest_of_assign] at hrest
    cases hrest
  · rfl

/-- An expression is a program of one statement. -/
theorem parseWhole_iff_derivesProgram {ts : List Placed} {e : Expr} :
    parseWhole ts = .ok e ↔ DerivesProgram ts [.expr e] := by
  rw [parseWhole_eq_ok_iff]
  constructor
  · rintro ⟨rest, h, hrest⟩
    exact .cons (.expr (assignFollows_of_level h hrest) h) (endsStatement_of_skipSeparators hrest)
      (.nil hrest)
  · intro h
    cases h with
    | @cons _ _ rest _ h₁ _ h₂ =>
      cases h₁ with
      | expr _ h =>
        cases h₂ with
        | nil hrest => exact ⟨rest, h, hrest⟩

theorem parse_eq_ok_iff {s : String} {e : Expr} : Expr.parse s = .ok e ↔
    ∃ ts, lex s = .ok ts ∧ DerivesProgram ts [.expr e] := by
  unfold Expr.parse
  cases lex s with
  | error e => simp [bind, Except.bind]
  | ok ts => simp [bind, Except.bind, parseWhole_iff_derivesProgram]

end Expr

namespace Program

theorem parse_append {a b : String} {A B : Program} (ha : Program.parse a = .ok A)
    (hb : Program.parse b = .ok B) : Program.parse (a ++ "\n" ++ b) = .ok (A ++ B) := by
  obtain ⟨_, ha, hA⟩ := Expr.parseProgram_eq_ok_iff.mp ha
  obtain ⟨_, hb, hB⟩ := Expr.parseProgram_eq_ok_iff.mp hb
  obtain ⟨ts, hts, rfl⟩ := Expr.lex_eq_ok_iff.mp ha
  obtain ⟨us, hus, rfl⟩ := Expr.lex_eq_ok_iff.mp hb
  obtain ⟨gap, k, hscan, hgap, hfront⟩ := Expr.exists_scans_lines hts hA.of_rdropWhile hus
  have htext : (a ++ "\n" ++ b).toList = a.toList ++ '\n' :: b.toList := by simp
  rw [← htext] at hscan
  refine Expr.parseProgram_eq_ok_iff.mpr ⟨_, Expr.lex_eq_ok_iff.mpr ⟨_, hscan, rfl⟩, ?_⟩
  refine Expr.DerivesProgram.rdropWhile_append ?_ ?_ hfront
  · rw [Expr.rdropWhile_append, List.rdropWhile_eq_nil_iff.mpr hgap]
    exact hA
  · rw [Expr.rdropWhile_shift, Expr.rdropWhile_afterBlank]
    exact hB.afterBlank.shift k

/-- Programs compose by concatenation: two texts with a line end between them have the statements of
both. An expression is read exactly where a program of this one statement is read. -/
theorem parse_lines :
    (∀ (a b : String) (A B : Program), Program.parse a = .ok A → Program.parse b = .ok B →
      Program.parse (a ++ "\n" ++ b) = .ok (A ++ B)) ∧
    ∀ (s : String) (e : Expr), Expr.parse s = .ok e ↔ Program.parse s = .ok [.expr e] := by
  refine ⟨fun a b A B ha hb => parse_append ha hb, fun s e => ?_⟩
  rw [Expr.parse_eq_ok_iff, Expr.parseProgram_eq_ok_iff]

/-- A list over two lines with a comment behind it, and a call whose argument is a sign that touches
its operand. -/
theorem parse_lines_call :
    Program.parse ("x = [1,\n2] # two" ++ "\n" ++ "f -x") =
      .ok [.assign "x" (.array [.lit (.int 1), .lit (.int 2)]),
        .expr (.call "f" [.positional (.neg (.var "x"))])] ∧
    Expr.parse "f -x" = .ok (.call "f" [.positional (.neg (.var "x"))]) := by
  have hlist : Program.parse "x = [1,\n2] # two" =
      .ok [.assign "x" (.array [.lit (.int 1), .lit (.int 2)])] := by
    have hlex : Expr.lex "x = [1,\n2] # two" = .ok [⟨.ident "x", false, 0⟩, ⟨.mark .assign, true, 2⟩,
        ⟨.mark .bracketOpen, true, 4⟩, ⟨.int 1, false, 5⟩, ⟨.mark .comma, false, 6⟩,
        ⟨.int 2, true, 8⟩, ⟨.mark .bracketClose, false, 9⟩] :=
      Expr.lex_eq_ok_iff.mpr ⟨_, .word rfl rfl (.blank (.inl rfl) (.word rfl rfl (.blank (.inl rfl)
        (.word rfl rfl (.word rfl rfl (.word rfl rfl (.lineEnd (.inl rfl) (by decide)
        (.word rfl rfl (.word rfl rfl (.blank (.inl rfl) (.comment .nil))))))))))), rfl⟩
    refine Expr.parseProgram_eq_ok_iff.mpr
      ⟨_, hlex, .cons (.assign ?_) rfl (@Expr.DerivesProgram.nil [] rfl)⟩
    have hitem : ∀ {i b o tail}, (∀ n, Expr.endsOperators n tail = true) →
        Expr.endsPostfix tail = true →
        Expr.Derives (.level 0 (.lit (.int i))) (⟨.int i, b, o⟩ :: tail) tail :=
      fun hr hp => .of_signed (.operand (.literal rfl) (.suffixesEnd hp)) hr
    exact .of_signed (.operand (.array
      (.item rfl (hitem (Expr.endsOperators_closing (by simp)) rfl)
        (.lastItem rfl (hitem (Expr.endsOperators_closing (by simp)) rfl))))
      (.suffixesEnd rfl)) fun _ => rfl
  have hcall : Program.parse "f -x" =
      .ok [.expr (.call "f" [.positional (.neg (.var "x"))])] := by
    have hlex : Expr.lex "f -x" = .ok [⟨.ident "f", false, 0⟩, ⟨.mark .minus, true, 2⟩,
        ⟨.ident "x", false, 3⟩] :=
      Expr.lex_eq_ok_iff.mpr
        ⟨_, .word rfl rfl (.blank (.inl rfl) (.word rfl rfl (.word rfl rfl .nil))), rfl⟩
    refine Expr.parseProgram_eq_ok_iff.mpr
      ⟨_, hlex, .cons (.expr rfl ?_) rfl (@Expr.DerivesProgram.nil [] rfl)⟩
    refine .of_signed (.operand (.command (by decide) rfl rfl (.lastCommandArg ?_ rfl))
      (.suffixesEnd rfl)) fun _ => rfl
    refine .positional rfl rfl (.of_signed (.neg (.operand ?_ (.suffixesEnd rfl))) fun _ => rfl)
    exact .var (by decide) rfl rfl
  exact ⟨parse_lines.1 _ _ _ _ hlist hcall, (parse_lines.2 _ _).mpr hcall⟩

end Program

end DocWeave
