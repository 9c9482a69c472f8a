import DocWeave.Proofs.Expr.Grammar
import DocWeave.Proofs.Expr.Cursor
import Mathlib.Data.List.DropRight

/-!
# The cursor and the remaining tokens

The descent with a cursor does what the descent over the remaining tokens does: it gives the same
answers, and makes the same complaints about the same tokens (`Traces`). In particular every run of it
that may go deep enough ends, since the other descent does: the proofs follow its recursion, over fewer
and fewer remaining tokens (`TracedBelow`).
-/

namespace DocWeave.Expr

/-- The cursor is at `pos`, and the tokens from there on are `us`. -/
structure At (ts : List Placed) (pos : Nat) (us : List Placed) : Prop where
  le : pos ≤ ts.length
  drop : ts.drop pos = us

/-- What came of a run of the cursor is what came of a routine over the remaining tokens: the same
answer, with the cursor at what follows, or the same complaint, about the token under the cursor. The
cursor is not before `low`. -/
def Traces (ts : List Placed) (low : Nat) {α : Type} {bound : Nat}
    (result : Option (Except Stop α × Nat)) : Outcome α bound → Prop
  | .ok p => ∃ pos, result = some (.ok p.value, pos) ∧ At ts pos p.rest ∧ low ≤ pos
  | .error e => ∃ fault pos, result = some (.error (.complaint fault.message ts[pos]?), pos) ∧
      e = .grammar fault ts[pos]? ∧ low ≤ pos ∧ pos ≤ ts.length

section

variable {ts us tail : List Placed} {pos low : Nat} {α β : Type} {b₁ b₂ : Nat}

/-! ## Moving the cursor -/

theorem At.start (ts : List Placed) : At ts 0 ts := ⟨Nat.zero_le _, rfl⟩

theorem At.head? (h : At ts pos us) : ts[pos]? = us.head? := by
  rw [← h.drop, List.head?_drop]

theorem At.length (h : At ts pos us) : pos + us.length = ts.length := by
  have := h.le
  rw [← h.drop, List.length_drop]
  omega

theorem At.next {t : Placed} (h : At ts pos (t :: tail)) : At ts (pos + 1) tail := by
  have hlength := h.length
  rw [List.length_cons] at hlength
  refine ⟨by omega, ?_⟩
  rw [← List.tail_drop, h.drop, List.tail_cons]

theorem bind_answered {run : Cursor α} {next : α → Cursor β} {a : α} {pos' : Nat}
    (h : run pos = some (.ok a, pos')) : (run >>= next) pos = next a pos' := by
  show (run pos).bind _ = _
  rw [h]
  rfl

theorem bind_stopped {run : Cursor α} {next : α → Cursor β} {stop : Stop} {pos' : Nat}
    (h : run pos = some (.error stop, pos')) :
    (run >>= next) pos = some (.error stop, pos') := by
  show (run pos).bind _ = _
  rw [h]
  rfl

theorem At.here_bind (h : At ts pos us) (k : Option Placed → Cursor β) :
    (Cursor.here ts >>= k) pos = k us.head? pos := by
  rw [← h.head?]
  rfl

theorem At.ahead_bind (h : At ts pos us) (k : List Placed → Cursor β) :
    (Cursor.ahead ts >>= k) pos = k us pos := by
  rw [← h.drop]
  rfl

theorem step_bind (k : Unit → Cursor β) : (Cursor.step >>= k) pos = k () (pos + 1) := rfl

theorem At.advance_bind (h : At ts pos us) (k : Option Token → Cursor β) :
    (Cursor.advance ts >>= k) pos = k (us.head?.map Placed.token) (pos + 1) := by
  rw [← h.head?]
  rfl

/-- The mark under the cursor is passed over. -/
theorem At.eat_mark {m : Mark} {b : Bool} {o : Nat} (h : At ts pos (⟨.mark m, b, o⟩ :: tail))
    (yes no : Cursor β) :
    (Cursor.eat ts m >>= fun eaten => if eaten = true then yes else no) pos = yes (pos + 1) := by
  have heat : Cursor.eat ts m pos = some (.ok true, pos + 1) := by
    rw [Cursor.eat, h.here_bind, List.head?_cons]
    simp only [if_pos]
    rfl
  rw [bind_answered heat, if_pos rfl]

/-- Another token is left under the cursor. -/
theorem At.eat_other {m : Mark} (h : At ts pos us) (hm : headIs m us = false)
    (yes no : Cursor β) :
    (Cursor.eat ts m >>= fun eaten => if eaten = true then yes else no) pos = no pos := by
  have heat : Cursor.eat ts m pos = some (.ok false, pos) := by
    rw [Cursor.eat, h.here_bind]
    rcases us with _ | ⟨⟨t, b, o⟩, tail⟩
    · rfl
    · cases t with
      | mark m' =>
        have hne : m ≠ m' := by simpa [headIs] using hm
        simp only [List.head?_cons, if_neg hne]
        rfl
      | _ => rfl
  rw [bind_answered heat, if_neg Bool.false_ne_true]

theorem eq_cons_of_headIs {m : Mark} (h : headIs m us = true) :
    ∃ b o tail, us = ⟨.mark m, b, o⟩ :: tail := by
  rcases us with _ | ⟨⟨t, b, o⟩, tail⟩
  · cases h
  · cases t with
    | mark m' =>
      obtain rfl : m = m' := of_decide_eq_true h
      exact ⟨b, o, tail, rfl⟩
    | _ => cases h

theorem labelName?_eq_none (h : ∀ name b o tail, us = ⟨.label name, b, o⟩ :: tail → False) :
    labelName? us = none := by
  unfold labelName?
  split
  · exact (h _ _ _ _ rfl).elim
  · rfl

theorem Routine.run_succ (ts : List Placed) (d : Nat) (r : Routine α) :
    r.run ts (d + 1) = r.body ts (Routine.run ts d) := rfl

/-- The cursor moves over the separators. -/
theorem At.skip {d : Nat} (h : At ts pos us) (hd : us.length < d) :
    ∃ pos', At ts pos' (skipSeparators us) ∧ pos ≤ pos' ∧
      Routine.skip.run ts d pos = some (.ok (), pos') := by
  induction d generalizing us pos with
  | zero => exact absurd hd (Nat.not_lt_zero _)
  | succ d ih =>
    rw [Routine.run_succ, Routine.body, Cursor.skip]
    by_cases hsep : headIs .separator us = false
    · rw [skipSeparators_of_headIs hsep]
      exact ⟨pos, h, Nat.le_refl _, h.eat_other hsep ..⟩
    · obtain ⟨b, o, tail, rfl⟩ := eq_cons_of_headIs (Bool.of_not_eq_false hsep)
      obtain ⟨pos', hat, hle, hrun⟩ := ih h.next (Nat.lt_of_succ_lt_succ hd)
      rw [h.eat_mark]
      exact ⟨pos', hat, Nat.le_of_succ_le hle, hrun⟩

theorem At.skip_bind {d : Nat} (h : At ts pos us) (hd : us.length < d) :
    ∃ pos', At ts pos' (skipSeparators us) ∧ pos ≤ pos' ∧ ∀ {β : Type} (k : Unit → Cursor β),
      (Routine.skip.run ts d >>= k) pos = k () pos' := by
  obtain ⟨pos', hat, hle, hrun⟩ := h.skip hd
  exact ⟨pos', hat, hle, fun k => bind_answered hrun⟩

theorem At.demand_mark {m : Mark} {b : Bool} {o : Nat} (h : At ts pos (⟨.mark m, b, o⟩ :: tail))
    (message : String) (k : Unit → Cursor β) :
    (Cursor.demand ts m message >>= k) pos = k () (pos + 1) := by
  have hdemand : Cursor.demand ts m message pos = some (.ok (), pos + 1) := by
    rw [Cursor.demand, h.eat_mark]
    rfl
  exact bind_answered hdemand

theorem eq_cons_of_parenFollows (h : parenFollows us = true) :
    ∃ o tail, us = ⟨.mark .parenOpen, false, o⟩ :: tail := by
  unfold parenFollows at h
  split at h
  · exact ⟨_, _, rfl⟩
  · cases h

/-! ## Runs one behind another -/

theorem Traces.bind {run : Cursor α} {next : α → Cursor β} {o : Outcome α b₁}
    {f : Parsed α b₁ → Outcome β b₂} (h : Traces ts low (run pos) o)
    (hnext : ∀ p pos', At ts pos' p.rest → low ≤ pos' →
      Traces ts low (next p.value pos') (f p)) :
    Traces ts low ((run >>= next) pos) (o >>= f) := by
  cases o with
  | ok p =>
    obtain ⟨pos', hrun, hat, hle⟩ := h
    rw [bind_answered hrun]
    exact hnext p pos' hat hle
  | error e =>
    obtain ⟨fault, pos', hrun, he, hle⟩ := h
    exact ⟨fault, pos', bind_stopped hrun, he, hle⟩

/-- The cursor makes its answer of what the routine makes its own of. -/
theorem Traces.map {run : Cursor α} {o : Outcome α b₁} {f : Parsed α b₁ → Outcome β b₂}
    (h : Traces ts low (run pos) o) {g : α → β}
    (hf : ∀ p, ∃ hlt, f p = .ok ⟨g p.value, p.rest, hlt⟩) :
    Traces ts low ((run >>= fun a => Pure.pure (g a)) pos) (o >>= f) := by
  refine h.bind fun p pos' hat hle => ?_
  obtain ⟨hlt, heq⟩ := hf p
  rw [heq]
  exact ⟨pos', rfl, hat, hle⟩

/-- Nothing is left to do for the cursor when the routine passes on what it has read. -/
theorem Traces.passOn {result : Option (Except Stop α × Nat)} {o : Outcome α b₁}
    {f : Parsed α b₁ → Outcome α b₂} (h : Traces ts low result o)
    (hf : ∀ p, ∃ hlt, f p = .ok ⟨p.value, p.rest, hlt⟩) : Traces ts low result (o >>= f) := by
  cases o with
  | ok p =>
    obtain ⟨hlt, heq⟩ := hf p
    show Traces ts low result (f p)
    rw [heq]
    exact h
  | error e => exact h

theorem Traces.pure {a : α} {h : us.length < b₁} (hat : At ts pos us) (hle : low ≤ pos) :
    Traces ts low ((Pure.pure a : Cursor α) pos) (.ok ⟨a, us, h⟩) :=
  ⟨pos, rfl, hat, hle⟩

theorem Traces.refuse {fault : GrammarFault} (hat : At ts pos us) (hle : low ≤ pos) :
    Traces ts low ((Cursor.refuse ts fault.message : Cursor α) pos)
      (complain fault us : Outcome α b₁) :=
  ⟨fault, pos, rfl, by rw [hat.head?], hle, hat.le⟩

theorem Traces.demand {m : Mark} {fault : GrammarFault} (hat : At ts pos us) (hle : low ≤ pos) :
    Traces ts low (Cursor.demand ts m fault.message pos) (expect m fault us) := by
  rw [Cursor.demand]
  by_cases hm : headIs m us = false
  · rw [hat.eat_other hm]
    have hexpect : expect m fault us = complain fault us := by
      unfold expect
      split
      · next m' b o tail =>
        have hne : m ≠ m' := by simpa [headIs] using hm
        rw [if_neg hne]
      · rfl
    rw [hexpect]
    exact .refuse hat hle
  · obtain ⟨b, o, tail, rfl⟩ := eq_cons_of_headIs (Bool.of_not_eq_false hm)
    rw [hat.eat_mark]
    simp only [expect, if_pos]
    exact .pure hat.next (by omega)

end

/-! ## The routines -/

theorem traces_path {ts us : List Placed} {pos low d : Nat} (start : String) (hat : At ts pos us)
    (hle : low ≤ pos) (hd : us.length < d) :
    Traces ts low ((Routine.path start).run ts d pos) (parsePath start us) := by
  induction d generalizing start us pos with
  | zero => exact absurd hd (Nat.not_lt_zero _)
  | succ d ih =>
    rw [Routine.run_succ, Routine.body, Cursor.path]
    by_cases hscope : ∃ b o tail, us = ⟨.mark .scope, b, o⟩ :: tail
    · obtain ⟨b, o, tail, rfl⟩ := hscope
      rw [hat.eat_mark, hat.next.advance_bind]
      -- the step back undoes the step over whatever was no constant, also at the end of the tokens
      have hrefused : Traces ts low
          ((Cursor.refuse ts GrammarFault.constantExpected.message : Cursor String) (pos + 1))
          (complain .constantExpected tail : Outcome String (tail.length + 1 + 1)) :=
        .refuse hat.next (Nat.le_succ_of_le hle)
      rcases tail with _ | ⟨⟨t, b', o'⟩, tail⟩
      · exact hrefused
      · cases t with
        | const name =>
          rw [List.length_cons, List.length_cons] at hd
          refine (ih (start ++ "::" ++ name) hat.next.next ?_ ?_).passOn fun p => ⟨_, rfl⟩
          all_goals omega
        | _ => exact hrefused
    · have hend : headIs .scope us = false :=
        headIs_eq_false fun b o tail hus => hscope ⟨b, o, tail, hus⟩
      obtain ⟨hlt, hstop⟩ := parsePath_yields_stop start hend
      rw [hat.eat_other hend, hstop]
      exact .pure hat hle

/-- The routines over fewer than `k` remaining tokens are traced by the runs of depth `d`. -/
structure TracedBelow (ts : List Placed) (d k : Nat) : Prop where
  level : ∀ {us pos low} n, us.length < k → At ts pos us → low ≤ pos →
    Traces ts low ((Routine.level n).run ts d pos) (parseLevel n us)
  operators : ∀ {us pos low} n lhs, us.length < k → At ts pos us → low ≤ pos →
    Traces ts low ((Routine.operators n lhs).run ts d pos) (parseOperators n lhs us)
  unary : ∀ {us pos low}, us.length < k → At ts pos us → low ≤ pos →
    Traces ts low (Routine.unary.run ts d pos) (parseSigned us)
  suffixes : ∀ {us pos low} e, us.length < k → At ts pos us → low ≤ pos →
    Traces ts low ((Routine.suffixes e).run ts d pos) (parsePostfix e us)
  callArgs : ∀ {us pos low}, us.length < k → At ts pos us → low ≤ pos →
    Traces ts low (Routine.callArgs.run ts d pos) (parseCallArgs us)
  parenArgs : ∀ {us b o tail pos low}, us = ⟨.mark .parenOpen, b, o⟩ :: tail →
    us.length < k → At ts pos us → low ≤ pos →
    Traces ts low (Routine.parenArgs.run ts d pos) (parseParenArgs (skipSeparators tail))
  items : ∀ {us pos low}, us.length < k → At ts pos us → low ≤ pos →
    Traces ts low (Routine.items.run ts d pos) (parseItems us)
  hashLiteral : ∀ {us pos low}, us.length < k → At ts pos us → low ≤ pos →
    Traces ts low (Routine.hashLiteral.run ts d pos) (parseEntries us)
  argsInParens : ∀ {us pos low}, us.length < k → At ts pos us → low ≤ pos →
    Traces ts low (Routine.argsInParens.run ts d pos) (parseParenArgs us)
  commandArgs : ∀ {us pos low}, us.length < k → At ts pos us → low ≤ pos →
    Traces ts low (Routine.commandArgs.run ts d pos) (parseCommandArgs us)

/-- Every run that may go sixteen calls deeper for every token is traced below the tokens: on its way
from one token to the next the descent passes each routine once at most, and each level. -/
def TracedShorter (ts us : List Placed) : Prop :=
  ∀ {d}, 16 * us.length ≤ d → TracedBelow ts d us.length

/-- A run that may go deeper than that makes its calls one level below. -/
theorem TracedShorter.exists_below {ts us : List Placed} {d : Nat} (h : TracedShorter ts us)
    (hd : 16 * us.length < d) : ∃ d', d = d' + 1 ∧ TracedBelow ts d' us.length := by
  obtain ⟨d', rfl⟩ := Nat.exists_eq_add_one_of_ne_zero (Nat.ne_zero_of_lt hd)
  exact ⟨d', rfl, h (Nat.le_of_lt_succ hd)⟩

section

variable {ts us : List Placed} {pos low d : Nat} (ih : TracedShorter ts us)
  (hat : At ts pos us) (hle : low ≤ pos)
include ih hat hle

theorem traces_operators (n : Nat) (lhs : Expr) (hd : 16 * us.length < d) :
    Traces ts low ((Routine.operators n lhs).run ts d pos) (parseOperators n lhs us) := by
  obtain ⟨d, rfl, below⟩ := ih.exists_below (d := d) (by omega)
  rw [Routine.run_succ, Routine.body, Cursor.operators, parseOperators.eq_def, hat.here_bind]
  split
  · next m b o tail =>
    simp only [List.head?_cons]
    cases operatorAt? n m with
    | some op =>
      simp only [step_bind]
      refine (below.level (n + 1) (Nat.lt_succ_self _) hat.next (by omega)).bind ?_
      rintro ⟨rhs, mid, hmid⟩ pos' hat' hle'
      refine (below.operators n _ (Nat.lt_succ_of_lt hmid) hat' hle').passOn ?_
      exact fun p => ⟨_, rfl⟩
    | none => exact .pure hat hle
  · next hmark =>
    rcases us with _ | ⟨⟨t, b, o⟩, tail⟩
    · exact .pure hat hle
    · cases t with
      | mark m => exact (hmark m b o tail rfl).elim
      | _ => exact .pure hat hle

theorem traces_parenArgs {b : Bool} {o : Nat} {tail : List Placed}
    (hus : us = ⟨.mark .parenOpen, b, o⟩ :: tail) (hd : 16 * us.length < d) :
    Traces ts low (Routine.parenArgs.run ts d pos) (parseParenArgs (skipSeparators tail)) := by
  obtain ⟨d, rfl, below⟩ := ih.exists_below (d := d) (by omega)
  subst hus
  rw [List.length_cons] at hd
  obtain ⟨pos', hskip, hle', hrun⟩ := hat.next.skip_bind (d := d) (by omega)
  rw [Routine.run_succ, Routine.body, Cursor.parenArgs, hat.demand_mark, hrun]
  exact below.argsInParens (Nat.lt_succ_of_le (skipSeparators_length tail)) hskip (by omega)

theorem traces_callArgs (hd : 16 * us.length + 1 < d) :
    Traces ts low (Routine.callArgs.run ts d pos) (parseCallArgs us) := by
  obtain ⟨d, rfl⟩ := Nat.exists_eq_add_one_of_ne_zero (Nat.ne_zero_of_lt hd)
  rw [Routine.run_succ, Routine.body, Cursor.callArgs, hat.ahead_bind]
  by_cases hparen : parenFollows us = true
  · obtain ⟨o, tail, rfl⟩ := eq_cons_of_parenFollows hparen
    rw [if_pos hparen, parseCallArgs]
    exact (traces_parenArgs ih hat hle rfl (by omega)).passOn fun p => ⟨_, rfl⟩
  · rw [if_neg hparen, parseCallArgs.eq_def]
    split
    · exact absurd rfl hparen
    · exact .pure hat hle

omit ih hat hle in
/-- A method behind its name, with its arguments and with what follows them. -/
theorem TracedBelow.method {k bound : Nat} (below : TracedBelow ts d k) (hlt : us.length < k)
    (hat : At ts pos us) (hle : low ≤ pos) {e : Expr} {name : String}
    {f : Parsed (List Arg) (us.length + 1) → Outcome Expr bound}
    (hf : ∀ p, ∃ g : Parsed Expr (p.rest.length + 1) → Outcome Expr bound,
      f p = (parsePostfix (methodOf e name p.value) p.rest >>= g) ∧
        ∀ q, ∃ hlt, g q = .ok ⟨q.value, q.rest, hlt⟩) :
    Traces ts low
      ((Routine.callArgs.run ts d >>= fun args =>
        (Routine.suffixes (methodOf e name args)).run ts d) pos)
      (parseCallArgs us >>= f) := by
  refine (below.callArgs hlt hat hle).bind fun p pos' hat' hle' => ?_
  obtain ⟨g, hg, hpass⟩ := hf p
  rw [hg]
  have hmid : p.rest.length < k := Nat.lt_of_lt_of_le p.shorter hlt
  exact (below.suffixes _ hmid hat' hle').passOn hpass

theorem traces_suffixes (e : Expr) (hd : 16 * us.length < d) :
    Traces ts low ((Routine.suffixes e).run ts d pos) (parsePostfix e us) := by
  obtain ⟨d, rfl, below⟩ := ih.exists_below (d := d) (by omega)
  rw [Routine.run_succ, Routine.body, Cursor.suffixes, parsePostfix.eq_def, hat.here_bind]
  split
  · simp only [List.head?_cons, step_bind]
    rw [hat.next.advance_bind]
    refine below.method (Nat.lt_succ_of_lt (Nat.lt_succ_self _)) hat.next.next (by omega) ?_
    exact fun p => ⟨_, rfl, fun q => ⟨_, rfl⟩⟩
  · simp only [List.head?_cons, step_bind]
    rw [hat.next.advance_bind]
    refine below.method (Nat.lt_succ_of_lt (Nat.lt_succ_self _)) hat.next.next (by omega) ?_
    exact fun p => ⟨_, rfl, fun q => ⟨_, rfl⟩⟩
  · next b o tail hident hconst =>
    simp only [List.head?_cons, step_bind]
    rw [hat.next.advance_bind]
    have hrefused : Traces ts low
        ((Cursor.refuse ts GrammarFault.methodNameExpected.message : Cursor Expr) (pos + 1))
        (complain .methodNameExpected tail : Outcome Expr (tail.length + 1 + 1)) :=
      .refuse hat.next (Nat.le_succ_of_le hle)
    rcases tail with _ | ⟨⟨t, b', o'⟩, tail⟩
    · exact hrefused
    · cases t with
      | ident name => exact (hident name b' o' tail rfl).elim
      | const name => exact (hconst name b' o' tail rfl).elim
      | _ => exact hrefused
  · next o tail =>
    simp only [List.head?_cons, step_bind]
    refine (below.level 0 (Nat.lt_succ_self _) hat.next (by omega)).bind ?_
    rintro ⟨place, mid, hmid⟩ pos₁ hat₁ hle₁
    refine (Traces.demand hat₁ hle₁).bind ?_
    rintro ⟨_, mid', hmid'⟩ pos₂ hat₂ hle₂
    refine (below.suffixes _ ?_ hat₂ hle₂).passOn fun p => ⟨_, rfl⟩
    exact Nat.lt_succ_of_lt (Nat.lt_trans hmid' hmid)
  · next hident hconst hdot hbracket =>
    rcases us with _ | ⟨⟨t, b, o⟩, tail⟩
    · exact .pure hat hle
    · cases t with
      | mark m =>
        cases m with
        | dot => exact (hdot b o tail rfl).elim
        | bracketOpen =>
          cases b with
          | false => exact (hbracket o tail rfl).elim
          | true => exact .pure hat hle
        | _ => exact .pure hat hle
      | _ => exact .pure hat hle

theorem traces_primary (hd : 16 * us.length < d) :
    Traces ts low (Routine.primary.run ts d pos) (parsePrimary us) := by
  obtain ⟨d, rfl, below⟩ := ih.exists_below (d := d) (by omega)
  rw [Routine.run_succ, Routine.body, Cursor.primary, parsePrimary.eq_def, hat.advance_bind]
  have hrefused : Traces ts low
      ((Cursor.refuse ts GrammarFault.expressionExpected.message : Cursor Expr) pos)
      (complain .expressionExpected us : Outcome Expr us.length) := .refuse hat hle
  rcases us with _ | ⟨⟨t, b, o⟩, tail⟩
  · exact hrefused
  · have htail : tail.length < (⟨t, b, o⟩ :: tail : List Placed).length := Nat.lt_succ_self _
    cases t with
    | str s => exact .pure hat.next (by omega)
    | int i => exact .pure hat.next (by omega)
    | float x => exact .pure hat.next (by omega)
    | symbol s => exact .pure hat.next (by omega)
    | label s => exact hrefused
    | const name =>
      exact (traces_path name hat.next (by omega) (by omega)).map fun p => ⟨_, rfl⟩
    | mark m =>
      cases m with
      | parenOpen =>
        have hshort := skipSeparators_length tail
        obtain ⟨pos₁, hat₁, hle₁, hskip₁⟩ := hat.next.skip_bind (d := d) (by omega)
        simp only [List.head?_cons, Option.map_some]
        rw [hskip₁]
        refine (below.level 0 (by omega) hat₁ (by omega)).bind ?_
        rintro ⟨e, mid, hmid⟩ pos₂ hat₂ hle₂
        obtain ⟨pos₃, hat₃, hle₃, hskip₃⟩ := hat₂.skip_bind (d := d) (by dsimp only; omega)
        simp only
        rw [hskip₃]
        exact (Traces.demand hat₃ (by omega)).map fun p => ⟨_, rfl⟩
      | bracketOpen =>
        exact (below.items htail hat.next (by omega)).map fun p => ⟨_, rfl⟩
      | braceOpen =>
        exact (below.hashLiteral htail hat.next (by omega)).map fun p => ⟨_, rfl⟩
      | _ => exact hrefused
    | ident name =>
      simp only [List.head?_cons, Option.map_some]
      split
      · exact .pure hat.next (by omega)
      split
      · exact .pure hat.next (by omega)
      split
      · exact .pure hat.next (by omega)
      split
      · exact .refuse hat hle
      split
      · next hparen =>
        obtain ⟨o', tail, rfl⟩ := eq_cons_of_parenFollows hparen
        rw [hat.next.ahead_bind, if_pos hparen, parseCallArgs]
        have hargs := below.parenArgs rfl htail hat.next (Nat.le_succ_of_le hle)
        exact Traces.map (hargs.passOn fun p => ⟨_, rfl⟩) fun p => ⟨_, rfl⟩
      · next hparen =>
        rw [hat.next.ahead_bind, if_neg hparen, hat.next.ahead_bind]
        split
        · exact (below.commandArgs htail hat.next (by omega)).map fun p => ⟨_, rfl⟩
        · exact .pure hat.next (by omega)

/-- An operand without signs is all that the routine for signed operands reads. -/
theorem traces_operand (hd : 16 * us.length + 1 < d) : ∃ o : Outcome Expr us.length,
    Traces ts low (Routine.operand.run ts d pos) o ∧
      (headIs .minus us = false → headIs .bang us = false → parseSigned us = o) := by
  obtain ⟨d, rfl, below⟩ := ih.exists_below (d := d) (by omega)
  rw [Routine.run_succ, Routine.body, Cursor.operand]
  refine ⟨parsePrimary us >>= fun p => parsePostfix p.value p.rest >>= fun q =>
    .ok ⟨q.value, q.rest, Nat.lt_of_lt_of_le q.shorter p.shorter⟩, ?_, ?_⟩
  · refine (traces_primary ih hat hle (by omega)).bind ?_
    rintro ⟨e, mid, hmid⟩ pos' hat' hle'
    exact (below.suffixes e hmid hat' hle').passOn fun p => ⟨_, rfl⟩
  · intro hminus hbang
    rw [parseSigned.eq_def]
    split
    · cases hminus
    · cases hbang
    · rfl

theorem traces_unary (hd : 16 * us.length + 2 < d) :
    Traces ts low (Routine.unary.run ts d pos) (parseSigned us) := by
  obtain ⟨d, rfl, below⟩ := ih.exists_below (d := d) (by omega)
  obtain ⟨o, hoperand, hsigned⟩ := traces_operand (d := d) ih hat hle (by omega)
  rw [Routine.run_succ, Routine.body, Cursor.unary]
  by_cases hminus : headIs .minus us = false
  · by_cases hbang : headIs .bang us = false
    · rw [hat.eat_other hminus, hat.eat_other hbang, hsigned hminus hbang]
      exact hoperand
    · obtain ⟨b, o, tail, rfl⟩ := eq_cons_of_headIs (Bool.of_not_eq_false hbang)
      rw [hat.eat_other rfl, hat.eat_mark, parseSigned]
      exact (below.unary (Nat.lt_succ_self _) hat.next (by omega)).map fun p => ⟨_, rfl⟩
  · obtain ⟨b, o, tail, rfl⟩ := eq_cons_of_headIs (Bool.of_not_eq_false hminus)
    rw [hat.eat_mark, parseSigned]
    exact (below.unary (Nat.lt_succ_self _) hat.next (by omega)).map fun p => ⟨_, rfl⟩

theorem traces_level (n : Nat) (hd : 16 * us.length + 3 + (levels - n) < d) :
    Traces ts low ((Routine.level n).run ts d pos) (parseLevel n us) := by
  induction d generalizing n with
  | zero => exact absurd hd (Nat.not_lt_zero _)
  | succ d hdeeper =>
    have below : TracedBelow ts d us.length := ih (by omega)
    rw [Routine.run_succ, Routine.body, Cursor.level, parseLevel]
    split
    · next hn =>
      refine (hdeeper (n + 1) (by omega)).bind ?_
      rintro ⟨lhs, mid, hmid⟩ pos' hat' hle'
      exact (below.operators n lhs hmid hat' hle').passOn fun p => ⟨_, rfl⟩
    · exact traces_unary ih hat hle (by omega)

/-- The loosest level is met first, and the others below it. -/
theorem traces_expr (hd : 16 * us.length + 9 < d) :
    Traces ts low ((Routine.level 0).run ts d pos) (parseLevel 0 us) :=
  traces_level ih hat hle 0 hd

theorem traces_items (hd : 16 * us.length + 10 < d) :
    Traces ts low (Routine.items.run ts d pos) (parseItems us) := by
  obtain ⟨d, rfl, below⟩ := ih.exists_below (d := d) (by omega)
  rw [Routine.run_succ, Routine.body, Cursor.items, parseItems.eq_def]
  split
  · rw [hat.eat_mark]
    exact .pure hat.next (by omega)
  · next hclose =>
    rw [hat.eat_other (headIs_eq_false hclose)]
    refine (traces_expr ih hat hle (by omega)).bind ?_
    rintro ⟨e, mid, hmid⟩ pos₁ hat₁ hle₁
    dsimp only
    split
    · next b o tail hlt =>
      rw [hat₁.eat_mark]
      refine (below.items ?_ hat₁.next (by omega)).bind ?_
      · exact Nat.lt_of_succ_lt hlt
      · exact fun p pos₂ hat₂ hle₂ => .pure hat₂ hle₂
    · next hcomma =>
      rw [hat₁.eat_other (headIs_eq_false ?_)]
      · exact (Traces.demand hat₁ hle₁).map fun p => ⟨_, rfl⟩
      · rintro b o tail rfl
        exact hcomma b o tail hmid rfl HEq.rfl

theorem traces_entry (hd : 16 * us.length + 10 < d) :
    Traces ts low (Routine.entry.run ts d pos) (parseEntry us) := by
  obtain ⟨d, rfl, below⟩ := ih.exists_below (d := d) (by omega)
  rw [Routine.run_succ, Routine.body, Cursor.entry, parseEntry.eq_def]
  split
  · rw [hat.ahead_bind]
    simp only [labelName?, step_bind]
    exact (below.level 0 (Nat.lt_succ_self _) hat.next (by omega)).map fun p => ⟨_, rfl⟩
  · next hlabel =>
    rw [hat.ahead_bind, labelName?_eq_none hlabel]
    refine (traces_expr ih hat hle (by omega)).bind ?_
    rintro ⟨key, mid, hmid⟩ pos₁ hat₁ hle₁
    refine (Traces.demand hat₁ hle₁).bind ?_
    rintro ⟨_, mid', hmid'⟩ pos₂ hat₂ hle₂
    exact (below.level 0 (Nat.lt_trans hmid' hmid) hat₂ hle₂).map fun p => ⟨_, rfl⟩

theorem traces_hashLiteral (hd : 16 * us.length + 11 < d) :
    Traces ts low (Routine.hashLiteral.run ts d pos) (parseEntries us) := by
  obtain ⟨d, rfl, below⟩ := ih.exists_below (d := d) (by omega)
  rw [Routine.run_succ, Routine.body, Cursor.hashLiteral, parseEntries.eq_def]
  split
  · rw [hat.eat_mark]
    exact .pure hat.next (by omega)
  · next hclose =>
    rw [hat.eat_other (headIs_eq_false hclose)]
    refine (traces_entry ih hat hle (by omega)).bind ?_
    rintro ⟨e, mid, hmid⟩ pos₁ hat₁ hle₁
    dsimp only
    split
    · next b o tail hlt =>
      rw [hat₁.eat_mark]
      exact (below.hashLiteral (Nat.lt_of_succ_lt hlt) hat₁.next (by omega)).map fun p => ⟨_, rfl⟩
    · next hcomma =>
      rw [hat₁.eat_other (headIs_eq_false ?_)]
      · exact (Traces.demand hat₁ hle₁).map fun p => ⟨_, rfl⟩
      · rintro b o tail rfl
        exact hcomma b o tail hmid rfl HEq.rfl

theorem traces_arg (hd : 16 * us.length + 10 < d) :
    Traces ts low (Routine.arg.run ts d pos) (parseArg us) := by
  obtain ⟨d, rfl, below⟩ := ih.exists_below (d := d) (by omega)
  rw [Routine.run_succ, Routine.body, Cursor.arg, parseArg.eq_def]
  split
  · rw [hat.ahead_bind]
    simp only [labelName?, step_bind]
    exact (below.level 0 (Nat.lt_succ_self _) hat.next (by omega)).map fun p => ⟨_, rfl⟩
  · rw [hat.ahead_bind]
    simp only [labelName?]
    rw [hat.eat_mark]
    exact (below.level 0 (Nat.lt_succ_self _) hat.next (by omega)).map fun p => ⟨_, rfl⟩
  · next hlabel hstar =>
    rw [hat.ahead_bind, labelName?_eq_none hlabel]
    simp only
    rw [hat.eat_other (headIs_eq_false hstar)]
    exact (traces_expr ih hat hle (by omega)).map fun p => ⟨_, rfl⟩

theorem traces_commandArgs (hd : 16 * us.length + 11 < d) :
    Traces ts low (Routine.commandArgs.run ts d pos) (parseCommandArgs us) := by
  obtain ⟨d, rfl, below⟩ := ih.exists_below (d := d) (by omega)
  rw [Routine.run_succ, Routine.body, Cursor.commandArgs, parseCommandArgs]
  refine (traces_arg ih hat hle (by omega)).bind ?_
  rintro ⟨a, mid, hmid⟩ pos₁ hat₁ hle₁
  dsimp only
  split
  · next b o tail hlt =>
    rw [hat₁.eat_mark]
    exact (below.commandArgs (Nat.lt_of_succ_lt hlt) hat₁.next (by omega)).map fun p => ⟨_, rfl⟩
  · next hcomma =>
    rw [hat₁.eat_other (headIs_eq_false ?_)]
    · exact .pure hat₁ hle₁
    · rintro b o tail rfl
      exact hcomma b o tail hmid rfl HEq.rfl

theorem traces_argsInParens (hd : 16 * us.length + 11 < d) :
    Traces ts low (Routine.argsInParens.run ts d pos) (parseParenArgs us) := by
  obtain ⟨d, rfl, below⟩ := ih.exists_below (d := d) (by omega)
  rw [Routine.run_succ, Routine.body, Cursor.argsInParens, parseParenArgs.eq_def]
  split
  · rw [hat.eat_mark]
    exact .pure hat.next (by omega)
  · next hclose =>
    rw [hat.eat_other (headIs_eq_false hclose)]
    refine (traces_arg ih hat hle (by omega)).bind ?_
    rintro ⟨a, mid, hmid⟩ pos₁ hat₁ hle₁
    have hdeep : mid.length < d := by omega
    obtain ⟨pos₂, hat₂, hle₂, hskip₂⟩ := hat₁.skip_bind hdeep
    have hshort := skipSeparators_length mid
    dsimp only
    rw [hskip₂]
    split
    · next b o tail hcomma =>
      rw [hcomma] at hat₂ hshort
      rw [List.length_cons] at hshort
      obtain ⟨pos₃, hat₃, hle₃, hskip₃⟩ := hat₂.next.skip_bind (d := d) (by omega)
      have hshort' := skipSeparators_length tail
      rw [hat₂.eat_mark, hskip₃]
      exact (below.argsInParens (by omega) hat₃ (by omega)).map fun p => ⟨_, rfl⟩
    · next hcomma =>
      have hother : headIs .comma (skipSeparators mid) = false :=
        headIs_eq_false fun b o tail h => hcomma b o tail h
      obtain ⟨pos₃, hat₃, hle₃, hskip₃⟩ := hat₂.skip_bind (Nat.lt_of_le_of_lt hshort hdeep)
      rw [hat₂.eat_other hother, hskip₃]
      have hidem : skipSeparators (skipSeparators mid) = skipSeparators mid :=
        List.dropWhile_idempotent _ mid
      rw [hidem] at hat₃
      exact (Traces.demand hat₃ (by omega)).map fun p => ⟨_, rfl⟩

theorem traces_stmt (hd : 16 * us.length + 10 < d) :
    Traces ts low (Routine.stmt.run ts d pos) (parseStmt us) := by
  obtain ⟨d, rfl, below⟩ := ih.exists_below (d := d) (by omega)
  rw [Routine.run_succ, Routine.body, Cursor.stmt, parseStmt.eq_def, hat.ahead_bind]
  split
  · simp only [assignedName?, step_bind]
    refine (below.level 0 ?_ hat.next.next ?_).map fun p => ⟨_, rfl⟩
    · exact Nat.lt_succ_of_lt (Nat.lt_succ_self _)
    · omega
  · next hassign =>
    have hnone : assignedName? us = none := by
      unfold assignedName?
      split
      · exact (hassign _ _ _ _ _ _ rfl).elim
      · rfl
    rw [hnone]
    exact (traces_expr ih hat hle (by omega)).map fun p => ⟨_, rfl⟩

end

/-- The cursor traces the descent, over however many tokens. -/
theorem tracedBelow (ts : List Placed) {d k : Nat} (hd : 16 * k ≤ d) : TracedBelow ts d k := by
  induction k using Nat.strong_induction_on generalizing d with
  | _ k ih =>
    have shorter {us : List Placed} (hlt : us.length < k) : TracedShorter ts us :=
      fun hd' => ih us.length hlt hd'
    have hlevels : levels = 6 := rfl
    exact {
      level := fun n hlt hat hle => traces_level (shorter hlt) hat hle n (by omega)
      operators := fun n lhs hlt hat hle => traces_operators (shorter hlt) hat hle n lhs (by omega)
      unary := fun hlt hat hle => traces_unary (shorter hlt) hat hle (by omega)
      suffixes := fun e hlt hat hle => traces_suffixes (shorter hlt) hat hle e (by omega)
      callArgs := fun hlt hat hle => traces_callArgs (shorter hlt) hat hle (by omega)
      parenArgs := fun hus hlt hat hle => traces_parenArgs (shorter hlt) hat hle hus (by omega)
      items := fun hlt hat hle => traces_items (shorter hlt) hat hle (by omega)
      hashLiteral := fun hlt hat hle => traces_hashLiteral (shorter hlt) hat hle (by omega)
      argsInParens := fun hlt hat hle => traces_argsInParens (shorter hlt) hat hle (by omega)
      commandArgs := fun hlt hat hle => traces_commandArgs (shorter hlt) hat hle (by omega) }

end DocWeave.Expr
