import DocWeave.Proofs.Expr.Tracing
import DocWeave.Proofs.Expr.Concatenation

/-!
# Where the cursor stands

The remaining tokens never grow while a routine runs, so its cursor is never behind the place at which
the routine was entered, and never beyond the end; an answer that must take a token leaves fewer
(`Routine.settles`). A step back always undoes a step forward, and a complaint is about the token under
the cursor. What the cursor makes of a text is what the descent over the remaining tokens makes of it,
down to the wording of a refusal, and it goes no deeper than a multiple of the text's length
(`cursor_settles`).
-/

namespace DocWeave.Expr

/-! ## Whole texts -/

/-- What came of a run that was to read all the tokens is the answer, with the cursor at the end, or the
complaint, about the token under the cursor. The cursor is not before `low`. -/
def Ends (ts : List Placed) (low : Nat) {α : Type} (result : Option (Except Stop α × Nat)) :
    Except SyntaxError α → Prop
  | .ok a => result = some (.ok a, ts.length)
  | .error e => ∃ fault pos, result = some (.error (.complaint fault.message ts[pos]?), pos) ∧
      e = .grammar fault ts[pos]? ∧ low ≤ pos ∧ pos ≤ ts.length

section

variable {ts us : List Placed} {pos low : Nat} {α β : Type} {b : Nat}

theorem tracedShorter (ts us : List Placed) : TracedShorter ts us := tracedBelow ts

theorem Traces.ends {run : Cursor α} {next : α → Cursor β} {o : Outcome α b}
    {f : Parsed α b → Except SyntaxError β} (h : Traces ts low (run pos) o)
    (hnext : ∀ p pos', At ts pos' p.rest → low ≤ pos' → Ends ts low (next p.value pos') (f p)) :
    Ends ts low ((run >>= next) pos) (o >>= f) := by
  cases o with
  | ok p =>
    obtain ⟨pos', hrun, hat, hle⟩ := h
    rw [bind_answered hrun]
    exact hnext p pos' hat hle
  | error e =>
    obtain ⟨fault, pos', hrun, he, hle⟩ := h
    exact ⟨fault, pos', bind_stopped hrun, he, hle⟩

theorem Ends.refuse {fault : GrammarFault} (hat : At ts pos us) (hle : low ≤ pos) :
    Ends ts low ((Cursor.refuse ts fault.message : Cursor α) pos) (complain fault us) :=
  ⟨fault, pos, rfl, by rw [hat.head?], hle, hat.le⟩

theorem Ends.pure {a : α} (hat : At ts pos []) :
    Ends ts low ((Pure.pure a : Cursor α) pos) (.ok a) := by
  have hend : pos = ts.length := hat.length
  rw [hend]
  rfl

theorem ends_whole (ts : List Placed) {d : Nat} (hd : 16 * ts.length + 9 < d) :
    Ends ts 0 (Cursor.whole ts (Routine.run ts d) 0) (parseWhole ts) := by
  rw [Cursor.whole, parseWhole]
  have hshort := skipSeparators_length ts
  obtain ⟨pos₁, hat₁, -, hskip₁⟩ := (At.start ts).skip_bind (d := d) (by omega)
  rw [hskip₁]
  refine (traces_expr (tracedShorter ts _) hat₁ (Nat.zero_le _) (by omega)).ends ?_
  rintro ⟨e, mid, hmid⟩ pos₂ hat₂ hle₂
  obtain ⟨pos₃, hat₃, -, hskip₃⟩ := hat₂.skip_bind (d := d) (by dsimp only; omega)
  dsimp only at hat₃ ⊢
  rw [hskip₃, hat₃.here_bind]
  cases hrest : skipSeparators mid with
  | nil =>
    rw [hrest] at hat₃
    exact .pure hat₃
  | cons t rest =>
    rw [hrest] at hat₃
    exact .refuse hat₃ (Nat.zero_le _)

theorem Ends.map {run : Cursor α} {o : Except SyntaxError α} (h : Ends ts low (run pos) o)
    (f : α → β) :
    Ends ts low ((run >>= fun a => Pure.pure (f a)) pos) (o >>= fun a => Pure.pure (f a)) := by
  cases o with
  | ok a =>
    have hrun : run pos = some (.ok a, ts.length) := h
    exact bind_answered hrun
  | error e =>
    obtain ⟨fault, pos', hrun, he, hle⟩ := h
    exact ⟨fault, pos', bind_stopped hrun, he, hle⟩

theorem ends_statements {d : Nat} (us : List Placed) (hat : At ts pos us) (hle : low ≤ pos)
    (hd : 16 * us.length + 12 < d) :
    Ends ts low (Routine.statements.run ts d pos) (parseStmts us) := by
  induction d generalizing us pos with
  | zero => exact absurd hd (Nat.not_lt_zero _)
  | succ d ih =>
    obtain ⟨pos₁, hat₁, hle₁, hskip₁⟩ := hat.skip_bind (d := d) (by omega)
    rw [Routine.run_succ, Routine.body, parseStmts]
    split
    · next hnil _ =>
      rw [Cursor.statements, hskip₁, hat₁.here_bind, hnil]
      rw [hnil] at hat₁
      exact .pure hat₁
    · next t tail hbound hcons _ =>
      rw [Cursor.statements, hskip₁, hat₁.here_bind, hcons, List.head?_cons, Option.isNone_some,
        if_neg Bool.false_ne_true]
      rw [hcons] at hat₁
      have hdeep : 16 * (t :: tail).length + 10 < d := by omega
      refine (traces_stmt (tracedShorter ts _) hat₁ (hle.trans hle₁) hdeep).ends ?_
      rintro ⟨s, mid, hmid⟩ pos₂ hat₂ hle₂
      rw [List.length_cons] at hbound hmid
      dsimp only at hat₂ ⊢
      rcases mid with _ | ⟨⟨t', b, o⟩, rest⟩
      · -- the text ends behind the statement
        have hrest := ih [] hat₂ hle₂ (by rw [List.length_nil]; omega)
        rw [parseStmts] at hrest
        rw [hat₂.here_bind]
        exact hrest.map (s :: ·)
      · rw [hat₂.here_bind, List.head?_cons, Option.isNone_some, if_neg Bool.false_ne_true]
        rw [List.length_cons] at hmid
        cases t' with
        | mark m =>
          cases m with
          | separator =>
            have hrest := ih rest hat₂.next (Nat.le_succ_of_le hle₂) (by omega)
            rw [hat₂.eat_mark]
            exact hrest.map (s :: ·)
          | _ =>
            rw [hat₂.eat_other rfl]
            exact .refuse hat₂ hle₂
        | _ =>
          rw [hat₂.eat_other rfl]
          exact .refuse hat₂ hle₂

theorem SyntaxError.message_grammar (fault : GrammarFault) (found : Option Placed) :
    (SyntaxError.grammar fault found).message = (Stop.complaint fault.message found).message := by
  cases found <;> rfl

/-- The cursor makes of a text what comes of its tokens. -/
theorem onText_eq {part : List Placed → Cursor α} {o : List Placed → Except SyntaxError α}
    {text : String} (h : ∀ ts, lex text = .ok ts → Ends ts 0 (part ts 0) (o ts)) :
    Cursor.onText part text = some ((lex text >>= o).mapError SyntaxError.message) := by
  unfold Cursor.onText
  cases hlex : lex text with
  | error e => rfl
  | ok ts =>
    show Option.map _ (part ts 0) = some ((o ts).mapError SyntaxError.message)
    have hends := h ts hlex
    cases ho : o ts with
    | ok a =>
      rw [ho] at hends
      have hrun : part ts 0 = some (.ok a, ts.length) := hends
      rw [hrun]
      rfl
    | error e =>
      rw [ho] at hends
      obtain ⟨fault, pos, hrun, he, -⟩ := hends
      rw [hrun, he]
      show some (Except.error _) = some (Except.error _)
      rw [SyntaxError.message_grammar]

/-- A complaint about a text is about one of its tokens, or about its end. -/
theorem Ends.found {result : Option (Except Stop α × Nat)} {e : SyntaxError}
    (h : Ends ts low result (.error e)) : ∃ fault, ∃ pos ≤ ts.length, e = .grammar fault ts[pos]? := by
  obtain ⟨fault, pos, -, he, -, hle⟩ := h
  exact ⟨fault, pos, hle, he⟩

end

theorem Scans.length_le {o d : Nat} {b : Bool} {last : Option Token} {s : List Char}
    {ts : List Placed} (h : Scans o d b last s ts) : ts.length ≤ s.length := by
  induction h with
  | nil => exact Nat.le_refl _
  | blank _ _ ih => exact Nat.le_succ_of_le ih
  | comment _ ih => exact (ih.trans (List.dropWhile_suffix _).length_le).trans (Nat.le_succ _)
  | separator _ _ _ ih => exact Nat.succ_le_succ ih
  | lineEnd _ _ _ ih => exact Nat.le_succ_of_le ih
  | word _ hword _ ih => exact Nat.succ_le_succ (ih.trans (lexOne_suffix hword).length_le)

/-- A text has no more tokens than characters. -/
theorem length_le_of_lex {text : String} {ts : List Placed} (h : lex text = .ok ts) :
    ts.length ≤ text.length := by
  obtain ⟨all, hscans, rfl⟩ := lex_eq_ok_iff.mp h
  have hprefix := (List.rdropWhile_prefix Placed.isSeparator (l := all)).length_le
  have hlength := hscans.length_le
  rw [String.length_toList] at hlength
  exact hprefix.trans hlength

/-! ## Every run ends among the tokens -/

/-- Whether an answer of the routine takes a token: not where it may answer with nothing or with what it
was given. -/
def Routine.takes {α : Type} : Routine α → Bool
  | .skip | .path _ | .operators _ _ | .suffixes _ | .callArgs | .statements => false
  | _ => true

/-- The run of the routine that is entered at `pos` has ended, with the cursor not before `pos` and among
the tokens or at their end: an answer has taken a token, if it has to, and a run that stops does so with
a complaint about what is under the cursor, and not for a step back from the first token. -/
def Routine.Settles (ts : List Placed) (depth : Nat) {α : Type} (r : Routine α) (pos : Nat) : Prop :=
  ∃ outcome pos', r.run ts depth pos = some (outcome, pos') ∧ pos ≤ pos' ∧ pos' ≤ ts.length ∧
    match outcome with
    | .ok _ => r.takes = true → pos < pos'
    | .error stop => ∃ message, stop = .complaint message ts[pos']?

section

variable {ts us : List Placed} {d pos : Nat} {α : Type}

theorem Traces.settles {b : Nat} {r : Routine α} {o : Outcome α b}
    (h : Traces ts pos (r.run ts d pos) o) (hat : At ts pos us)
    (hb : r.takes = true → b ≤ us.length) : r.Settles ts d pos := by
  cases o with
  | ok p =>
    obtain ⟨pos', hrun, hat', hle⟩ := h
    refine ⟨.ok p.value, pos', hrun, hle, hat'.le, fun htakes => ?_⟩
    have hlength := hat.length
    have hlength' := hat'.length
    have hshorter := p.shorter
    have hbound := hb htakes
    omega
  | error e =>
    obtain ⟨fault, pos', hrun, -, hle, hend⟩ := h
    exact ⟨_, pos', hrun, hle, hend, fault.message, rfl⟩

theorem Ends.settles {r : Routine α} {o : Except SyntaxError α}
    (h : Ends ts pos (r.run ts d pos) o) (hpos : pos ≤ ts.length) (hr : r.takes = false) :
    r.Settles ts d pos := by
  cases o with
  | ok a =>
    have hrun : r.run ts d pos = some (.ok a, ts.length) := h
    exact ⟨.ok a, ts.length, hrun, hpos, Nat.le_refl _, fun htakes => by rw [hr] at htakes; cases htakes⟩
  | error e =>
    obtain ⟨fault, pos', hrun, -, hle, hend⟩ := h
    exact ⟨_, pos', hrun, hle, hend, fault.message, rfl⟩

/-- Arguments in parentheses are refused where no parenthesis opens, and else take it and more. -/
theorem settles_parenArgs (hat : At ts pos us) (hd : 16 * us.length < d) :
    Routine.parenArgs.Settles ts d pos := by
  by_cases hparen : headIs .parenOpen us = false
  · have hdemand : Cursor.demand ts .parenOpen "expected `(`" pos =
        some (.error (.complaint "expected `(`" ts[pos]?), pos) := by
      rw [Cursor.demand, hat.eat_other hparen]
      rfl
    obtain ⟨d, rfl⟩ := Nat.exists_eq_add_one_of_ne_zero (Nat.ne_zero_of_lt hd)
    refine ⟨.error (.complaint "expected `(`" ts[pos]?), pos, ?_, Nat.le_refl _, hat.le, _, rfl⟩
    rw [Routine.run_succ, Routine.body, Cursor.parenArgs, bind_stopped hdemand]
  · obtain ⟨b, o, tail, rfl⟩ := eq_cons_of_headIs (Bool.of_not_eq_false hparen)
    have hshort := skipSeparators_length tail
    exact (traces_parenArgs (tracedShorter ts _) hat (Nat.le_refl _) rfl hd).settles hat
      fun _ => Nat.le_succ_of_le hshort

theorem Routine.settles (r : Routine α) (hpos : pos ≤ ts.length) (hd : 16 * (ts.length + 1) ≤ d) :
    r.Settles ts d pos := by
  have hat : At ts pos (ts.drop pos) := ⟨hpos, rfl⟩
  have ih : TracedShorter ts (ts.drop pos) := tracedShorter ts _
  have hle := Nat.le_refl pos
  have hbound := Nat.le_refl (ts.drop pos).length
  have hdeep : 16 * (ts.drop pos).length + 15 < d := by
    rw [List.length_drop]
    omega
  have hlevels : levels = 6 := rfl
  cases r with
  | skip =>
    obtain ⟨pos', hat', hle', hrun⟩ := hat.skip (d := d) (by omega)
    exact ⟨.ok (), pos', hrun, hle', hat'.le, fun htakes => by cases htakes⟩
  | path start => exact (traces_path start hat hle (by omega)).settles hat fun h => by cases h
  | level n => exact (traces_level ih hat hle n (by omega)).settles hat fun _ => hbound
  | operators n lhs =>
    exact (traces_operators ih hat hle n lhs (by omega)).settles hat fun h => by cases h
  | unary => exact (traces_unary ih hat hle (by omega)).settles hat fun _ => hbound
  | operand =>
    obtain ⟨o, htraces, -⟩ := traces_operand (d := d) ih hat hle (by omega)
    exact htraces.settles hat fun _ => hbound
  | suffixes e => exact (traces_suffixes ih hat hle e (by omega)).settles hat fun h => by cases h
  | callArgs => exact (traces_callArgs ih hat hle (by omega)).settles hat fun h => by cases h
  | primary => exact (traces_primary ih hat hle (by omega)).settles hat fun _ => hbound
  | items => exact (traces_items ih hat hle (by omega)).settles hat fun _ => hbound
  | hashLiteral => exact (traces_hashLiteral ih hat hle (by omega)).settles hat fun _ => hbound
  | entry => exact (traces_entry ih hat hle (by omega)).settles hat fun _ => hbound
  | parenArgs => exact settles_parenArgs hat (by omega)
  | argsInParens => exact (traces_argsInParens ih hat hle (by omega)).settles hat fun _ => hbound
  | commandArgs => exact (traces_commandArgs ih hat hle (by omega)).settles hat fun _ => hbound
  | arg => exact (traces_arg ih hat hle (by omega)).settles hat fun _ => hbound
  | stmt => exact (traces_stmt ih hat hle (by omega)).settles hat fun _ => hbound
  | statements => exact (ends_statements _ hat hle (by omega)).settles hpos rfl

end

/-- The cursor answers every text as the descent over the remaining tokens does, and goes no deeper than
sixteen calls for every character. On the tokens of a text every routine, wherever it is entered, ends
among them, not before its entry; an answer has taken a token, and a complaint is about a token of the
text or about its end. -/
theorem cursor_settles (text : String) : ∃ enough ≤ 16 * (text.length + 1), ∀ depth ≥ enough,
    Cursor.parseExpr depth text = some ((Expr.parse text).mapError SyntaxError.message) ∧
    Cursor.parseProgram depth text = some ((Program.parse text).mapError SyntaxError.message) ∧
    ∀ ts, lex text = .ok ts →
      (∀ {α : Type} (r : Routine α), ∀ pos ≤ ts.length, r.Settles ts depth pos) ∧
      ∀ e, Expr.parse text = .error e ∨ Program.parse text = .error e →
        ∃ fault, ∃ pos ≤ ts.length, e = .grammar fault ts[pos]? := by
  refine ⟨16 * (text.length + 1), Nat.le_refl _, fun depth hdepth => ?_⟩
  have henough {ts : List Placed} (hlex : lex text = .ok ts) : 16 * (ts.length + 1) ≤ depth := by
    have hlength := length_le_of_lex hlex
    omega
  have hwhole {ts : List Placed} (hlex : lex text = .ok ts) :
      Ends ts 0 (Cursor.whole ts (Routine.run ts depth) 0) (parseWhole ts) :=
    ends_whole ts (by have := henough hlex; omega)
  have hstatements {ts : List Placed} (hlex : lex text = .ok ts) :
      Ends ts 0 (Routine.statements.run ts depth 0) (parseStmts ts) :=
    ends_statements ts (.start ts) (Nat.le_refl _) (by have := henough hlex; omega)
  refine ⟨onText_eq fun ts => hwhole, onText_eq fun ts => hstatements, fun ts hlex => ⟨?_, ?_⟩⟩
  · exact fun r pos hpos => r.settles hpos (henough hlex)
  · rintro e (h | h)
    · have hparse : parseWhole ts = .error e := by
        rw [Expr.parse, hlex] at h
        exact h
      exact (hparse ▸ hwhole hlex).found
    · have hparse : parseStmts ts = .error e := by
        rw [Program.parse, hlex] at h
        exact h
      exact (hparse ▸ hstatements hlex).found

end DocWeave.Expr
