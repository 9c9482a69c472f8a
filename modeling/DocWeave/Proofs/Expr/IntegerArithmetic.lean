import DocWeave.Directive.Environment
import DocWeave.Proofs.Expr.RoundTrip
import Mathlib.Data.Int.ModEq

/-!
# Integer arithmetic

Sums, differences and products of integers are computed exactly or not at all. A change of sign is not
checked: the least integer is its own negative. So the result of an expression of integers is right up
to a multiple of `2 ^ 64`, and evaluation is exact, with a failure whenever some part of the expression
does not fit into 64 bits, unless it goes on with the negative of the least integer (`eval_exact_iff`).
-/

namespace DocWeave

/-- The environment passes on what an operation gives and reports its failure, as those of literals, of
the bodies of members and of templates do. -/
def Env.Reports {ε : Type} {m : Type → Type} [Monad m] (env : Env (ExceptT ε m))
    (report : EvalError → ε) : Prop :=
  ∀ o, env.settle o = ExceptT.mk (pure (o.mapError report))

theorem reports_literalsOnly : Outline.literalsOnly.Reports id := by
  intro o
  cases o <;> rfl

theorem reports_bodyEnv (registry : Registry) (s : Subject) (bindings : Bindings) :
    (Sandbox.bodyEnv registry s bindings).Reports Halt.failed := fun _ => rfl

theorem reports_env (catalogue : Catalogue) (ctx : Context) :
    (ctx.env catalogue).Reports Error.ofEval := fun _ => rfl

/-- The integer fits into 64 bits. -/
def FitsWord (n : Int) : Prop := -9223372036854775808 ≤ n ∧ n ≤ 9223372036854775807

instance (n : Int) : Decidable (FitsWord n) := inferInstanceAs (Decidable (_ ∧ _))

/-- The operator that stands for an arithmetic operation. -/
def Value.Arith.operator : Value.Arith → BinaryOp
  | .add => .add
  | .sub => .sub
  | .mul => .mul

/-- An expression of integers. -/
inductive IntExpr where
  | lit (i : Int64)
  | neg (operand : IntExpr)
  | arith (op : Value.Arith) (lhs rhs : IntExpr)

namespace IntExpr

/-- The expression as the evaluator takes it. -/
def toExpr : IntExpr → Expr
  | .lit i => .lit (.int i)
  | .neg e => .neg e.toExpr
  | .arith op a b => .binary op.operator a.toExpr b.toExpr

/-- The value over the integers. -/
def value : IntExpr → Int
  | .lit i => i.toInt
  | .neg e => -e.value
  | .arith .add a b => a.value + b.value
  | .arith .sub a b => a.value - b.value
  | .arith .mul a b => a.value * b.value

/-- The expression itself and all expressions inside it. -/
def parts : IntExpr → List IntExpr
  | .lit i => [.lit i]
  | .neg e => .neg e :: e.parts
  | .arith op a b => .arith op a b :: (a.parts ++ b.parts)

/-- Every part has a value that fits. -/
def Fits (e : IntExpr) : Prop := ∀ part ∈ e.parts, FitsWord part.value

/-- The negative of the least integer is asked for. -/
def NegatesLeast (e : IntExpr) : Prop :=
  ∃ operand, .neg operand ∈ e.parts ∧ operand.value = -9223372036854775808

/-- The result is the value over the integers, and there is none exactly when some part does not fit. -/
def Exact (e : IntExpr) (o : Except EvalError Int64) : Prop :=
  (∀ n, o = .ok n → n.toInt = e.value) ∧
    ((∃ fault, o = .error fault) ↔ ∃ part ∈ e.parts, ¬FitsWord part.value)

theorem value_arith (op : Value.Arith) (a b : IntExpr) :
    (arith op a b).value = op.onInt a.value b.value := by
  cases op <;> rfl

theorem fits_neg {e : IntExpr} : (neg e).Fits ↔ FitsWord (-e.value) ∧ e.Fits := by
  simp [Fits, parts, value]

theorem fits_arith {op : Value.Arith} {a b : IntExpr} :
    (arith op a b).Fits ↔ FitsWord (op.onInt a.value b.value) ∧ a.Fits ∧ b.Fits := by
  simp only [Fits, parts, List.forall_mem_cons, List.forall_mem_append, value_arith]

theorem Fits.value {e : IntExpr} (h : e.Fits) : FitsWord e.value := by
  apply h
  cases e <;> simp [parts]

theorem negatesLeast_neg {e : IntExpr} :
    (neg e).NegatesLeast ↔ e.value = -9223372036854775808 ∨ e.NegatesLeast := by
  simp only [NegatesLeast, parts, List.mem_cons, neg.injEq]
  constructor
  · rintro ⟨operand, rfl | hpart, hleast⟩
    · exact .inl hleast
    · exact .inr ⟨operand, hpart, hleast⟩
  · rintro (hleast | ⟨operand, hpart, hleast⟩)
    · exact ⟨e, .inl rfl, hleast⟩
    · exact ⟨operand, .inr hpart, hleast⟩

theorem negatesLeast_arith {op : Value.Arith} {a b : IntExpr} :
    (arith op a b).NegatesLeast ↔ a.NegatesLeast ∨ b.NegatesLeast := by
  simp only [NegatesLeast, parts, List.mem_cons, List.mem_append, reduceCtorEq, false_or]
  constructor
  · rintro ⟨operand, hpart | hpart, hleast⟩
    · exact .inl ⟨operand, hpart, hleast⟩
    · exact .inr ⟨operand, hpart, hleast⟩
  · rintro (⟨operand, hpart, hleast⟩ | ⟨operand, hpart, hleast⟩)
    · exact ⟨operand, .inl hpart, hleast⟩
    · exact ⟨operand, .inr hpart, hleast⟩

/-! ## Words -/

theorem fitsWord_toInt (i : Int64) : FitsWord i.toInt :=
  ⟨Int64.minValue_le_toInt i, Int64.toInt_le i⟩

/-- Only the least integer has a negative that does not fit; it is taken modulo `2 ^ 64`. -/
theorem toInt_neg_modEq (i : Int64) : (-i).toInt ≡ -i.toInt [ZMOD 2 ^ 64] := by
  rw [Int64.toInt_neg]
  exact Int.bmod_emod

theorem toInt_neg_of_fits {i : Int64} (h : FitsWord (-i.toInt)) : (-i).toInt = -i.toInt := by
  rw [Int64.toInt_neg]
  obtain ⟨hlow, hhigh⟩ := h
  apply Int.bmod_eq_of_le_mul_two <;> omega

theorem fit?_of_fitsWord {n : Int} (h : FitsWord n) :
    ∃ i : Int64, Value.fit? n = some i ∧ i.toInt = n := by
  refine ⟨Int64.ofInt n, if_pos h, ?_⟩
  obtain ⟨hlow, hhigh⟩ := h
  exact Int64.toInt_ofInt_of_le (by omega) (by omega)

theorem fit?_eq_some {n : Int} {i : Int64} (h : Value.fit? n = some i) : FitsWord n ∧ i.toInt = n := by
  unfold Value.fit? at h
  split at h
  · next hfits =>
    obtain ⟨i', hi', htoInt⟩ := fit?_of_fitsWord hfits
    rw [Value.fit?, if_pos hfits] at hi'
    rw [Option.some.inj (h.symm.trans hi')]
    exact ⟨hfits, htoInt⟩
  · cases h

/-! ## The evaluator -/

/-- What the evaluator makes of an expression, whatever the environment makes of a failure. -/
def outcome : IntExpr → Except EvalError Int64
  | .lit i => .ok i
  | .neg e => e.outcome.map fun n => -n
  | .arith op a b =>
    match a.outcome, b.outcome with
    | .ok x, .ok y =>
      match Value.fit? (op.onInt x.toInt y.toInt) with
      | some n => .ok n
      | none => .error (.overflow x.toInt op.sign y.toInt)
    | .ok _, .error fault => .error fault
    | .error fault, _ => .error fault

theorem applyBinary_operator (op : Value.Arith) (x y : Int64) :
    Expr.applyBinary op.operator (.int x) (.int y) =
      match Value.fit? (op.onInt x.toInt y.toInt) with
      | some n => .ok (.int n)
      | none => .error (.overflow x.toInt op.sign y.toInt) := by
  cases op <;> rfl

theorem shortCircuits_operator (op : Value.Arith) (v : Value) :
    Expr.shortCircuits op.operator v = false := by
  cases op <;> rfl

/-- What comes after a step that is over already. -/
theorem bind_settled {ε : Type} {m : Type → Type} [Monad m] [LawfulMonad m] {α β : Type}
    (o : Except ε α) (next : α → ExceptT ε m β) :
    ((ExceptT.mk (pure o) : ExceptT ε m α) >>= next) =
      match o with
      | .ok a => next a
      | .error fault => ExceptT.mk (pure (.error fault)) := by
  show ExceptT.mk (pure o >>= ExceptT.bindCont next) = _
  rw [pure_bind]
  cases o <;> rfl

/-- An expression of integers is evaluated alike in all environments. -/
theorem eval_toExpr {ε : Type} {m : Type → Type} [Monad m] [LawfulMonad m]
    {env : Env (ExceptT ε m)} {report : EvalError → ε} (h : env.Reports report) (locals : Bindings)
    (e : IntExpr) : Expr.eval env locals e.toExpr =
      ExceptT.mk (pure ((e.outcome.map Value.int).mapError report)) := by
  induction e with
  | lit i => rfl
  | neg e ih =>
    rw [toExpr, Expr.eval, ih, outcome, bind_settled]
    cases e.outcome with
    | error fault => rfl
    | ok n => exact h (.ok (.int (-n)))
  | arith op a b iha ihb =>
    rw [toExpr, Expr.eval, iha, outcome, bind_settled]
    cases a.outcome with
    | error fault => rfl
    | ok x =>
      show (if Expr.shortCircuits op.operator (.int x) then _ else _) = _
      rw [shortCircuits_operator, if_neg Bool.false_ne_true, ihb, bind_settled]
      cases b.outcome with
      | error fault => rfl
      | ok y =>
        show env.settle (Expr.applyBinary op.operator (.int x) (.int y)) = _
        rw [h, applyBinary_operator]
        show _ = ExceptT.mk (pure (((match Value.fit? _ with | some n => _ | none => _ :
          Except EvalError Int64).map Value.int).mapError report))
        cases Value.fit? (op.onInt x.toInt y.toInt) <;> rfl

/-! ## Exactness -/

/-- Sums, differences and products of words that are right up to a multiple of `2 ^ 64`. -/
theorem onInt_modEq (op : Value.Arith) {x x' y y' : Int} (hx : x ≡ x' [ZMOD 2 ^ 64])
    (hy : y ≡ y' [ZMOD 2 ^ 64]) : op.onInt x y ≡ op.onInt x' y' [ZMOD 2 ^ 64] := by
  cases op with
  | add => exact hx.add hy
  | sub => exact hx.sub hy
  | mul => exact hx.mul hy

/-- The outcome of an operation: each operand has one, and what they give together fits. -/
theorem outcome_arith_eq_ok {op : Value.Arith} {a b : IntExpr} {n : Int64}
    (h : (arith op a b).outcome = .ok n) :
    ∃ x y, a.outcome = .ok x ∧ b.outcome = .ok y ∧ FitsWord (op.onInt x.toInt y.toInt) ∧
      n.toInt = op.onInt x.toInt y.toInt := by
  rw [outcome] at h
  cases ha : a.outcome with
  | error fault => simp [ha] at h
  | ok x =>
    cases hb : b.outcome with
    | error fault => simp [ha, hb] at h
    | ok y =>
      simp only [ha, hb] at h
      split at h
      · next m hm =>
        obtain ⟨hfits, htoInt⟩ := fit?_eq_some hm
        cases h
        exact ⟨x, y, rfl, rfl, hfits, htoInt⟩
      · cases h

theorem outcome_neg_eq_ok {e : IntExpr} {n : Int64} (h : (neg e).outcome = .ok n) :
    ∃ x, e.outcome = .ok x ∧ n = -x := by
  rw [outcome] at h
  cases he : e.outcome with
  | error fault => simp [he, Except.map] at h
  | ok x =>
    simp only [he, Except.map, Except.ok.injEq] at h
    exact ⟨x, rfl, h.symm⟩

/-- Whatever is computed is right up to a multiple of `2 ^ 64`. -/
theorem outcome_modEq {e : IntExpr} {n : Int64} (h : e.outcome = .ok n) :
    n.toInt ≡ e.value [ZMOD 2 ^ 64] := by
  induction e generalizing n with
  | lit i =>
    cases h
    rfl
  | neg e ih =>
    obtain ⟨x, hx, rfl⟩ := outcome_neg_eq_ok h
    exact (toInt_neg_modEq x).trans (ih hx).neg
  | arith op a b iha ihb =>
    obtain ⟨x, y, hx, hy, -, hn⟩ := outcome_arith_eq_ok h
    rw [hn, value_arith]
    exact onInt_modEq op (iha hx) (ihb hy)

/-- Where everything fits, the value over the integers is computed. -/
theorem outcome_of_fits {e : IntExpr} (h : e.Fits) : ∃ n, e.outcome = .ok n ∧ n.toInt = e.value := by
  induction e with
  | lit i => exact ⟨i, rfl, rfl⟩
  | neg e ih =>
    obtain ⟨hvalue, hfits⟩ := fits_neg.mp h
    obtain ⟨x, hx, htoInt⟩ := ih hfits
    refine ⟨-x, by rw [outcome, hx, Except.map], ?_⟩
    rw [← htoInt] at hvalue
    rw [toInt_neg_of_fits hvalue, htoInt, value]
  | arith op a b iha ihb =>
    obtain ⟨hvalue, hfitsA, hfitsB⟩ := fits_arith.mp h
    obtain ⟨x, hx, hxInt⟩ := iha hfitsA
    obtain ⟨y, hy, hyInt⟩ := ihb hfitsB
    obtain ⟨n, hn, hnInt⟩ := fit?_of_fitsWord hvalue
    refine ⟨n, ?_, by rw [hnInt, value_arith]⟩
    simp only [outcome, hx, hy, hxInt, hyInt, hn]

/-- Where the least integer is never negated, only what fits is computed. -/
theorem fits_of_outcome {e : IntExpr} {n : Int64} (h : e.outcome = .ok n) (hneg : ¬e.NegatesLeast) :
    e.Fits ∧ n.toInt = e.value := by
  induction e generalizing n with
  | lit i =>
    cases h
    refine ⟨?_, rfl⟩
    simp [Fits, parts, value, fitsWord_toInt]
  | neg e ih =>
    rw [negatesLeast_neg, not_or] at hneg
    obtain ⟨x, hx, rfl⟩ := outcome_neg_eq_ok h
    obtain ⟨hfits, hxInt⟩ := ih hx hneg.2
    -- only at the least integer does a change of sign leave the range
    have hvalue : FitsWord (-e.value) := by
      obtain ⟨hlow, hhigh⟩ := hfits.value
      have hleast := hneg.1
      constructor <;> omega
    refine ⟨fits_neg.mpr ⟨hvalue, hfits⟩, ?_⟩
    rw [← hxInt] at hvalue
    rw [toInt_neg_of_fits hvalue, hxInt, value]
  | arith op a b iha ihb =>
    rw [negatesLeast_arith, not_or] at hneg
    obtain ⟨x, y, hx, hy, hvalue, hn⟩ := outcome_arith_eq_ok h
    obtain ⟨hfitsA, hxInt⟩ := iha hx hneg.1
    obtain ⟨hfitsB, hyInt⟩ := ihb hy hneg.2
    rw [hxInt, hyInt] at hvalue hn
    exact ⟨fits_arith.mpr ⟨hvalue, hfitsA, hfitsB⟩, by rw [hn, value_arith]⟩

/-- The only failure is an overflow. -/
theorem outcome_error {e : IntExpr} {fault : EvalError} (h : e.outcome = .error fault) :
    ∃ lhs sign rhs, fault = .overflow lhs sign rhs := by
  induction e generalizing fault with
  | lit i => cases h
  | neg e ih =>
    apply ih
    rw [outcome] at h
    cases he : e.outcome with
    | error fault' => simpa [he, Except.map] using h
    | ok x => simp [he, Except.map] at h
  | arith op a b iha ihb =>
    rw [outcome] at h
    cases ha : a.outcome with
    | error fault' => exact iha (by simpa [ha] using h)
    | ok x =>
      cases hb : b.outcome with
      | error fault' => exact ihb (by simpa [ha, hb] using h)
      | ok y =>
        simp only [ha, hb] at h
        split at h
        · cases h
        · cases h
          exact ⟨_, _, _, rfl⟩

/-- A negated least integer is a part that does not fit. -/
theorem not_fits_of_negatesLeast {e : IntExpr} (h : e.NegatesLeast) :
    ∃ part ∈ e.parts, ¬FitsWord part.value := by
  obtain ⟨operand, hpart, hleast⟩ := h
  refine ⟨.neg operand, hpart, ?_⟩
  intro hfits
  have hhigh : -operand.value ≤ 9223372036854775807 := hfits.2
  omega

theorem exact_outcome_iff (e : IntExpr) :
    e.Exact e.outcome ↔ (∃ fault, e.outcome = .error fault) ∨ ¬e.NegatesLeast := by
  constructor
  · rintro ⟨-, hfault⟩
    by_cases hneg : e.NegatesLeast
    · exact .inl (hfault.mpr (not_fits_of_negatesLeast hneg))
    · exact .inr hneg
  · intro h
    refine ⟨?_, ?_, ?_⟩
    · intro n hn
      obtain ⟨fault, hfault⟩ | hneg := h
      · rw [hfault] at hn
        cases hn
      · exact (fits_of_outcome hn hneg).2
    · rintro ⟨fault, hfault⟩
      by_contra hall
      push Not at hall
      obtain ⟨n, hn, -⟩ := outcome_of_fits hall
      rw [hfault] at hn
      cases hn
    · rintro ⟨part, hpart, hvalue⟩
      cases ho : e.outcome with
      | error fault => exact ⟨fault, rfl⟩
      | ok n =>
        obtain ⟨fault, hfault⟩ | hneg := h
        · rw [ho] at hfault
          cases hfault
        · exact absurd ((fits_of_outcome ho hneg).1 part hpart) hvalue

/-- Evaluating an expression of integers gives, in every environment that reports failures and whatever
is bound, its value up to a multiple of `2 ^ 64` or fails with an overflow. It is exact, with a failure
precisely when some part does not fit into 64 bits, unless a result rests on the negative of the least
integer. -/
theorem eval_exact_iff {ε : Type} {m : Type → Type} [Monad m] [LawfulMonad m]
    {env : Env (ExceptT ε m)} {report : EvalError → ε} (h : env.Reports report) (locals : Bindings)
    (e : IntExpr) :
    ∃ o : Except EvalError Int64,
      Expr.eval env locals e.toExpr = ExceptT.mk (pure ((o.map Value.int).mapError report)) ∧
      (∀ n, o = .ok n → n.toInt ≡ e.value [ZMOD 2 ^ 64]) ∧
      (∀ fault, o = .error fault → ∃ lhs sign rhs, fault = .overflow lhs sign rhs) ∧
      (e.Exact o ↔ (∃ fault, o = .error fault) ∨ ¬e.NegatesLeast) :=
  ⟨e.outcome, eval_toExpr h locals e, fun _ => outcome_modEq, fun _ => outcome_error,
    exact_outcome_iff e⟩

/-- The least integer, which no literal denotes, as a difference. -/
def least : IntExpr := .arith .sub (.neg (.lit 9223372036854775807)) (.lit 1)

theorem eval_exact_iff_least :
    ∃ o : Except EvalError Int64,
      Expr.eval Outline.literalsOnly [] least.toExpr =
        ExceptT.mk (pure ((o.map Value.int).mapError id)) ∧
      (∀ n, o = .ok n → n.toInt ≡ least.value [ZMOD 2 ^ 64]) ∧
      (∀ fault, o = .error fault → ∃ lhs sign rhs, fault = .overflow lhs sign rhs) ∧
      (least.Exact o ↔ (∃ fault, o = .error fault) ∨ ¬least.NegatesLeast) :=
  eval_exact_iff reports_literalsOnly [] least

theorem parse_neg_least : Expr.parse "-(-9223372036854775807 - 1)" = .ok (neg least).toExpr := by
  have hprint : Expr.print ⟨false, false⟩ (neg least).toExpr = "-(-9223372036854775807 - 1)" := by
    decide +kernel
  have hprintable : Expr.isPrintable (neg least).toExpr = true := by decide
  obtain ⟨ps, hlex, hwords⟩ := Expr.lex_print ⟨false, false⟩ hprintable
  rw [← hprint, Expr.parse, hlex]
  exact Expr.parseWhole_words hprintable (Expr.spells_of_map hwords)

/-- The negative of the least integer is read, and evaluated to the least integer itself. -/
theorem not_eval_exact :
    Expr.parse "-(-9223372036854775807 - 1)" = .ok (neg least).toExpr ∧
    Expr.eval Outline.literalsOnly [] (neg least).toExpr =
      ExceptT.mk (pure (.ok (.int (-9223372036854775808)))) ∧
    (neg least).value = 9223372036854775808 ∧
    ¬ ∀ e : IntExpr, ∃ o : Except EvalError Int64,
      Expr.eval Outline.literalsOnly [] e.toExpr = ExceptT.mk (pure (o.map Value.int)) ∧ e.Exact o := by
  refine ⟨parse_neg_least, rfl, by decide, ?_⟩
  intro h
  obtain ⟨o, heval, hexact, -⟩ := h (neg least)
  have ho : o.map Value.int = .ok (.int (-9223372036854775808)) := heval.symm
  cases o with
  | error fault => cases ho
  | ok n =>
    have hn : n = -9223372036854775808 := by
      injection ho with hvalue
      injection hvalue
    have hvalue := hexact n rfl
    rw [hn] at hvalue
    exact absurd hvalue (by decide)

end IntExpr

end DocWeave
