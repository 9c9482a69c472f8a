import DocWeave.Proofs.Locator.Views
import DocWeave.Proofs.Sandbox.Resuming

/-!
# The loop of restarts

A body is evaluated with fixed bindings, given up at a name that is not bound, and begun anew when the
name is bound. Each round of this loop is one step of the direct evaluation: the name is asked for and
its value stored. If the members that names stand for are evaluated as the direct evaluation has it
(`Refines`), then so is the body (`restart_matches`), up to the number of names that may be bound.
-/

namespace DocWeave

namespace Sandbox

open Locator

/-! ## One evaluation with fixed bindings -/

/-- What evaluating a body once gives, as a function of the bindings. -/
def fixedBody (registry : Registry) (s : Subject) (body : String) : FixedM Value :=
  match Program.parse body with
  | .error fault => throw (.blocked (.malformed fault))
  | .ok program => Program.valueOf (fixedEnv registry s) [] .nil program

theorem runBody_fixed (registry : Registry) (s : Subject) (bindings : Bindings) (body : String) :
    runBody registry s bindings body = (fixedBody registry s body).run.run bindings := by
  unfold runBody fixedBody
  cases Program.parse body with
  | error fault => rfl
  | ok program => exact run_bodyEnv registry s bindings program

/-- What evaluating a member once gives, as a function of the bindings. -/
def fixedMember (registry : Registry) (s : Subject) (r : Reference)
    (site : Except LocateFault Site) : FixedM Value :=
  match declaredResult? registry s r with
  | some v => pure v
  | none =>
    match site with
    | .error fault => throw (.blocked (.notLocated fault))
    | .ok site => fixedBody registry s (String.ofList (executableBody site.body.toList))

theorem resumes_member (registry : Registry) (s : Subject) (r : Reference)
    (answer : Reference → Answer) (site : Except LocateFault Site) :
    Resumes registry s r answer (fixedMember registry s r site)
      (directMember registry s r answer site) := by
  have hblocked : ∀ obstacle, Resumes registry s r answer (throw (.blocked obstacle) : FixedM Value)
      (throw (.failed (refusal r obstacle))) := fun obstacle =>
    resumes_outcome (.error (.blocked obstacle)) (fun _ => nofun) (demand registry s r answer)
  unfold fixedMember directMember
  cases declaredResult? registry s r with
  | some v => exact .pure v
  | none =>
    cases site with
    | error fault => exact hblocked (.notLocated fault)
    | ok site =>
      simp only [fixedBody]
      cases Program.parse (String.ofList (executableBody site.body.toList)) with
      | error fault => exact hblocked (.malformed fault)
      | ok program => exact resumes_program program

/-- Evaluating a member once, in a session like `σ`. -/
theorem invoke_run {root : String} (registry : Registry) (s : Subject) {σ τ : Session}
    (h : Alike root σ τ) (r : Reference) (bindings : Bindings) :
    ∃ τ', (invoke root registry s r bindings).run.run τ =
      ((fixedMember registry s r (siteIn root registry s σ r)).run.run bindings, τ') ∧
      Alike root σ τ' := by
  unfold invoke fixedMember
  cases declaredResult? registry s r with
  | some v => exact ⟨τ, rfl, h⟩
  | none =>
    have hkeeps := (locate_settled root registry r s).keeps τ
    have hsite : siteIn root registry s σ r = siteIn root registry s τ r :=
      (locate_settled root registry r s).agrees σ τ h
    rw [hsite, siteIn]
    refine ⟨((locate root registry r s).run.run τ).2, ?_, h.trans hkeeps⟩
    rw [Stateful.run_bind, Stateful.run_adapt]
    cases (locate root registry r s).run.run τ with
    | mk o τ' =>
      cases o with
      | error fault => rfl
      | ok site =>
        show (runBody registry s bindings (String.ofList (executableBody site.body.toList)), τ') = _
        rw [runBody_fixed]

/-! ## The loop of restarts -/

/-- What is done when one evaluation of a body has come out. -/
def afterwards (root : String) (registry : Registry) (s : Subject) (r : Reference)
    (collaborate : Reference → RunM Value) (left : Nat) (bindings : Bindings) :
    Except Halt Value → RunM Value
  | .ok v => pure v
  | .error (.failed e) => throw (.ofEval e)
  | .error (.blocked obstacle) => throw (refusal r obstacle)
  | .error (.unbound name) =>
    match left with
    | 0 => throw (refusal r (.tooManyNames nameLimit))
    | left + 1 =>
      match collaborator? registry s name with
      | none => throw (refusal r (.unknownName name s.name))
      | some other =>
        collaborate other >>= fun v =>
          restart root registry s r collaborate left (bindings.insert name v)

section

variable {root : String} {registry : Registry} {s : Subject} {r : Reference}
  {collaborate : Reference → RunM Value} {bindings : Bindings} {τ τ' : Session}

theorem restart_run {o : Except Halt Value} (left : Nat)
    (h : (invoke root registry s r bindings).run.run τ = (o, τ')) :
    (restart root registry s r collaborate left bindings).run.run τ =
      (afterwards root registry s r collaborate left bindings o).run.run τ' := by
  have hlift : (liftM (invoke root registry s r bindings).run : RunM _).run.run τ = (.ok o, τ') := by
    show (match (invoke root registry s r bindings).run.run τ with | (o, τ') => (Except.ok o, τ')) = _
    rw [h]
  cases left with
  | zero =>
    rw [restart, Stateful.run_bind, hlift]
    rcases o with (name | obstacle | e) | v <;> rfl
  | succ left =>
    rw [restart, Stateful.run_bind, hlift]
    rcases o with (name | obstacle | e) | v <;> rfl

/-- A name that stands for no member ends the evaluation. -/
theorem afterwards_unknown {name : String} (h : collaborator? registry s name = none) (left : Nat) :
    afterwards root registry s r collaborate (left + 1) bindings (.error (.unbound name)) =
      throw (refusal r (.unknownName name s.name)) := by
  simp only [afterwards, h]

/-- The value of the member that a name stands for is bound to the name. -/
theorem afterwards_member {name : String} {other : Reference}
    (h : collaborator? registry s name = some other) (left : Nat) :
    afterwards root registry s r collaborate (left + 1) bindings (.error (.unbound name)) =
      (collaborate other >>= fun v =>
        restart root registry s r collaborate left (bindings.insert name v)) := by
  simp only [afterwards, h]

end

/-! ## Refinement -/

/-- The result and session of a run against the outcome and frame of a direct evaluation. A value is the
right value. If no inner evaluation asked for more than `nameLimit` names, then any outcome is the right
one as long as at most `bound` names were asked for, and otherwise the run gave up. -/
structure Matches (root : String) (σ : Session) (r : Reference) (bound : Nat)
    (got : Except Error Value × Session) (wanted : Except Stop Value × Frame) : Prop where
  keeps : Alike root σ got.2
  sound : ∀ v, got.1 = .ok v → wanted.1 = .ok v
  complete : ∀ o : Except Error Value, wanted.1 = o.mapError .failed →
    wanted.2.tally.asked ≤ bound → (∀ t ∈ wanted.2.inner, t.asked ≤ nameLimit) → got.1 = o
  exceeds : bound < wanted.2.tally.asked → (∀ t ∈ wanted.2.inner, t.asked ≤ nameLimit) →
    got.1 = .error (refusal r (.tooManyNames nameLimit))

/-- In every session like `σ` a run gives what a direct evaluation answers: a value only if this is the
answer, and any answer for which no body asked for more than `nameLimit` names. -/
structure Refines (root : String) (σ : Session) (run : RunM Value) (answer : Answer) : Prop where
  keeps : ∀ τ, Alike root σ τ → Alike root σ (run.run.run τ).2
  sound : ∀ τ v, Alike root σ τ → (run.run.run τ).1 = .ok v → answer.outcome = .ok v
  complete : ∀ τ, Alike root σ τ → ∀ o : Except Error Value, answer.outcome = o.mapError .failed →
    (∀ t ∈ answer.tallies, t.asked ≤ nameLimit) → (run.run.run τ).1 = o

theorem mapError_failed_inj {o o' : Except Error Value}
    (h : o.mapError Stop.failed = o'.mapError Stop.failed) : o = o' := by
  cases o with
  | ok v =>
    cases o' with
    | ok v' => exact congrArg Except.ok (Except.ok.inj h)
    | error e' => exact absurd h nofun
  | error e =>
    cases o' with
    | ok v' => exact absurd h nofun
    | error e' => exact congrArg Except.error (Stop.failed.inj (Except.error.inj h))

section

variable {root : String} {registry : Registry} {s : Subject} {r : Reference} {σ τ : Session}
  {collaborate : Reference → RunM Value} {answer : Reference → Answer}

/-- Both have come to the same end. -/
theorem Matches.ended (h : Alike root σ τ) {bound : Nat} (o : Except Error Value) {frame : Frame}
    (hb : frame.tally.asked ≤ bound) : Matches root σ r bound (o, τ) (o.mapError .failed, frame) := by
  refine ⟨h, ?_, ?_, ?_⟩
  · rintro v rfl
    rfl
  · intro o' ho _ _
    exact mapError_failed_inj ho
  · intro hlt _
    exact absurd hb (Nat.not_le.mpr hlt)

/-- The names that a direct evaluation asks for, when the body breaks off at one with fixed bindings. -/
theorem Resumes.asked {x : FixedM Value} {y : DirectM Value} (h : Resumes registry s r answer x y)
    {frame : Frame} {name : String} (hx : x.run.run frame.bindings = .error (.unbound name)) :
    frame.tally.asked < (y.run.run frame).2.tally.asked := by
  have hy : y.run.run frame =
      (demand registry s r answer name >>= fun _ => y).run.run frame := by
    rw [h.follows frame, hx]
    rfl
  have hdemand := within_demand registry s r answer name frame
  rw [hy, Stateful.run_bind]
  rcases hd : (demand registry s r answer name).run.run frame with ⟨o, later⟩
  rw [hd] at hdemand
  cases o with
  | error stop => exact hdemand.asked
  | ok v => exact Nat.lt_of_lt_of_le hdemand.asked (h.within later).asked

/-- The step from one restart to the next: the member of the name that is missing is evaluated, with the
same result in both. -/
theorem matches_collaborate {y : DirectM Value} {name : String} {other : Reference}
    {again : Value → RunM Value} {bound : Nat} {frame : Frame} (hb : frame.tally.asked < bound)
    (hother : collaborator? registry s name = some other)
    (hc : Refines root σ (collaborate other) (answer other))
    (hy : y.run.run frame = (demand registry s r answer name >>= fun _ => y).run.run frame)
    (hwithin : ∀ frame : Frame, frame.Within (y.run.run frame).2) (hτ : Alike root σ τ)
    (hagain : ∀ v τ, Alike root σ τ → Matches root σ r bound ((again v).run.run τ)
      (y.run.run ((frame.ask.record (answer other).tallies).store name v))) :
    Matches root σ r bound ((collaborate other >>= again).run.run τ) (y.run.run frame) := by
  have hkeeps := hc.keeps τ hτ
  have hsound := hc.sound τ
  have hcomplete := hc.complete τ hτ
  rw [Stateful.run_bind]
  rcases hrun : (collaborate other).run.run τ with ⟨o, τ'⟩
  rw [hrun] at hkeeps hsound hcomplete
  rw [hy, Stateful.run_bind]
  cases ho : (answer other).outcome with
  | error stop =>
    -- the direct evaluation stops with its collaborator, and the run must not have found a value
    rw [demand_stopped hother ho]
    cases o with
    | ok v =>
      have hvalue := hsound v hτ rfl
      rw [ho] at hvalue
      cases hvalue
    | error e =>
      refine ⟨hkeeps, nofun, ?_, fun hlt _ => absurd hb (Nat.not_lt.mpr (Nat.le_of_lt_succ hlt))⟩
      intro o' ho' _ hinner
      refine hcomplete o' (ho.trans ho') fun t ht => ?_
      exact hinner t (List.mem_append_right _ ht)
  | ok v =>
    rw [demand_stored hother ho]
    cases o with
    | ok v' =>
      obtain rfl : v' = v := by
        have hvalue := hsound v' hτ rfl
        rw [ho] at hvalue
        cases hvalue
        rfl
      exact hagain v' τ' hkeeps
    | error e =>
      -- within the bounds of the inner evaluations the run would have found the value
      have hlater := hwithin ((frame.ask.record (answer other).tallies).store name v)
      have hbeyond : ¬∀ t ∈ (y.run.run ((frame.ask.record (answer other).tallies).store name v)).2.inner,
          t.asked ≤ nameLimit := by
        intro hinner
        have hvalue := hcomplete (.ok v) ho fun t ht =>
          hinner t (hlater.inner t (List.mem_append_right _ ht))
        cases hvalue
      exact ⟨hkeeps, nofun, fun _ _ _ hinner => absurd hinner hbeyond,
        fun _ hinner => absurd hinner hbeyond⟩

/-- The loop of restarts gives what the direct evaluation from its bindings gives. -/
theorem restart_matches (registry : Registry) (s : Subject) (r : Reference)
    (hc : ∀ other, Refines root σ (collaborate other) (answer other)) (left : Nat) (frame : Frame)
    (hτ : Alike root σ τ) :
    Matches root σ r (frame.tally.asked + left)
      ((restart root registry s r collaborate left frame.bindings).run.run τ)
      ((directMember registry s r answer (siteIn root registry s σ r)).run.run frame) := by
  have hmember := resumes_member registry s r answer (siteIn root registry s σ r)
  -- the induction is on the names that may still be bound; each restart begins with one binding more
  induction left using Nat.strongRecOn generalizing frame τ with
  | ind left ih =>
    obtain ⟨τ', hrun, hτ'⟩ := invoke_run registry s hτ r frame.bindings
    have hy := hmember.follows frame
    rw [restart_run left hrun]
    cases hx : (fixedMember registry s r (siteIn root registry s σ r)).run.run frame.bindings with
    | ok v =>
      rw [hy, hx]
      exact Matches.ended hτ' (.ok v) (Nat.le_add_right _ _)
    | error halt =>
      cases halt with
      | failed e =>
        rw [hy, hx]
        exact Matches.ended hτ' (.error (.ofEval e)) (Nat.le_add_right _ _)
      | blocked obstacle =>
        rw [hy, hx]
        exact Matches.ended hτ' (.error (refusal r obstacle)) (Nat.le_add_right _ _)
      | unbound name =>
        cases left with
        | zero =>
          -- the direct evaluation asks for one name more than are left
          refine ⟨hτ', nofun, ?_, fun _ _ => rfl⟩
          intro o _ hasked _
          exact absurd (hmember.asked hx) (Nat.not_lt.mpr hasked)
        | succ left =>
          have hb : frame.tally.asked < frame.tally.asked + (left + 1) := by omega
          rw [hx] at hy
          cases hother : collaborator? registry s name with
          | none =>
            rw [afterwards_unknown hother, hy, comply, Stateful.run_bind, demand_unknown hother]
            exact Matches.ended hτ' (.error (refusal r (.unknownName name s.name))) hb
          | some other =>
            rw [afterwards_member hother]
            refine matches_collaborate hb hother (hc other) hy hmember.within hτ' ?_
            intro v τ'' hτ''
            have hnext := ih left (Nat.lt_succ_self left)
              ((frame.ask.record (answer other).tallies).store name v) hτ''
            rw [Nat.add_comm left 1, ← Nat.add_assoc]
            exact hnext

end

end Sandbox

end DocWeave
