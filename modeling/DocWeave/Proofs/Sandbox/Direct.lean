import DocWeave.Proofs.Expr.Parametric
import DocWeave.Proofs.Stateful
import DocWeave.Sandbox

/-!
# Evaluating members directly

What the value of a member is, said without restarts: the body is evaluated once, over a store of
bindings. A name that is not bound is asked for on the spot; the member of that name is evaluated in the
same way one level deeper, its value is stored under the name, and the body goes on. There is no bound
on the names, and the depth is bounded only in order to have a function: an evaluation that needs more
levels ends as `Stop.tooDeep`, which is no answer, and one that has an answer keeps it with any more
levels (`direct_stable`).
-/

namespace DocWeave

namespace Sandbox

/-! ## Frames and answers -/

/-- Why a direct evaluation ends without a value. -/
inductive Stop where
  /-- It needs more levels than it was given. -/
  | tooDeep
  | failed (e : Error)

/-- How many names the evaluation of one body asked for, and for how many it stored a value. -/
structure Tally where
  asked : Nat := 0
  stored : Nat := 0
deriving DecidableEq

/-- The evaluation of one body under way. -/
structure Frame where
  bindings : Bindings
  tally : Tally := {}
  /-- The tallies of the evaluations begun for names that were asked for. -/
  inner : List Tally := []

/-- The end of a direct evaluation, with the tallies of all bodies that were begun. -/
structure Answer where
  outcome : Except Stop Value
  tallies : List Tally

/-- A part of a direct evaluation. -/
abbrev DirectM := ExceptT Stop (StateM Frame)

namespace Frame

/-- One more name is asked for. -/
def ask (frame : Frame) : Frame :=
  { frame with tally := { frame.tally with asked := frame.tally.asked + 1 } }

/-- An inner evaluation has ended. -/
def record (frame : Frame) (tallies : List Tally) : Frame :=
  { frame with inner := frame.inner ++ tallies }

/-- A name gets its value. -/
def store (frame : Frame) (name : String) (v : Value) : Frame :=
  { frame with
    bindings := frame.bindings.insert name v,
    tally := { frame.tally with stored := frame.tally.stored + 1 } }

end Frame

/-! ## Evaluation -/

section

variable (registry : Registry) (s : Subject) (r : Reference) (answer : Reference → Answer)

/-- Asks for a name: the member of that name is evaluated and its value stored. -/
def demand (name : String) : DirectM Value := do
  modify Frame.ask
  match collaborator? registry s name with
  | none => throw (.failed (refusal r (.unknownName name s.name)))
  | some other =>
    modify fun frame => frame.record (answer other).tallies
    let v ← ExceptT.mk (pure (answer other).outcome)
    modify fun frame => frame.store name v
    return v

/-- The outcome of a lookup, where `ask` says what happens for a name that is not bound. -/
def comply {α : Type} (ask : String → DirectM α) : Except Halt α → DirectM α
  | .ok a => pure a
  | .error (.unbound name) => ask name
  | .error (.blocked obstacle) => throw (.failed (refusal r obstacle))
  | .error (.failed e) => throw (.failed (.ofEval e))

/-- What names mean in a body that is evaluated once: what they mean with the bindings stored so far,
except that names that are not bound are asked for. -/
def directEnv : Env DirectM where
  call name args := do
    let frame ← get
    comply r (demand registry s r answer) ((bodyEnv registry s frame.bindings).call name args).run
  constant path :=
    comply r (demand registry s r answer) ((bodyEnv registry s []).constant path).run
  callOnConstant path method args :=
    comply r (demand registry s r answer) ((bodyEnv registry s []).callOnConstant path method args).run
  settle outcome :=
    comply r (demand registry s r answer) ((bodyEnv registry s []).settle outcome).run

/-- Evaluates a member whose definition is at `site`. -/
def directMember (site : Except LocateFault Site) : DirectM Value :=
  match declaredResult? registry s r with
  | some v => pure v
  | none =>
    match site with
    | .error fault => throw (.failed (refusal r (.notLocated fault)))
    | .ok site =>
      match Program.parse (String.ofList (executableBody site.body.toList)) with
      | .error fault => throw (.failed (refusal r (.malformed fault)))
      | .ok program => Program.valueOf (directEnv registry s r answer) [] .nil program

end

/-- Where a session has the definition of a member. -/
def siteIn (root : String) (registry : Registry) (s : Subject) (σ : Session) (r : Reference) :
    Except LocateFault Site :=
  ((Locator.locate root registry r s).run.run σ).1

/-- The answer of a body's evaluation when its inner evaluations answer as `answer` says. -/
def answerIn (root : String) (registry : Registry) (s : Subject) (σ : Session)
    (answer : Reference → Answer) (r : Reference) : Answer :=
  let (outcome, frame) := (directMember registry s r answer (siteIn root registry s σ r)).run.run
    { bindings := startBindings s r.kind }
  ⟨outcome, frame.tally :: frame.inner⟩

/-- Evaluates a member and the members it asks for directly, at most `levels` deep. -/
def direct (root : String) (registry : Registry) (s : Subject) (σ : Session) :
    (levels : Nat) → Reference → Answer
  | 0, _ => ⟨.error .tooDeep, []⟩
  | levels + 1, r => answerIn root registry s σ (direct root registry s σ levels) r

/-! ## More levels -/

/-- The second part does what the first does, unless the first runs out of levels. -/
def Deepens {α : Type} (y y' : DirectM α) : Prop :=
  ∀ frame, (y.run.run frame).1 = .error .tooDeep ∨ y.run.run frame = y'.run.run frame

theorem Deepens.refl {α : Type} (y : DirectM α) : Deepens y y := fun _ => Or.inr rfl

theorem Deepens.bind {α β : Type} {y y' : DirectM α} {g g' : α → DirectM β} (h : Deepens y y')
    (hg : ∀ a, Deepens (g a) (g' a)) : Deepens (y >>= g) (y' >>= g') := by
  intro frame
  rw [Stateful.run_bind, Stateful.run_bind]
  rcases h frame with hdeep | hsame
  · left
    rcases hy : y.run.run frame with ⟨o, frame'⟩
    rw [hy] at hdeep
    obtain rfl : o = .error .tooDeep := hdeep
    rfl
  · rw [← hsame]
    rcases hy : y.run.run frame with ⟨o, frame'⟩
    cases o with
    | error e => exact Or.inr rfl
    | ok a => exact hg a frame'

theorem isRelation_deepens : IsRelation @Deepens :=
  ⟨fun a => Deepens.refl (pure a), Deepens.bind⟩

section

variable (registry : Registry) (s : Subject) (r : Reference) {answer answer' : Reference → Answer}

theorem demand_deepens
    (h : ∀ other, (answer other).outcome = .error .tooDeep ∨ answer other = answer' other)
    (name : String) : Deepens (demand registry s r answer name) (demand registry s r answer' name) := by
  unfold demand
  refine (Deepens.refl _).bind fun _ => ?_
  split
  · exact Deepens.refl _
  · next other _ =>
    rcases h other with hdeep | hsame
    · intro frame
      left
      rw [Stateful.run_bind, Stateful.run_modify, hdeep]
      rfl
    · rw [hsame]
      exact Deepens.refl _

theorem comply_deepens {ask ask' : String → DirectM Value}
    (h : ∀ name, Deepens (ask name) (ask' name)) (o : Except Halt Value) :
    Deepens (comply r ask o) (comply r ask' o) := by
  unfold comply
  split
  · exact Deepens.refl _
  · exact h _
  · exact Deepens.refl _
  · exact Deepens.refl _

theorem directMember_deepens
    (h : ∀ other, (answer other).outcome = .error .tooDeep ∨ answer other = answer' other)
    (site : Except LocateFault Site) :
    Deepens (directMember registry s r answer site) (directMember registry s r answer' site) := by
  have hask := demand_deepens registry s r h
  have henv : Env.Related @Deepens (directEnv registry s r answer) (directEnv registry s r answer') :=
    ⟨fun name args => (Deepens.refl get).bind fun frame => comply_deepens r hask _,
      fun path => comply_deepens r hask _, fun path method args => comply_deepens r hask _,
      fun outcome => comply_deepens r hask _⟩
  unfold directMember
  split
  · exact Deepens.refl _
  · split
    · exact Deepens.refl _
    · split
      · exact Deepens.refl _
      · exact Program.related_valueOf isRelation_deepens henv _ _ _

end

/-- One level more changes no answer. -/
theorem direct_deepens (root : String) (registry : Registry) (s : Subject) (σ : Session)
    (levels : Nat) (r : Reference) :
    (direct root registry s σ levels r).outcome = .error .tooDeep ∨
      direct root registry s σ levels r = direct root registry s σ (levels + 1) r := by
  induction levels generalizing r with
  | zero => exact Or.inl rfl
  | succ levels ih =>
    have hmember := directMember_deepens registry s r ih
      (siteIn root registry s σ r) { bindings := startBindings s r.kind }
    rw [direct, direct, answerIn, answerIn]
    rcases hmember with hdeep | hsame
    · exact Or.inl hdeep
    · right
      rw [hsame]

/-- An answer stays the same with any more levels. -/
theorem direct_stable {root : String} {registry : Registry} {s : Subject} {σ : Session}
    {levels more : Nat} {r : Reference}
    (h : (direct root registry s σ levels r).outcome ≠ .error .tooDeep) (hmore : levels ≤ more) :
    direct root registry s σ more r = direct root registry s σ levels r := by
  obtain ⟨gap, rfl⟩ := Nat.exists_eq_add_of_le hmore
  clear hmore
  induction gap with
  | zero => rfl
  | succ gap ih =>
    rcases direct_deepens root registry s σ (levels + gap) r with hdeep | hsame
    · rw [ih] at hdeep
      exact absurd hdeep h
    · rw [← ih, hsame]
      rfl

end Sandbox

end DocWeave
