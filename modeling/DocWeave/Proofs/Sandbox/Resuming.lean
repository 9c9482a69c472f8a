import DocWeave.Proofs.Sandbox.Direct

/-!
# A restart is a resumption

Beginning a body anew after a name was bound leads to the point at which it broke off. With fixed
bindings a body is a function of these bindings. Binding one more name changes no lookup that succeeded,
so what was evaluated before the break evaluates to the same (`Resumes.grown`); and the name at which the
body broke off was not bound (`Resumes.missing`). Therefore the direct evaluation, which goes on from the
break, does the same as if it had begun anew there (`Resumes.follows`).
-/

namespace DocWeave

namespace Sandbox

/-! ## Bodies with fixed bindings -/

/-- A part of an evaluation with fixed bindings. -/
abbrev FixedM := ExceptT Halt (ReaderM Bindings)

/-- What names mean in a body, as a function of the bindings. -/
def fixedEnv (registry : Registry) (s : Subject) : Env FixedM where
  call name args := ExceptT.mk fun bindings => ((bodyEnv registry s bindings).call name args).run
  constant path := ExceptT.mk fun bindings => ((bodyEnv registry s bindings).constant path).run
  callOnConstant path method args :=
    ExceptT.mk fun bindings => ((bodyEnv registry s bindings).callOnConstant path method args).run
  settle outcome := ExceptT.mk fun bindings => ((bodyEnv registry s bindings).settle outcome).run

/-- A part with the bindings already given. -/
def AtBindings (bindings : Bindings) {α : Type} (x : ExceptT Halt Id α) (y : FixedM α) : Prop :=
  x.run = y.run.run bindings

/-- One part after the other, with the same bindings. -/
theorem run_fixed_bind {α β : Type} (x : FixedM α) (f : α → FixedM β) (bindings : Bindings) :
    (x >>= f).run.run bindings =
      match x.run.run bindings with
      | .ok a => (f a).run.run bindings
      | .error halt => .error halt := by
  show ExceptT.bindCont f (x.run.run bindings) bindings = _
  cases x.run.run bindings <;> rfl

theorem isRelation_atBindings (bindings : Bindings) : IsRelation (@AtBindings bindings) := by
  refine ⟨fun a => rfl, ?_⟩
  intro α β x y f g hx hf
  show ExceptT.bindCont f x.run = (y >>= g).run.run bindings
  rw [run_fixed_bind, ← hx]
  cases x.run with
  | ok a => exact hf a
  | error halt => rfl

/-- Running a program with some bindings is the function of the bindings at these. -/
theorem run_bodyEnv (registry : Registry) (s : Subject) (bindings : Bindings) (program : Program) :
    ((Program.run (bodyEnv registry s bindings) .nil program).run []).1 =
      (Program.valueOf (fixedEnv registry s) [] .nil program).run.run bindings := by
  have henv : Env.Related (@AtBindings bindings) (bodyEnv registry s bindings)
      (fixedEnv registry s) :=
    ⟨fun _ _ => rfl, fun _ => rfl, fun _ _ _ => rfl, fun _ => rfl⟩
  exact Program.related_valueOf (isRelation_atBindings bindings) henv program [] .nil

/-! ## Growing frames -/

namespace Frame

/-- Evaluation only adds to the names asked for and to the inner tallies. -/
structure Within (frame later : Frame) : Prop where
  asked : frame.tally.asked ≤ later.tally.asked
  inner : ∀ t ∈ frame.inner, t ∈ later.inner

theorem Within.refl (frame : Frame) : Within frame frame := ⟨Nat.le_refl _, fun _ h => h⟩

theorem Within.trans {a b c : Frame} (h₁ : Within a b) (h₂ : Within b c) : Within a c :=
  ⟨Nat.le_trans h₁.asked h₂.asked, fun t h => h₂.inner t (h₁.inner t h)⟩

theorem within_ask (frame : Frame) : Within frame frame.ask :=
  ⟨Nat.le_succ _, fun _ h => h⟩

theorem within_record (frame : Frame) (tallies : List Tally) :
    Within frame (frame.record tallies) :=
  ⟨Nat.le_refl _, fun _ h => List.mem_append_left _ h⟩

theorem within_store (frame : Frame) (name : String) (v : Value) :
    Within frame (frame.store name v) :=
  ⟨Nat.le_refl _, fun _ h => h⟩

end Frame

section

variable {registry : Registry} {s : Subject} {r : Reference} {answer : Reference → Answer}

/-- Asking for a name that stands for no member. -/
theorem demand_unknown {name : String} (h : collaborator? registry s name = none) (frame : Frame) :
    (demand registry s r answer name).run.run frame =
      (.error (.failed (refusal r (.unknownName name s.name))), frame.ask) := by
  rw [demand, Stateful.run_bind, Stateful.run_modify, h]
  rfl

/-- Asking for a name whose member has no value. -/
theorem demand_stopped {name : String} {other : Reference} {stop : Stop}
    (h : collaborator? registry s name = some other) (ho : (answer other).outcome = .error stop)
    (frame : Frame) :
    (demand registry s r answer name).run.run frame =
      (.error stop, frame.ask.record (answer other).tallies) := by
  rw [demand, Stateful.run_bind, Stateful.run_modify, h]
  simp only [Stateful.run_bind, Stateful.run_modify, Stateful.run_outcome, ho]

/-- Asking for a name whose member has a value. -/
theorem demand_stored {name : String} {other : Reference} {v : Value}
    (h : collaborator? registry s name = some other) (ho : (answer other).outcome = .ok v)
    (frame : Frame) :
    (demand registry s r answer name).run.run frame =
      (.ok v, (frame.ask.record (answer other).tallies).store name v) := by
  rw [demand, Stateful.run_bind, Stateful.run_modify, h]
  simp only [Stateful.run_bind, Stateful.run_modify, Stateful.run_outcome, Stateful.run_pure, ho]

/-- The three ways in which asking for a name ends; only the last one goes on. -/
theorem demand_cases (registry : Registry) (s : Subject) (r : Reference)
    (answer : Reference → Answer) (name : String) (frame : Frame) :
    (∃ stop later, (demand registry s r answer name).run.run frame = (.error stop, later) ∧
      frame.ask.Within later) ∨
    (∃ v later, (demand registry s r answer name).run.run frame = (.ok v, later) ∧
      frame.ask.Within later ∧ later.bindings = frame.bindings.insert name v) := by
  cases h : collaborator? registry s name with
  | none => exact Or.inl ⟨_, _, demand_unknown h frame, .refl _⟩
  | some other =>
    have hrecord := Frame.within_record frame.ask (answer other).tallies
    cases ho : (answer other).outcome with
    | error stop => exact Or.inl ⟨_, _, demand_stopped h ho frame, hrecord⟩
    | ok v =>
      exact Or.inr ⟨v, _, demand_stored h ho frame, hrecord.trans (Frame.within_store _ name v), rfl⟩

end

/-! ## Resuming -/

section

variable (registry : Registry) (s : Subject) (r : Reference) (answer : Reference → Answer)

/-- The direct part `y` does what the part `x` does with the bindings of its frame. Where `x` breaks off
at a name, `y` asks for the name and then does what it would do from its beginning. -/
structure Resumes {α : Type} (x : FixedM α) (y : DirectM α) : Prop where
  follows : ∀ frame : Frame, y.run.run frame =
    (comply r (fun name => demand registry s r answer name >>= fun _ => y)
      (x.run.run frame.bindings)).run.run frame
  grown : ∀ {bindings : Bindings} {name : String} {v : Value} {a : α},
    bindings.get? name = none → x.run.run bindings = .ok a →
      x.run.run (bindings.insert name v) = .ok a
  missing : ∀ {bindings : Bindings} {name : String},
    x.run.run bindings = .error (.unbound name) → bindings.get? name = none
  within : ∀ frame : Frame, frame.Within (y.run.run frame).2

end

section

variable {registry : Registry} {s : Subject} {r : Reference} {answer : Reference → Answer}

theorem Resumes.pure {α : Type} (a : α) :
    Resumes registry s r answer (pure a : FixedM α) (pure a) :=
  ⟨fun _ => rfl, fun _ h => h, fun h => (nomatch h), fun frame => .refl frame⟩

/-- Where the fixed bindings are enough, the direct part asks for nothing. -/
theorem Resumes.enough {α : Type} {x : FixedM α} {y : DirectM α} {a : α}
    (h : Resumes registry s r answer x y) {frame : Frame}
    (hx : x.run.run frame.bindings = .ok a) : y.run.run frame = (.ok a, frame) := by
  rw [h.follows frame, hx]
  rfl

/-- Having asked for a name that was not bound, the first of two parts need not be repeated. -/
theorem Resumes.demand_bind {α β : Type} {x : FixedM α} {y : DirectM α} {a : α}
    (h : Resumes registry s r answer x y) {frame : Frame}
    (hx : x.run.run frame.bindings = .ok a) {name : String}
    (hname : frame.bindings.get? name = none) (g : α → DirectM β) :
    (demand registry s r answer name >>= fun _ => y >>= g).run.run frame =
      (demand registry s r answer name >>= fun _ => g a).run.run frame := by
  rw [Stateful.run_bind, Stateful.run_bind]
  rcases demand_cases registry s r answer name frame with
    ⟨stop, later, hd, -⟩ | ⟨v, later, hd, -, hb⟩
  · rw [hd]
  · rw [hd]
    have hagain : x.run.run later.bindings = .ok a := by
      rw [hb]
      exact h.grown hname hx
    show (y >>= g).run.run later = (g a).run.run later
    rw [Stateful.run_bind, h.enough hagain]

/-- Where the first of two parts breaks off, both together go on from there. -/
theorem Resumes.bind_halted {α β : Type} {x : FixedM α} {y : DirectM α} {halt : Halt}
    (h : Resumes registry s r answer x y) {frame : Frame}
    (hx : x.run.run frame.bindings = .error halt) (g : α → DirectM β) :
    (y >>= g).run.run frame =
      (comply r (fun name => demand registry s r answer name >>= fun _ => y >>= g)
        (.error halt)).run.run frame := by
  have hy := h.follows frame
  rw [hx] at hy
  cases halt with
  | unbound name =>
    have hy' : y.run.run frame =
      (demand registry s r answer name >>= fun _ => y).run.run frame := hy
    rw [Stateful.run_bind, hy', ← Stateful.run_bind, bind_assoc]
    rfl
  | blocked obstacle => rw [Stateful.run_bind, hy]; rfl
  | failed e => rw [Stateful.run_bind, hy]; rfl

/-- Where the first of two parts needs no further name, both together break off where the second does. -/
theorem Resumes.bind_enough {α β : Type} {x : FixedM α} {y : DirectM α} {a : α} {x' : FixedM β}
    {g : α → DirectM β} (h : Resumes registry s r answer x y)
    (ha : Resumes registry s r answer x' (g a)) {frame : Frame}
    (hx : x.run.run frame.bindings = .ok a) :
    (y >>= g).run.run frame =
      (comply r (fun name => demand registry s r answer name >>= fun _ => y >>= g)
        (x'.run.run frame.bindings)).run.run frame := by
  rw [Stateful.run_bind, h.enough hx]
  show (g a).run.run frame = _
  rw [ha.follows frame]
  cases hb : x'.run.run frame.bindings with
  | ok b => rfl
  | error halt =>
    cases halt with
    | unbound name => exact (h.demand_bind hx (ha.missing hb) g).symm
    | blocked obstacle => rfl
    | failed e => rfl

/-- Resuming is kept by one part after the other. -/
theorem Resumes.bind {α β : Type} {x : FixedM α} {y : DirectM α} {f : α → FixedM β}
    {g : α → DirectM β} (h : Resumes registry s r answer x y)
    (hf : ∀ a, Resumes registry s r answer (f a) (g a)) :
    Resumes registry s r answer (x >>= f) (y >>= g) := by
  refine ⟨?_, ?_, ?_, ?_⟩
  · intro frame
    rw [run_fixed_bind]
    cases hx : x.run.run frame.bindings with
    | error halt => exact h.bind_halted hx g
    | ok a => exact h.bind_enough (hf a) hx
  · intro bindings name v b hmissing hb
    rw [run_fixed_bind] at hb ⊢
    cases hx : x.run.run bindings with
    | error halt =>
      rw [hx] at hb
      cases hb
    | ok a =>
      rw [hx] at hb
      rw [h.grown hmissing hx]
      exact (hf a).grown hmissing hb
  · intro bindings name hb
    rw [run_fixed_bind] at hb
    cases hx : x.run.run bindings with
    | error halt =>
      rw [hx] at hb
      cases hb
      exact h.missing hx
    | ok a =>
      rw [hx] at hb
      exact (hf a).missing hb
  · intro frame
    have hy := h.within frame
    rw [Stateful.run_bind]
    rcases hrun : y.run.run frame with ⟨o, later⟩
    rw [hrun] at hy
    cases o with
    | error stop => exact hy
    | ok a => exact hy.trans ((hf a).within later)

theorem isRelation_resumes : IsRelation (@Resumes registry s r answer) :=
  ⟨Resumes.pure, Resumes.bind⟩

/-! ## What names mean -/

/-- An outcome that does not depend on the bindings and asks for no name. -/
theorem resumes_outcome (o : Except Halt Value) (h : ∀ name, o ≠ .error (.unbound name))
    (ask : String → DirectM Value) :
    Resumes registry s r answer (ExceptT.mk fun _ => o) (comply r ask o) := by
  refine ⟨?_, fun _ ha => ha, fun ho => absurd ho (h _), ?_⟩
  · intro frame
    show (comply r ask o).run.run frame = (comply r _ o).run.run frame
    cases o with
    | ok v => rfl
    | error halt =>
      cases halt with
      | unbound name => exact absurd rfl (h name)
      | blocked obstacle => rfl
      | failed e => rfl
  · intro frame
    cases o with
    | ok v => exact .refl frame
    | error halt =>
      cases halt with
      | unbound name => exact absurd rfl (h name)
      | blocked obstacle => exact .refl frame
      | failed e => exact .refl frame

/-- A name that is bound has its value, with or without arguments. -/
theorem call_bound {bindings : Bindings} {name : String} {v : Value}
    (h : bindings.get? name = some v) (args : Option Args) :
    ((bodyEnv registry s bindings).call name args).run = .ok v := by
  simp only [bodyEnv, h]
  rfl

/-- A name that is not bound breaks off the evaluation, or blocks it if it has arguments. -/
theorem call_unbound {bindings : Bindings} {name : String} (h : bindings.get? name = none)
    (args : Option Args) :
    ((bodyEnv registry s bindings).call name args).run =
      if (args.getD {}).isEmpty then .error (.unbound name)
      else .error (.blocked (.argumentsGiven name)) := by
  simp only [bodyEnv, h]
  split <;> rfl

theorem run_fixedEnv_call (name : String) (args : Option Args) (bindings : Bindings) :
    ((fixedEnv registry s).call name args).run.run bindings =
      ((bodyEnv registry s bindings).call name args).run := rfl

/-- A direct lookup, in the bindings of its frame. -/
theorem run_directEnv_call (name : String) (args : Option Args) (frame : Frame) :
    ((directEnv registry s r answer).call name args).run.run frame =
      (comply r (demand registry s r answer)
        ((bodyEnv registry s frame.bindings).call name args).run).run.run frame := rfl

/-- Having asked for a name, a repeated lookup finds what was stored. -/
theorem demand_call (name : String) (args : Option Args) (frame : Frame) :
    (demand registry s r answer name >>= fun _ =>
      (directEnv registry s r answer).call name args).run.run frame =
      (demand registry s r answer name).run.run frame := by
  rw [Stateful.run_bind]
  rcases demand_cases registry s r answer name frame with
    ⟨stop, later, hd, -⟩ | ⟨v, later, hd, -, hb⟩
  · rw [hd]
  · have hstored : later.bindings.get? name = some v := by
      rw [hb]
      exact OrderedMap.get?_insert_self _ _ _
    rw [hd]
    show ((directEnv registry s r answer).call name args).run.run later = _
    rw [run_directEnv_call, call_bound hstored]
    rfl

/-- A name that was found is found with one more name bound. -/
theorem call_grown {bindings : Bindings} {name name' : String} {args : Option Args} {v a : Value}
    (hmissing : bindings.get? name' = none)
    (ha : ((fixedEnv registry s).call name args).run.run bindings = .ok a) :
    ((fixedEnv registry s).call name args).run.run (bindings.insert name' v) = .ok a := by
  rw [run_fixedEnv_call] at ha ⊢
  cases hv : bindings.get? name with
  | some w =>
    have hne : name ≠ name' := by
      rintro rfl
      rw [hv] at hmissing
      cases hmissing
    have hkept : (bindings.insert name' v).get? name = some w := by
      rw [OrderedMap.get?_insert_of_ne _ _ hne, hv]
    rw [call_bound hv] at ha
    rw [call_bound hkept, ha]
  | none =>
    rw [call_unbound hv] at ha
    split at ha <;> cases ha

/-- A name at which a lookup breaks off is not bound. -/
theorem call_missing {bindings : Bindings} {name name' : String} {args : Option Args}
    (hu : ((fixedEnv registry s).call name args).run.run bindings = .error (.unbound name')) :
    bindings.get? name' = none := by
  rw [run_fixedEnv_call] at hu
  cases hv : bindings.get? name with
  | some w =>
    rw [call_bound hv] at hu
    cases hu
  | none =>
    rw [call_unbound hv] at hu
    split at hu
    · cases hu
      exact hv
    · cases hu

theorem within_demand (registry : Registry) (s : Subject) (r : Reference)
    (answer : Reference → Answer) (name : String) (frame : Frame) :
    frame.ask.Within ((demand registry s r answer name).run.run frame).2 := by
  rcases demand_cases registry s r answer name frame with
    ⟨stop, later, hd, hw⟩ | ⟨v, later, hd, hw, -⟩
  · rw [hd]
    exact hw
  · rw [hd]
    exact hw

theorem resumes_call (name : String) (args : Option Args) :
    Resumes registry s r answer ((fixedEnv registry s).call name args)
      ((directEnv registry s r answer).call name args) := by
  refine ⟨?_, call_grown, call_missing, ?_⟩
  · intro frame
    rw [run_directEnv_call, run_fixedEnv_call]
    cases hv : frame.bindings.get? name with
    | some v =>
      rw [call_bound hv]
      rfl
    | none =>
      rw [call_unbound hv]
      split
      · exact (demand_call name args frame).symm
      · rfl
  · intro frame
    rw [run_directEnv_call]
    cases hv : frame.bindings.get? name with
    | some v =>
      rw [call_bound hv]
      exact .refl frame
    | none =>
      rw [call_unbound hv]
      split
      · exact (Frame.within_ask frame).trans (within_demand registry s r answer name frame)
      · exact .refl frame

theorem related_directEnv : Env.Related (@Resumes registry s r answer) (fixedEnv registry s)
    (directEnv registry s r answer) := by
  refine ⟨resumes_call, ?_, ?_, ?_⟩
  · intro path
    refine resumes_outcome ((bodyEnv registry s []).constant path).run ?_ _
    intro name h
    simp only [bodyEnv] at h
    split at h <;> cases h
  · intro path method args
    refine resumes_outcome (.error (.blocked (.needsHost path method))) ?_
      (demand registry s r answer)
    intro name h
    cases h
  · intro outcome
    refine resumes_outcome ((bodyEnv registry s []).settle outcome).run ?_ _
    intro name h
    cases outcome with
    | ok v => cases h
    | error fault => cases h

/-- A program that is run anew after each name it asks for does what it does when run once. -/
theorem resumes_program (program : Program) :
    Resumes registry s r answer (Program.valueOf (fixedEnv registry s) [] .nil program)
      (Program.valueOf (directEnv registry s r answer) [] .nil program) :=
  Program.related_valueOf isRelation_resumes related_directEnv program [] .nil

end

end Sandbox

end DocWeave
