/-!
# Steps that may fail and leave their state behind

All work of a run is done in steps with a state that outlives a failure. These are the equations by
which such steps are followed one after the other.
-/

namespace DocWeave.Stateful

variable {σ ε ε' α β : Type}

theorem eq_ok_of_toOption {o : Except ε α} {a : α} (h : o.toOption = some a) : o = .ok a := by
  cases o with
  | error e => cases h
  | ok b => exact congrArg Except.ok (Option.some.inj h)

/-- What comes from two steps without a state has come from the second one, with what the first one gave. -/
theorem bind_eq_ok {o : Except ε α} {f : α → Except ε β} {b : β} (h : o >>= f = .ok b) :
    ∃ a, o = .ok a ∧ f a = .ok b := by
  cases o with
  | error e => cases h
  | ok a => exact ⟨a, rfl, h⟩

/-- Two steps one after the other: the second begins in the state in which the first has ended. -/
theorem run_bind (step : ExceptT ε (StateM σ) α) (next : α → ExceptT ε (StateM σ) β) (s : σ) :
    (step >>= next).run.run s =
      match step.run.run s with
      | (.ok a, s') => (next a).run.run s'
      | (.error e, s') => (.error e, s') := by
  show (match step.run s with | (o, s') => ExceptT.bindCont next o s') = _
  rcases h : step.run.run s with ⟨o, s'⟩
  have h' : step.run s = (o, s') := h
  rw [h']
  cases o <;> rfl

/-- Two steps that succeed one after the other. -/
theorem run_bind_eq_ok {step : ExceptT ε (StateM σ) α} {next : α → ExceptT ε (StateM σ) β}
    {s u : σ} {b : β} (h : (step >>= next).run.run s = (.ok b, u)) :
    ∃ a t, step.run.run s = (.ok a, t) ∧ (next a).run.run t = (.ok b, u) := by
  rw [run_bind] at h
  split at h
  · next a t hstep => exact ⟨a, t, hstep, h⟩
  · cases h

/-- A step whose failure is handled: the handler begins in the state in which the step has failed. -/
theorem run_tryCatch (step : ExceptT ε (StateM σ) α) (handle : ε → ExceptT ε (StateM σ) α) (s : σ) :
    (tryCatch step handle).run.run s =
      match step.run.run s with
      | (.ok a, s') => (.ok a, s')
      | (.error e, s') => (handle e).run.run s' := by
  show (match step.run s with
    | (o, s') => (match o with
      | .ok a => pure (Except.ok a)
      | .error e => (handle e).run : StateM σ (Except ε α)) s') = _
  rcases h : step.run.run s with ⟨o, s'⟩
  have h' : step.run s = (o, s') := h
  rw [h']
  cases o <;> rfl

@[simp] theorem run_pure (a : α) (s : σ) :
    (pure a : ExceptT ε (StateM σ) α).run.run s = (.ok a, s) := rfl

@[simp] theorem run_get (s : σ) : (get : ExceptT ε (StateM σ) σ).run.run s = (.ok s, s) := rfl

@[simp] theorem run_modify (f : σ → σ) (s : σ) :
    (modify f : ExceptT ε (StateM σ) Unit).run.run s = (.ok (), f s) := rfl

/-- A step that gives a fixed outcome. -/
@[simp] theorem run_outcome (o : Except ε α) (s : σ) :
    (ExceptT.mk (pure o) : ExceptT ε (StateM σ) α).run.run s = (o, s) := rfl

/-- A step whose failures get another name. -/
theorem run_adapt (rename : ε → ε') (step : ExceptT ε (StateM σ) α) (s : σ) :
    (ExceptT.adapt rename step).run.run s =
      (Except.mapError rename (step.run.run s).1, (step.run.run s).2) := rfl

end DocWeave.Stateful
