import DocWeave.Proofs.Locator.Views
import DocWeave.Proofs.Page.Steps

/-!
# Making a page writes no file

A step *keeps the files* when it ends with the files with which it began, whether it fails or not. This
is a property that steps have together when each of them has it, so the page of a subject keeps the
files, as long as every directive does (`Page.Maker.page_keepsFiles`). The standard directives do
(`Directive.standard_keepsFiles`).
-/

namespace DocWeave

/-- A step writes no file. -/
def KeepsFiles {ε α : Type} (step : SessionT ε α) : Prop :=
  ∀ σ, (step.run.run σ).2.files = σ.files

namespace KeepsFiles

variable {ε ε' α β : Type}

theorem pure (a : α) : KeepsFiles (pure a : SessionT ε α) := fun _ => rfl

theorem bind {step : SessionT ε α} {next : α → SessionT ε β} (h : KeepsFiles step)
    (hnext : ∀ a, KeepsFiles (next a)) : KeepsFiles (step >>= next) := by
  intro σ
  have hstep := h σ
  rw [Stateful.run_bind]
  rcases hs : step.run.run σ with ⟨o, τ⟩
  rw [hs] at hstep
  cases o with
  | error e => exact hstep
  | ok a => exact (hnext a τ).trans hstep

theorem tryCatch {step : SessionT ε α} {handle : ε → SessionT ε α} (h : KeepsFiles step)
    (hhandle : ∀ e, KeepsFiles (handle e)) : KeepsFiles (tryCatch step handle) := by
  intro σ
  have hstep := h σ
  rw [Stateful.run_tryCatch]
  rcases hs : step.run.run σ with ⟨o, τ⟩
  rw [hs] at hstep
  cases o with
  | error e => exact (hhandle e τ).trans hstep
  | ok a => exact hstep

theorem isPageProperty : IsPageProperty fun {ε α} (_ : ε → Prop) (step : SessionT ε α) =>
    KeepsFiles step where
  pure := KeepsFiles.pure
  bind := KeepsFiles.bind
  outcome _ _ := fun _ => rfl
  adapt _ _ h := h
  looked h := h
  attempt h := h
  cause _ := trivial
  tryCatch := KeepsFiles.tryCatch

theorem linesOf (root file : String) : KeepsFiles (Locator.linesOf root file) := by
  intro σ
  rcases Locator.linesOf_run root file σ with h | ⟨found, -, h⟩ <;> rw [h]
  rfl

theorem outlineOf (root file : String) : KeepsFiles (Locator.outlineOf root file) := by
  refine KeepsFiles.bind (fun _ => rfl) fun session => ?_
  split
  · exact .pure _
  · refine (linesOf root file).bind fun found => ?_
    exact KeepsFiles.bind (fun _ => rfl) fun _ => .pure _

theorem readsWith (root : String) :
    ReadsWith (fun {ε α} (_ : ε → Prop) (step : SessionT ε α) => KeepsFiles step) root :=
  ⟨linesOf root, outlineOf root⟩

end KeepsFiles

/-- A directive writes no file when the doc blocks that it includes write none. -/
def Directive.KeepsFiles (directive : Directive) : Prop :=
  ∀ ctx args, (∀ r, DocWeave.KeepsFiles (ctx.blockOf r)) → DocWeave.KeepsFiles (directive ctx args)

/-- No directive of the catalogue writes a file. -/
def Catalogue.KeepsFiles (catalogue : Catalogue) : Prop :=
  ∀ entry ∈ catalogue, Directive.KeepsFiles entry.2

/-- No standard directive writes a file. -/
theorem Directive.standard_keepsFiles : Catalogue.KeepsFiles Directive.standard :=
  fun entry hentry ctx args =>
    KeepsFiles.isPageProperty.standard entry hentry ctx args (KeepsFiles.readsWith _)

/-- Making a page writes no file. -/
theorem Page.Maker.page_keepsFiles {p : Maker} (h : Catalogue.KeepsFiles p.catalogue) (s : Subject) :
    KeepsFiles (p.page s) :=
  KeepsFiles.isPageProperty.page (KeepsFiles.readsWith _)
    (fun entry hentry ctx args _ => h entry hentry ctx args) s

end DocWeave
