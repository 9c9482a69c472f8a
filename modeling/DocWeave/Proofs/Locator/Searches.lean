import DocWeave.Locator

/-!
# What holds of every search

A search is put together from steps that read the lines or the outline of a source. So a property of
steps that goes from steps to steps one after the other holds of every search if it holds of these two
(`IsStepProperty.locate`).
-/

namespace DocWeave

/-- A property that steps have together when each of them has it. -/
structure IsStepProperty (P : ∀ {ε α : Type}, SessionT ε α → Prop) : Prop where
  pure : ∀ {ε α : Type} (a : α), P (pure a : SessionT ε α)
  throw : ∀ {ε α : Type} (e : ε), P (throw e : SessionT ε α)
  bind : ∀ {ε α β : Type} {step : SessionT ε α} {next : α → SessionT ε β},
    P step → (∀ a, P (next a)) → P (step >>= next)
  attempt : ∀ {ε α : Type} {step : SessionT ε α}, P step → P step.attempt

namespace IsStepProperty

open Locator

variable {P : ∀ {ε α : Type}, SessionT ε α → Prop} {root : String}

theorem siteAt (hP : IsStepProperty @P) (hlines : ∀ file, P (linesOf root file)) (file : String)
    (line : Nat) (shape : Shape) : P (siteAt root file line shape) := by
  refine hP.bind (hlines file) fun found => ?_
  split
  · exact hP.pure _
  · exact hP.throw _

theorem definitionLine (hP : IsStepProperty @P) (houtline : ∀ file, P (outlineOf root file))
    (s : Subject) (file name : String) (kind : MemberKind) :
    P (definitionLine root s file name kind) := by
  unfold Locator.definitionLine
  split
  · exact hP.pure _
  · refine hP.bind (hP.attempt (houtline file)) fun outline => ?_
    split <;> exact hP.pure _

theorem declarativeLine (hP : IsStepProperty @P) (hlines : ∀ file, P (linesOf root file))
    (file name : String) : P (declarativeLine root file name) := by
  refine hP.bind (hP.attempt (hlines file)) fun found => ?_
  split <;> exact hP.pure _

theorem findDefinition (hP : IsStepProperty @P) (hlines : ∀ file, P (linesOf root file))
    (houtline : ∀ file, P (outlineOf root file)) (name : String) (kind : MemberKind)
    (lineage : List Subject) : P (findDefinition root name kind lineage) := by
  induction lineage with
  | nil => exact hP.pure _
  | cons s rest ih =>
    rw [Locator.findDefinition]
    split
    · exact ih
    · refine hP.bind (hP.definitionLine houtline s _ name kind) fun line => ?_
      split
      · exact hP.bind (hP.siteAt hlines _ _ _) fun site => hP.pure _
      · exact ih

theorem findDeclarative (hP : IsStepProperty @P) (hlines : ∀ file, P (linesOf root file))
    (name : String) (lineage : List Subject) : P (findDeclarative root name lineage) := by
  induction lineage with
  | nil => exact hP.pure _
  | cons s rest ih =>
    rw [Locator.findDeclarative]
    split
    · exact ih
    · refine hP.bind (hP.declarativeLine hlines _ name) fun line => ?_
      split
      · exact ih
      · refine hP.bind (hP.siteAt hlines _ _ _) fun site => ?_
        split
        · exact hP.pure _
        · exact ih

theorem placedSite (hP : IsStepProperty @P) (hlines : ∀ file, P (linesOf root file))
    (r : Reference) (context : Subject) (line : Nat) : P (placedSite root r context line) := by
  unfold Locator.placedSite
  split
  · exact hP.siteAt hlines _ _ _
  · exact hP.throw _

/-- A search for a definition has the property. -/
theorem locate (hP : IsStepProperty @P) (hlines : ∀ file, P (linesOf root file))
    (houtline : ∀ file, P (outlineOf root file)) (registry : Registry) (r : Reference)
    (context : Subject) : P (locate root registry r context) := by
  unfold Locator.locate
  split
  · exact hP.placedSite hlines r context _
  · refine hP.bind (hP.findDefinition hlines houtline r.name r.kind _) fun definition => ?_
    split
    · exact hP.pure _
    · split
      · refine hP.bind (hP.findDeclarative hlines r.name _) fun declarative => ?_
        dsimp only
        split
        · exact hP.pure _
        · exact hP.throw _
      · refine hP.bind (hP.pure none) fun declarative => ?_
        dsimp only
        split
        · exact hP.pure _
        · exact hP.throw _

/-- A search for the declaration of a subject has the property. -/
theorem locateSubject (hP : IsStepProperty @P) (hlines : ∀ file, P (linesOf root file))
    (houtline : ∀ file, P (outlineOf root file)) (s : Subject) : P (locateSubject root s) := by
  unfold Locator.locateSubject
  split
  · exact hP.throw _
  · split
    · exact hP.siteAt hlines _ _ _
    · refine hP.bind (houtline _) fun outline => ?_
      split
      · exact hP.siteAt hlines _ _ _
      · exact hP.throw _

end IsStepProperty

end DocWeave
