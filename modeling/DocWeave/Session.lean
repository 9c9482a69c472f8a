import DocWeave.FileTree
import DocWeave.Outline.Scan

/-!
# Sessions

What a run works on: the files, and the sources it has read of them. A source is read once; what was
read stays as it is, whatever happens to the file later. The outline of a source is that of the lines
that were read.
-/

namespace DocWeave

open DocWeave.Text

/-- The sources read so far, by their paths below the root. -/
structure Cache where
  lines : OrderedMap String (List (List Char)) := []
  outlines : OrderedMap String (List Outline.Declaration) := []
deriving Inhabited

/-- The state of a run. -/
structure Session where
  files : FileTree
  cache : Cache := {}
deriving Inhabited

/-- A computation that reads and writes files and may fail. What it has done before a failure stays
done. -/
abbrev SessionT (ε : Type) := ExceptT ε (StateM Session)

/-- A step of a run. -/
abbrev RunM := SessionT Error

/-- A step whose failure is a failure of a run. -/
def RunM.ofExcept {α : Type} (outcome : Except Error α) : RunM α := ExceptT.mk (pure outcome)

/-- A step whose failure is a failure of evaluation. -/
def RunM.ofEval {α : Type} (outcome : Except EvalError α) : RunM α :=
  ExceptT.mk (pure (outcome.mapError Error.ofEval))

/-- The result of a step, or nothing when it fails. -/
def SessionT.attempt {ε α : Type} (step : SessionT ε α) : SessionT ε (Option α) :=
  ExceptT.mk do return .ok (← step.run).toOption

end DocWeave
