import DocWeave.EvalError

/-!
# Errors of a run

The causes for which a page, or a whole run, fails. Only a missing source is recoverable: the entry it
concerns is dropped and the run goes on. An error inside a doc block carries the chain of blocks that
were open, the outermost first; the chain is flat however deep the blocks are nested.
-/

namespace DocWeave

/-- Faults of the set-up. -/
inductive ConfigFault where
  | emptyToken
  | noWorkers
  | badPattern (pattern reason : String)
  | duplicateSubject (name : String)
  | unqualifiedMethod (method : String)
deriving DecidableEq, Repr

/-- The wording of a set-up fault. -/
def ConfigFault.message : ConfigFault → String
  | .emptyToken => "doc block tokens must not be empty"
  | .noWorkers => "parallelism must be at least 1"
  | .badPattern pattern reason => s!"invalid discover pattern `{pattern}`: {reason}"
  | .duplicateSubject name => s!"subject `{name}` is registered twice"
  | .unqualifiedMethod method => s!"method filter `{method}` must name its owner"

/-- Why a file could not be read or written. -/
inductive FileFault where
  | missing
  | isDirectory
  | notDirectory
  | exists
deriving DecidableEq, Repr

/-- The operating system's wording of a file fault. -/
def FileFault.message : FileFault → String
  | .missing => "No such file or directory (os error 2)"
  | .isDirectory => "Is a directory (os error 21)"
  | .notDirectory => "Not a directory (os error 20)"
  | .exists => "File exists (os error 17)"

/-- A cause of failure. -/
inductive Fault where
  /-- A text is no reference to a member. -/
  | malformedReference (text : String)
  /-- The definition of a member could not be found. -/
  | sourceNotFound (reference reason : String)
  /-- A page has entries of kinds it has no section for. -/
  | unrecognizedKinds (kinds : String)
  /-- A subject is not registered. -/
  | unknownSubject (name context : String)
  /-- An expression has no value. -/
  | eval (e : EvalError)
  /-- A member could not be evaluated. -/
  | invoke (reference reason : String)
  /-- The set-up is faulty. -/
  | config (fault : ConfigFault)
  /-- A source or the manifest could not be read. -/
  | read (path : String) (fault : FileFault)
  /-- A page could not be written. -/
  | io (fault : FileFault)
  /-- The manifest is malformed. -/
  | toml

/-- The wording of a cause. -/
def Fault.message : Fault → String
  | .malformedReference text => s!"method_reference is formatted incorrectly: '{text}'"
  | .sourceNotFound reference reason => s!"source not found for {reference}: {reason}"
  | .unrecognizedKinds kinds => s!"Unhandled methods types: {kinds}"
  | .unknownSubject name context => s!"unknown subject `{name}` (referenced from `{context}`)"
  | .eval e => e.message
  | .invoke reference reason => s!"cannot evaluate {reference}: {reason}"
  | .config fault => s!"configuration error: {fault.message}"
  | .read path fault => s!"failed to read {path}: {fault.message}"
  | .io fault => fault.message
  | .toml => "invalid manifest"

/-- A failure: its cause, and the doc blocks that were open when it arose, the outermost first. -/
structure Error where
  fault : Fault
  trace : List String := []

namespace Error

/-- The failure with a cause and no open doc block. -/
def of (fault : Fault) : Error := ⟨fault, []⟩

/-- The failure of an evaluation. -/
def ofEval (e : EvalError) : Error := .of (.eval e)

/-- The failure arose inside a doc block. -/
def isTraced (e : Error) : Bool := !e.trace.isEmpty

/-- Whether the run may drop the entry and go on: only for a missing source outside doc blocks. -/
def isRecoverable (e : Error) : Bool :=
  match e.fault with
  | .sourceNotFound _ _ => !e.isTraced
  | _ => false

/-- The failure seen from an enclosing doc block. -/
def withFrame (frame : String) (e : Error) : Error := { e with trace := frame :: e.trace }

/-- The cause, then the open doc blocks from the innermost outwards. -/
def message (e : Error) : String :=
  e.trace.reverse.foldl (fun text frame => text ++ "\n    from " ++ frame) e.fault.message

@[simp] theorem trace_withFrame (frame : String) (e : Error) :
    (e.withFrame frame).trace = frame :: e.trace := rfl

end Error

end DocWeave
