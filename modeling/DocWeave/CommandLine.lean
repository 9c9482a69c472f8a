import DocWeave.Manifest.Reading
import DocWeave.Run

/-!
# The command line

The options of the program, and what it does with them: it loads the manifest, collects the subjects,
and makes the pages, which are written to files or printed. A failure is reported with the step in which
it arose and the chain of its causes.
-/

namespace DocWeave.CommandLine

open DocWeave.Text

/-! ## Options -/

/-- The options as given. -/
structure Options where
  /-- The manifest. -/
  config : Option String := none
  /-- The folder for the pages, in place of the manifest's. -/
  output : Option String := none
  /-- The number of workers, in place of the manifest's. -/
  jobs : Option Nat := none
  /-- The members to document, in place of the manifest's. -/
  methods : List String := []
  /-- Pages are printed and not written. -/
  stdout : Bool := false
deriving DecidableEq, Repr

/-- Why no run is begun. -/
inductive Stop where
  /-- Help was asked for. -/
  | help
  /-- The arguments are wrong. -/
  | misuse
deriving DecidableEq, Repr

/-- The options that take a value. -/
inductive Setting where
  | config
  | output
  | jobs
  | method
deriving DecidableEq, Repr

/-- An argument by its form. -/
inductive Argument where
  /-- An option, with the value that is attached to it. -/
  | setting (s : Setting) (value : Option String)
  | stdout
  | help
  /-- The end of the options. -/
  | endOfOptions
  | unknown
deriving DecidableEq, Repr

/-- The manifest that is loaded when none is named. -/
def usualConfig : String := "markdoc.toml"

/-- An option with its full name. -/
def longArgument (name : List Char) (value : Option String) : Argument :=
  match String.ofList name, value with
  | "config", _ => .setting .config value
  | "output", _ => .setting .output value
  | "jobs", _ => .setting .jobs value
  | "method", _ => .setting .method value
  | "stdout", none => .stdout
  | "help", none => .help
  | _, _ => .unknown

/-- An option by its letter; the value may follow the letter, also behind `=`. -/
def shortArgument (letter : Char) (rest : List Char) : Argument :=
  let value := match rest with
    | [] => none
    | '=' :: s => some (String.ofList s)
    | s => some (String.ofList s)
  match letter with
  | 'c' => .setting .config value
  | 'o' => .setting .output value
  | 'j' => .setting .jobs value
  | 'h' => .help
  | _ => .unknown

/-- The form of an argument. -/
def Argument.ofText (arg : String) : Argument :=
  match arg.toList with
  | ['-', '-'] => .endOfOptions
  | '-' :: '-' :: s =>
    match splitFirst? ['='] s with
    | some (name, value) => longArgument name (some (String.ofList value))
    | none => longArgument s none
  | '-' :: letter :: rest => shortArgument letter rest
  | _ => .unknown

/-- The argument can be the value of the option before it. -/
def isValue (arg : String) : Bool :=
  match arg.toList with
  | '-' :: _ :: _ => false
  | _ => true

/-- A count that fits into 64 bits; a plus sign may stand in front. -/
def count? (s : String) : Option Nat :=
  let digits := match s.toList with
    | '+' :: ds => ds
    | ds => ds
  if digits.isEmpty || !digits.all Char.isDigit then none
  else
    let n := Decimal.ofDigits digits
    if n < Nat.pow 2 64 then some n else none

/-- Sets an option. All but the members may be given only once, and paths must not be empty. -/
def Options.set (o : Options) (setting : Setting) (value : String) : Except Stop Options :=
  match setting with
  | .config =>
    if o.config.isSome || value.isEmpty then .error .misuse else .ok { o with config := some value }
  | .output =>
    if o.output.isSome || value.isEmpty then .error .misuse else .ok { o with output := some value }
  | .jobs =>
    match o.jobs, count? value with
    | none, some n => .ok { o with jobs := some n }
    | _, _ => .error .misuse
  | .method => .ok { o with methods := o.methods ++ [value] }

/-- Reads the arguments from the first to the last. -/
def Options.read (o : Options) : List String → Except Stop Options
  | [] => .ok o
  | arg :: rest =>
    match Argument.ofText arg with
    | .unknown => .error .misuse
    | .help => .error .help
    | .endOfOptions => if rest.isEmpty then .ok o else .error .misuse
    | .stdout => if o.stdout then .error .misuse else Options.read { o with stdout := true } rest
    | .setting s (some value) => do Options.read (← o.set s value) rest
    | .setting s none =>
      match rest with
      | [] => .error .misuse
      | value :: rest =>
        if isValue value then do Options.read (← o.set s value) rest else .error .misuse

/-! ## Reports -/

/-- The failures behind a failure, each with its text: first itself, then what it was caused by. -/
def causes (e : Error) : List String :=
  let direct := match e.fault with
    | .read _ fault => [fault.message]
    | _ => []
  if e.isTraced then e.message :: e.fault.message :: direct else e.message :: direct

/-- A text whose later lines are indented. -/
def indented (indent : Nat) (text : String) : String :=
  String.ofList (replace ['\n'] ('\n' :: List.replicate indent ' ') text.toList)

/-- One cause of several, with its number. -/
def numbered (cause : Nat × String) : String :=
  s!"    {cause.1}: {indented 7 cause.2}\n"

/-- The report of a failure with its causes. -/
def report (headline : String) (causes : List String) : String :=
  let list := match causes with
    | [] => ""
    | [cause] => "\nCaused by:\n    " ++ indented 4 cause ++ "\n"
    | causes => "\nCaused by:\n" ++ String.join ((List.range causes.length |>.zip causes).map numbered)
  "Error: " ++ headline ++ "\n" ++ list

/-- A failed step of the program, by its headline. -/
structure Failure where
  headline : String
  causes : List String := []

/-- A step of the program that is named when it fails. -/
def during {α : Type} (headline : String) (outcome : Except Error α) : Except Failure α :=
  outcome.mapError fun e => { headline, causes := causes e }

/-- A step of the program whose failure stands for itself. -/
def bare {α : Type} (outcome : Except Error α) : Except Failure α :=
  outcome.mapError fun e => { headline := e.message, causes := (causes e).drop 1 }

/-! ## The program -/

/-- What the program leaves behind. -/
structure Outcome where
  code : Nat
  stdout : String := ""
  stderr : String := ""
deriving DecidableEq, Repr

/-- How the program is used. -/
def usage : String :=
  String.join <| List.map (· ++ "\n")
    ["Generate cross-linked markdown pages from templated doc comments",
      "",
      "Usage: docweave [OPTIONS]",
      "",
      "Options:",
      "  -c, --config <CONFIG>   Manifest file [default: markdoc.toml]",
      "  -o, --output <OUTPUT>   Output directory (overrides project.output_dir)",
      "  -j, --jobs <JOBS>       Worker threads (overrides project.parallelism)",
      "      --method <METHODS>  Only document these members, e.g. --method 'Billing::Invoice#total'. " ++
        "Can be specified multiple times",
      "      --stdout            Print pages to stdout instead of writing files",
      "  -h, --help              Print help"]

/-- The run that the options ask for, and the folder for its pages. -/
def prepare (o : Options) (files : FileTree) : Except Failure (Run × String) := do
  let config := o.config.getD usualConfig
  let m ← during ("failed to load manifest " ++ config) (Manifest.load files config)
  let subjects ← during "failed to collect subjects" (m.collect files)
  let registry ← during "failed to register subjects" (Registry.make subjects)
  let tokens ← bare m.tokens
  let wanted := if o.methods.isEmpty then m.project.methods else o.methods
  let methods ← during "invalid method filter" (methodFilter registry wanted)
  let run : Run :=
    { maker :=
        { workspace := { registry, root := m.project.root, links := m.links, tokens }
          catalogue := Directive.standard
          options := { sourceLinks := m.project.sourceLinks, methods } }
      workers := o.jobs.getD m.project.parallelism }
  return (run, o.output.getD m.outputPath)

/-- The text of all pages that are not empty. -/
def printed (tree : Page.Tree) : String :=
  String.join ((tree.pages.filter fun p => !p.isEmpty).map (·.text))

/-- Runs the program with some options. -/
def execute (o : Options) (files : FileTree) : Outcome × FileTree :=
  match prepare o files with
  | .error failure => ({ code := 1, stderr := report failure.headline failure.causes }, files)
  | .ok (run, output) =>
    let sink := if o.stdout then Sink.discard else .folder output
    let (outcome, session) := (run.tree sink).run { files }
    match during "documentation run failed" outcome with
    | .error failure => ({ code := 1, stderr := report failure.headline failure.causes }, session.files)
    | .ok tree => ({ code := 0, stdout := if o.stdout then printed tree else "" }, session.files)

/-- Runs the program with some arguments on some files. -/
def run (args : List String) (files : FileTree) : Outcome × FileTree :=
  match Options.read {} args with
  | .error .help => ({ code := 0, stdout := usage }, files)
  | .error .misuse => ({ code := 2, stderr := usage }, files)
  | .ok o => execute o files

end DocWeave.CommandLine
