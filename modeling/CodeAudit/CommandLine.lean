import CodeAudit.Config.Document
import CodeAudit.Json.Print
import CodeAudit.Report.Codec
import CodeAudit.Run.Orchestrator
/-!
# The command line

The program takes a configuration document, a layout and the files to analyze, runs the analyzers
that come with it, and writes the report as JSON. The arguments are read one after the other, and the
first one that is wrong, or that asks for the version or for help, decides.
-/
namespace CodeAudit.CommandLine

/-- What a run is asked for. -/
structure Options where
  config : Option Path := none
  pretty : Bool := false
  files : List Path := []
deriving DecidableEq, Repr

/-- What the arguments ask for. -/
inductive Request where
  | run (options : Options)
  | version
  | help
  | badArguments
deriving DecidableEq, Repr

/-- The options with a configuration document, if there was none before and its path is not empty. -/
def Options.withConfig? (o : Options) (value : List Char) : Option Options :=
  if o.config.isSome ∨ value.isEmpty then none
  else some { o with config := some ⟨String.ofList value⟩ }

/-- The options with one more file, if its path is not empty. -/
def Options.withFile? (o : Options) (value : List Char) : Option Options :=
  if value.isEmpty then none else some { o with files := o.files ++ [⟨String.ofList value⟩] }

/-- The options with the indented layout, if it was not asked for before. -/
def Options.withPretty? (o : Options) : Option Options :=
  if o.pretty then none else some { o with pretty := true }

/-- Whether an argument is a value and not the name of an option; a single hyphen is a value. -/
def isValue : List Char → Bool
  | ['-'] => true
  | '-' :: _ => false
  | _ => true

/-- What an argument does. -/
inductive Action where
  /-- The options are these now. -/
  | proceed (options : Options)
  /-- The next argument is the path of the configuration document. -/
  | awaitConfig
  /-- All arguments after this one are files. -/
  | filesOnly
  /-- Nothing more is read. -/
  | stop (request : Request)

/-- Goes on with the options, if they are in order. -/
def Action.ofOptions : Option Options → Action
  | some o => proceed o
  | none => stop .badArguments

/-- The action of an option with a long name. -/
def longOption (o : Options) (text : List Char) : Action :=
  let name := String.ofList (text.takeWhile (· != '='))
  let value? : Option (List Char) :=
    match text.dropWhile (· != '=') with
    | '=' :: value => some value
    | _ => none
  match name, value? with
  | "config", some value => .ofOptions (o.withConfig? value)
  | "config", none => .awaitConfig
  | "pretty", none => .ofOptions o.withPretty?
  | "version", none => .stop .version
  | "help", none => .stop .help
  | _, _ => .stop .badArguments

/-- The action of an option with a short name; its value may follow at once or after `=`. -/
def shortOption (o : Options) : List Char → Action
  | ['c'] => .awaitConfig
  | 'c' :: '=' :: value => .ofOptions (o.withConfig? value)
  | 'c' :: value => .ofOptions (o.withConfig? value)
  | 'V' :: _ => .stop .version
  | 'h' :: _ => .stop .help
  | _ => .stop .badArguments

/-- The action of an argument. -/
def action (o : Options) (argument : List Char) : Action :=
  match argument with
  | ['-', '-'] => .filesOnly
  | '-' :: '-' :: text => longOption o text
  | ['-'] => .ofOptions (o.withFile? ['-'])
  | '-' :: text => shortOption o text
  | file => .ofOptions (o.withFile? file)

/-- Reads arguments of which all are files. -/
def readFiles (o : Options) : List (List Char) → Request
  | [] => if o.files.isEmpty then .badArguments else .run o
  | file :: rest =>
    match o.withFile? file with
    | some o => readFiles o rest
    | none => .badArguments

/-- Reads arguments; `awaiting` after an option whose value is to come. -/
def read (o : Options) (awaiting : Bool) : List (List Char) → Request
  | [] => if awaiting ∨ o.files.isEmpty then .badArguments else .run o
  | argument :: rest =>
    if awaiting then
      if isValue argument then
        match o.withConfig? argument with
        | some o => read o false rest
        | none => .badArguments
      else .badArguments
    else
      match action o argument with
      | .proceed o => read o false rest
      | .awaitConfig => read o true rest
      | .filesOnly => readFiles o rest
      | .stop request => request

/-- What the arguments ask for. -/
def Request.ofArguments (arguments : List String) : Request :=
  read {} false (arguments.map String.toList)

/-- The paths that a request reads, those of files named from a directory. -/
def Request.paths (directory : Path) : Request → List Path
  | run o => o.config.toList ++ o.files.map directory.absolute
  | _ => []

/-- What the program leaves behind. -/
structure Answer where
  exitCode : Int
  output : String := ""
  /-- What is wrong, for the person who called the program. -/
  complaint : Option String := none
deriving DecidableEq, Repr

/-- The name and version of the program. -/
def versionText : String := "audit-orchestrator 0.1.0\n"

/-- How the program is called. -/
def usageText : String :=
  "Usage: audit-orchestrator [--config <CONFIG>] [--pretty] <FILES>...\n"

/-- The answer of a run that has no report. -/
def Answer.ofError (e : RunError) : Answer where
  exitCode := 1
  complaint := some ("Error: " ++ e.text)

/-- The answer of a run with a report. -/
def Answer.ofReport (pretty : Bool) (r : Report) : Answer where
  exitCode := r.summary.exitCode
  output := (if pretty then Json.indented r.toJson else Json.compact r.toJson) ++ "\n"

/-- Runs the analyzers that come with the program over some files, named from a directory. -/
def runOptions (workspace : Workspace) (directory : Path) (now : Timestamp) (o : Options) :
    Except RunError Report := do
  let config ←
    match o.config with
    | some path => RunConfig.load workspace.files path
    | none => pure {}
  let orchestrator : Orchestrator := { config, registry := Registry.builtin }
  (orchestrator.execute workspace now (o.files.map directory.absolute)).result

/-- What the program does with some arguments. -/
def answer (workspace : Workspace) (directory : Path) (now : Timestamp) (arguments : List String) :
    Answer :=
  match Request.ofArguments arguments with
  | .run o =>
    match runOptions workspace directory now o with
    | .ok report => .ofReport o.pretty report
    | .error e => .ofError e
  | .version => { exitCode := 0, output := versionText }
  | .help => { exitCode := 0, output := usageText }
  | .badArguments => { exitCode := 2, complaint := some ("error: bad arguments\n\n" ++ usageText) }

end CodeAudit.CommandLine
