import CodeAudit.Analyzer.Fault
import CodeAudit.FileSystem.Basic
import CodeAudit.Issue.Basic
import CodeAudit.Metrics.Analyzer
import CodeAudit.Text.Quoted
/-!
# Analyzers

An analyzer is built from its configuration, prepared once, and then asked for the issues of some
files. An invocation is described by how it would go if it were left alone: when it comes to an end
on the clock of the run, and with what. What an invocation comes to may depend on the files, on the
configuration and on its own cancellation, and on nothing else; its time and the number of its task
are those of one run.
-/
namespace CodeAudit

/-- How an invocation ends. -/
inductive Ending where
  | issues (found : List Issue)
  | fault (f : Fault)
  /-- The invocation broke off, with a message if it left one that can be shown. The number of its
  task is given out by the runtime, anew in each run. -/
  | panic (message : Option String) (task : Option Nat := none)
deriving Inhabited

/-- What the runtime says of a task that broke off; a number that is left open is shown as `N`. -/
def abortText (message : Option String) (task : Option Nat) : String :=
  let start := "task " ++ task.elim "N" toString ++ " panicked"
  match message with
  | some message => start ++ " with message " ++ Text.quoted message
  | none => start

/-- The fault of an invocation that broke off. -/
def panicFault (message : Option String) (task : Option Nat) : Fault :=
  .execution ("plugin task aborted: " ++ abortText message task)

/-- The issues of an invocation that has ended, or its fault. -/
def Ending.result : Ending → Except Fault (List Issue)
  | issues found => .ok found
  | fault f => .error f
  | panic message task => .error (panicFault message task)

/-- How an invocation goes if it is left alone. -/
inductive Invocation where
  /-- It ends after some milliseconds. -/
  | settles (after : Nat) (ending : Ending)
  /-- It ends when its token is cancelled. -/
  | awaitsCancellation
  /-- It does not end in any time. -/
  | never
deriving Inhabited

/-- What analyzers work on: the files, and the grammars of the languages. -/
structure Workspace where
  files : FileSystem
  grammar : Grammar

/-- An analyzer that has been built from a configuration. -/
structure Analyzer where
  /-- The name that its results go by. -/
  name : String
  version : String
  /-- What its preparation comes to. -/
  prepare : Except Fault Unit
  /-- How it goes about some files; only asked after a preparation that succeeded. -/
  analyze : Workspace → List Path → Invocation
  /-- What clearing up after it comes to. -/
  cleanup : Except Fault Unit

/-- Builds an analyzer from its configuration. -/
abbrev Factory := Json → Except Fault Analyzer

/-- The metrics analyzer as one of the analyzers of a run. -/
def MetricsAnalyzer.toAnalyzer (a : MetricsAnalyzer) : Analyzer where
  name := MetricsAnalyzer.name
  version := MetricsAnalyzer.version
  prepare := a.prepare.1
  analyze workspace paths :=
    .settles 0 <|
      match a.prepare.2.analyze workspace.files workspace.grammar MetricsAnalyzer.name
          CancelToken.fresh.answers paths with
      | .ok found => .issues found
      | .error fault => .fault fault
  cleanup := .ok ()

/-- Builds the metrics analyzer. -/
def MetricsAnalyzer.factory : Factory :=
  fun config => .ok (MetricsAnalyzer.ofJson config).toAnalyzer

end CodeAudit
