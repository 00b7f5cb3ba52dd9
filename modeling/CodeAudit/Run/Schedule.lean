import CodeAudit.Analyzer.Basic
import CodeAudit.Report.Basic
import CodeAudit.Run.Error
/-!
# Schedules

The analyzers of a run are cut into batches. Those of a batch start together, and a batch starts when
the one before it has settled: when each of its invocations has ended or run out of time. An
invocation that runs out of time has its token cancelled and is left behind; nothing that it may come
to later is looked at. A run that ends at the first failure lets the batch settle in which that
failure is, and names the first analyzer of the batch that failed.
-/
namespace CodeAudit

/-- An analyzer that has been prepared, with the name it is registered under. -/
structure ReadyAnalyzer where
  entry : String
  analyzer : Analyzer

/-- What became of one invocation. -/
structure Execution where
  result : AnalyzerResult
  issues : List Issue
  fault : Option Fault
deriving Inhabited

namespace Invocation

/-- When an invocation settles that has `timeout` milliseconds, and what comes of it. -/
def settle (timeout : Nat) : Invocation → Nat × Except Fault (List Issue)
  | settles after ending =>
    if after < timeout then (after, ending.result) else (timeout, .error .timeout)
  | awaitsCancellation => (timeout, .error .timeout)
  | never => (timeout, .error .timeout)

/-- Whether an invocation notices that its token is cancelled when its time is over. -/
def noticesCancellation : Invocation → Bool
  | awaitsCancellation => true
  | _ => false

end Invocation

namespace Execution

/-- The record of an invocation of an analyzer that has settled. -/
def ofOutcome (a : Analyzer) (fileCount milliseconds : Nat) (outcome : Except Fault (List Issue)) :
    Execution :=
  match outcome with
  | .ok issues =>
    ⟨.succeeded a.name a.version milliseconds issues.length fileCount, issues, none⟩
  | .error fault => ⟨.failed a.name a.version milliseconds fault.text, [], some fault⟩

/-- Invokes an analyzer. -/
def run (workspace : Workspace) (timeout : Nat) (paths : List Path) (a : Analyzer) : Execution :=
  let (milliseconds, outcome) := (a.analyze workspace paths).settle timeout
  ofOutcome a paths.length milliseconds outcome

end Execution

/-- Cuts a list into pieces of `size` items, or of one if `size` is zero; the last may be shorter. -/
def batches {α : Type} (size : Nat) (items : List α) : List (List α) :=
  match items with
  | [] => []
  | first :: rest => (first :: rest.take (size - 1)) :: batches size (rest.drop (size - 1))
termination_by items.length
decreasing_by simp only [List.length_drop, List.length_cons]; omega

/-- The course of a run. -/
structure Course where
  /-- The batches that were started. -/
  started : List (List ReadyAnalyzer) := []
  /-- The time that it took. -/
  milliseconds : Nat := 0
  /-- What became of the invocations, in order; the error if the run ended at a failure. -/
  outcome : Except RunError (List Execution) := .ok []

namespace Course

/-- The failure that ends a run after a batch, if it is to end at the first. -/
def abort? (failFast : Bool) (settled : List Execution) : Option RunError :=
  if failFast then
    settled.findSome? fun e => e.fault.map fun fault => .analyzer e.result.name fault
  else none

/-- The time a batch takes, that of its longest invocation. -/
def longest (settled : List Execution) : Nat :=
  settled.foldl (fun most e => max most e.result.milliseconds) 0

/-- Runs batches one after the other. -/
def run (failFast : Bool) (execute : Analyzer → Execution) : List (List ReadyAnalyzer) → Course
  | [] => {}
  | batch :: rest =>
    let settled := batch.map fun r => execute r.analyzer
    match abort? failFast settled with
    | some error => ⟨[batch], longest settled, .error error⟩
    | none =>
      let more := run failFast execute rest
      { started := batch :: more.started
        milliseconds := longest settled + more.milliseconds
        outcome := more.outcome.map (settled ++ ·) }

end Course

end CodeAudit
