import CodeAudit.Run.Assembly
import CodeAudit.Run.Registry
/-!
# The orchestrator

The orchestrator takes a run through its phases: it builds and prepares the analyzers, has them
analyze the files, and assembles the report. Every run builds its analyzers anew. What a run does to
the analyzers is kept as a list of events.
-/
namespace CodeAudit

/-- Where an orchestrator stands. -/
inductive Phase where
  | idle
  | preparing
  | executing
  | aggregating
  | done
deriving DecidableEq, Repr, Inhabited

def Phase.name : Phase → String
  | idle => "idle"
  | preparing => "initializing"
  | executing => "executing"
  | aggregating => "aggregating"
  | done => "done"

/-- Something that a run does to the analyzer of a registry entry. -/
inductive Event where
  /-- Its factory was called with a configuration. -/
  | built (entry : String) (config : Json)
  /-- It was asked to prepare. -/
  | prepared (entry : String)
  /-- It was invoked, in the batch with the given number. -/
  | invoked (entry : String) (batch : Nat)
  /-- Its invocation ran out of time and noticed that its token was cancelled. -/
  | noticed (entry : String)
  /-- It was asked to clear up. -/
  | cleaned (entry : String)
deriving Inhabited

/-- The analyzers that take part in a run, and what was done to get them ready. -/
structure Crew where
  ready : List ReadyAnalyzer := []
  events : List Event := []
deriving Inhabited

namespace Crew

/-- Builds and prepares the analyzer of an entry, if it is enabled; one that fails is left out. -/
def enlist (config : RunConfig) (crew : Crew) (entry : String × Factory) : Crew :=
  let (name, factory) := entry
  let settings := config.settingsFor name
  if !settings.enabled then crew
  else
    let events := crew.events ++ [.built name settings.config]
    match factory settings.config with
    | .error _ => { crew with events }
    | .ok analyzer =>
      let events := events ++ [.prepared name]
      match analyzer.prepare with
      | .error _ => { crew with events }
      | .ok () => { ready := crew.ready ++ [⟨name, analyzer⟩], events }

/-- The crew of a run. -/
def assemble (config : RunConfig) (registry : Registry) : Crew :=
  registry.entries.foldl (enlist config) {}

end Crew

/-- The events of an invocation. -/
def invocationEvents (workspace : Workspace) (files : List Path) (batch : Nat)
    (r : ReadyAnalyzer) : List Event :=
  .invoked r.entry batch ::
    if (r.analyzer.analyze workspace files).noticesCancellation then [.noticed r.entry] else []

/-- The events of the batches that were started. -/
def courseEvents (workspace : Workspace) (files : List Path) (course : Course) : List Event :=
  course.started.zipIdx.flatMap fun (batch, index) =>
    batch.flatMap (invocationEvents workspace files index)

/-- An orchestrator. -/
structure Orchestrator where
  config : RunConfig
  registry : Registry
  templates : List RecommendationTemplate := RecommendationTemplate.defaults
  phase : Phase := .idle

/-- What a run comes to. -/
structure RunRecord where
  result : Except RunError Report
  /-- The phases that the run went through. -/
  phases : List Phase
  events : List Event
  milliseconds : Nat

namespace Orchestrator

/-- Runs the analyzers over some files; a file that is listed again is passed over. -/
def execute (o : Orchestrator) (workspace : Workspace) (now : Timestamp) (paths : List Path) :
    RunRecord :=
  match o.config.problem? with
  | some problem =>
    { result := .error (.configuration problem.message)
      phases := []
      events := []
      milliseconds := 0 }
  | none =>
    let files := Path.distinct paths
    let crew := Crew.assemble o.config o.registry
    let course :=
      Course.run o.config.failFast (Execution.run workspace o.config.timeoutMs files)
        (batches o.config.batchSize crew.ready)
    let events :=
      crew.events ++ courseEvents workspace files course ++ crew.ready.map fun r => .cleaned r.entry
    match course.outcome with
    | .error error =>
      { result := .error error
        phases := [.preparing, .executing, .done]
        events
        milliseconds := course.milliseconds }
    | .ok executions =>
      { result :=
          .ok (.assemble o.config o.templates workspace.files now files executions
            course.milliseconds)
        phases := [.preparing, .executing, .aggregating, .done]
        events
        milliseconds := course.milliseconds }

/-- Runs the analyzers and moves on to the last phase of the run. -/
def run (o : Orchestrator) (workspace : Workspace) (now : Timestamp) (paths : List Path) :
    RunRecord × Orchestrator :=
  let record := o.execute workspace now paths
  (record, { o with phase := record.phases.getLast?.getD o.phase })

end Orchestrator

end CodeAudit
