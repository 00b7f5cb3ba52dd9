import CodeAudit.Proofs.Run.Stages
/-!
# Clearing up

What clearing up comes to is looked at nowhere: a run gives the same record whatever its analyzers come
to when they clear up, so a failure there changes nothing.
-/
namespace CodeAudit

/-- The analyzer as it would be if clearing up came to something else. -/
def Analyzer.clearing (outcome : Analyzer → Except Fault Unit) (a : Analyzer) : Analyzer :=
  { a with cleanup := outcome a }

def ReadyAnalyzer.clearing (outcome : Analyzer → Except Fault Unit) (r : ReadyAnalyzer) :
    ReadyAnalyzer :=
  ⟨r.entry, r.analyzer.clearing outcome⟩

/-- A course follows from the executions of its analyzers. -/
lemma Course.run_map {execute : Analyzer → Execution} {f : ReadyAnalyzer → ReadyAnalyzer}
    (h : ∀ r, execute (f r).analyzer = execute r.analyzer) (failFast : Bool)
    (waiting : List (List ReadyAnalyzer)) :
    run failFast execute (waiting.map (List.map f))
      = { run failFast execute waiting with
          started := (run failFast execute waiting).started.map (List.map f) } := by
  induction waiting with
  | nil => rfl
  | cons batch rest ih =>
    have hbatch : (batch.map f).map (fun r => execute r.analyzer)
        = batch.map fun r => execute r.analyzer := by
      rw [List.map_map]
      exact List.map_congr_left fun r _ => h r
    rw [List.map_cons, run, run, hbatch, ih]
    cases abort? failFast (batch.map fun r => execute r.analyzer) <;> rfl

/-- The events of batches do not depend on what invocations do not depend on. -/
lemma courseEvents_map {workspace : Workspace} {files : List Path} {f : ReadyAnalyzer → ReadyAnalyzer}
    (h : ∀ batch r, invocationEvents workspace files batch (f r)
      = invocationEvents workspace files batch r) (course : Course) :
    courseEvents workspace files { course with started := course.started.map (List.map f) }
      = courseEvents workspace files course := by
  simp only [courseEvents, List.zipIdx_map, List.flatMap_map, Prod.map_fst, Prod.map_snd, id, h]

namespace Orchestrator

/-- The orchestrator as it would be if clearing up came to something else. -/
def clearing (o : Orchestrator) (outcome : Analyzer → Except Fault Unit) : Orchestrator :=
  { o with
    registry := ⟨o.registry.entries.map fun entry =>
      (entry.1, fun config => (entry.2 config).map (Analyzer.clearing outcome))⟩ }

variable {o : Orchestrator} {workspace : Workspace} {now : Timestamp} {paths : List Path}
  {outcome : Analyzer → Except Fault Unit}

/-- The same analyzers take part, but for what clearing up comes to. -/
lemma participants_clearing :
    participants (o.clearing outcome).config (o.clearing outcome).registry
      = (participants o.config o.registry).map (ReadyAnalyzer.clearing outcome) := by
  rw [participants, participants, List.map_filterMap]
  show (o.registry.entries.map _).filterMap (participant? o.config) = _
  rw [List.filterMap_map]
  refine List.filterMap_congr fun entry _ => ?_
  rw [Function.comp_apply, participant?_eq, participant?_eq]
  show ((entry.2 (o.config.settingsFor entry.1).config).map
    (Analyzer.clearing outcome)).toOption.bind _ = _
  cases entry.2 (o.config.settingsFor entry.1).config with
  | error fault => rfl
  | ok analyzer =>
    show (if (o.config.settingsFor entry.1).enabled ∧ analyzer.prepare.isOk then _ else _)
      = Option.map _ (if (o.config.settingsFor entry.1).enabled ∧ analyzer.prepare.isOk then _ else _)
    split <;> rfl

/-- The same is done to get the crew ready. -/
lemma setup_clearing : (o.clearing outcome).setup = o.setup := by
  rw [setup, setup, clearing, List.flatMap_map]
  refine List.flatMap_congr fun entry _ => ?_
  have hok : ((entry.2 (o.config.settingsFor entry.1).config).map (Analyzer.clearing outcome)).isOk
      = (entry.2 (o.config.settingsFor entry.1).config).isOk := by
    cases entry.2 (o.config.settingsFor entry.1).config <;> rfl
  simp only [RunConfig.setup, hok]

/-- The same batches are started, and they come to the same. -/
lemma course_clearing :
    (o.clearing outcome).course workspace paths
      = { o.course workspace paths with
          started := (o.course workspace paths).started.map
            (List.map (ReadyAnalyzer.clearing outcome)) } := by
  rw [course, participants_clearing, batches_map,
    Course.run_map (f := ReadyAnalyzer.clearing outcome) fun _ => rfl]
  rfl

/-- The same is done in the batches. -/
lemma events_clearing :
    courseEvents workspace (Path.distinct paths) ((o.clearing outcome).course workspace paths)
      = courseEvents workspace (Path.distinct paths) (o.course workspace paths) := by
  rw [course_clearing]
  exact courseEvents_map (f := ReadyAnalyzer.clearing outcome) (fun _ _ => rfl) _

/-- A run gives the same record whatever clearing up comes to. -/
lemma execute_clearing :
    (o.clearing outcome).execute workspace now paths = o.execute workspace now paths := by
  cases hproblem : o.config.problem? with
  | some problem =>
    have hproblem' : (o.clearing outcome).config.problem? = some problem := hproblem
    rw [execute_of_problem hproblem, execute_of_problem hproblem']
  | none =>
    rw [execute_of_valid hproblem, execute_of_valid (o := o.clearing outcome) hproblem,
      events_assemble, events_assemble, setup_clearing, events_clearing, participants_clearing,
      List.map_map, course_clearing]
    rfl

end Orchestrator

end CodeAudit
