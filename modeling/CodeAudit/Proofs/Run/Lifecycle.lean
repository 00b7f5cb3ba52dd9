import CodeAudit.Proofs.Run.Calls
import CodeAudit.Proofs.Run.Clearing
import CodeAudit.Proofs.Run.Records
/-!
# The life of the analyzers of a run

In every run each entry that is enabled has its factory called once, what was built is prepared once,
and what was prepared is invoked at most once and clears up once, after all invocations have settled
and whatever the run ends with. Every run of an orchestrator begins anew, whatever ran before.
-/
namespace CodeAudit

namespace Orchestrator

variable {o : Orchestrator} {workspace : Workspace} {now : Timestamp} {paths : List Path}
  {seen : List Occurrence} {s : Progress}

/-- What holds of all that is seen of a run from its beginning to its end. -/
structure Lifecycle (o : Orchestrator) (seen : List Occurrence) : Prop where
  /-- The factory of each entry that is enabled is called once, in order, with its configuration. -/
  built : (Occurrence.events seen).filterMap Event.built?
    = o.enabledEntries.map fun entry => (entry.1, o.valueFor entry.1)
  /-- What could be built is prepared once, in order. -/
  prepared : (Occurrence.events seen).filterMap Event.prepared?
    = (o.enabledEntries.filter fun entry => (entry.2 (o.valueFor entry.1)).isOk).map Prod.fst
  prompt : ∀ before name after, seen = before ++ .event (.prepared name) :: after →
    ∃ front settings, before = front ++ [.event (.built name settings)]
  /-- Only what has been prepared is invoked, and only once. -/
  invoked : ∀ before place after, seen = before ++ .moment (.starts place) :: after →
    ∃ r, (participants o.config o.registry)[place]? = some r ∧ .event (.prepared r.entry) ∈ before
  once : ∀ place, (Occurrence.moments seen).count (.starts place) ≤ 1
  /-- What takes part clears up once, in order. -/
  cleaned : (Occurrence.events seen).filterMap Event.cleaned?
    = (participants o.config o.registry).map ReadyAnalyzer.entry
  settled : ∀ before name after, seen = before ++ .event (.cleaned name) :: after →
    unsettled (Occurrence.moments before) = [] ∧ Occurrence.moments after = []
  /-- What does not take part is neither invoked nor does it clear up. -/
  left_out : ∀ name, (∀ entry ∈ o.registry.entries, entry.1 = name →
      participant? o.config entry = none) →
    .event (.cleaned name) ∉ seen ∧ ∀ place r, .moment (.starts place) ∈ seen →
      (participants o.config o.registry)[place]? = some r → r.entry ≠ name

/-- All that is seen of a run that is over is a life of its analyzers. -/
lemma Lives.lifecycle (h : o.Lives workspace paths seen (.clearing [] s)) : o.Lifecycle seen := by
  obtain ⟨trace, hrecorded, hanswer, rfl⟩ := h.seen_eq
  have hdisciplined := hrecorded.disciplined
  have hcleaned : (Occurrence.events (o.setup.map .event ++ trace.map .moment
      ++ (cleanups (participants o.config o.registry)).map .event)).filterMap Event.cleaned?
      = (participants o.config o.registry).map ReadyAnalyzer.entry := by
    rw [events_seen, List.filterMap_append, filterMap_cleaned?_setup, List.nil_append,
      filterMap_cleaned?_cleanups]
  have hplace {place : Nat} (hmem : .starts place ∈ trace) :
      ∃ r, (participants o.config o.registry)[place]? = some r :=
    ⟨_, List.getElem?_eq_getElem (hdisciplined.places place hmem)⟩
  constructor
  case built =>
    rw [events_seen, List.filterMap_append, filterMap_built?_setup,
      filterMap_cleanups (fun _ => rfl), List.append_nil]
  case prepared =>
    rw [events_seen, List.filterMap_append, filterMap_prepared?_setup,
      filterMap_cleanups (fun _ => rfl), List.append_nil]
  case prompt => exact fun _ _ _ => exists_built_of_seen
  case invoked =>
    intro before place after hseen
    obtain ⟨hmem, hsetup⟩ := setup_subset_of_seen hseen
    obtain ⟨r, hr⟩ := hplace hmem
    exact ⟨r, hr, hsetup _ (prepared_mem_setup (List.mem_of_getElem? hr))⟩
  case once =>
    intro place
    rw [moments_seen]
    exact hdisciplined.once _
  case cleaned => exact hcleaned
  case settled =>
    intro before name after hseen
    obtain ⟨hbefore, hafter⟩ := moments_of_seen hseen
    rw [hbefore]
    exact ⟨(hdisciplined.finished hanswer).1, hafter⟩
  case left_out =>
    intro name hnone
    have hne : ∀ r ∈ participants o.config o.registry, r.entry ≠ name := by
      intro r hr hname
      obtain ⟨entry, hentry, hr⟩ := List.mem_filterMap.1 hr
      have hnone := hnone entry hentry ((entry_of_participant? hr).symm.trans hname)
      exact absurd (hr.symm.trans hnone) (Option.some_ne_none r)
    refine ⟨fun hmem => ?_, fun place r _ hr => hne r (List.mem_of_getElem? hr)⟩
    have hevent : .cleaned name ∈ Occurrence.events _ := List.mem_filterMap.2 ⟨_, hmem, rfl⟩
    have hname : name ∈ (Occurrence.events _).filterMap Event.cleaned? :=
      List.mem_filterMap.2 ⟨_, hevent, rfl⟩
    rw [hcleaned] at hname
    obtain ⟨r, hr, hentry⟩ := List.mem_map.1 hname
    exact hne r hr hentry

/-- How a run of an orchestrator goes that leaves the given record. -/
structure Conducted (o : Orchestrator) (workspace : Workspace) (now : Timestamp) (paths : List Path)
    (record : RunRecord) : Prop where
  /-- If the configuration is bad, nothing is done to any analyzer. -/
  refused : o.config.problem? ≠ none →
    record.events = [] ∧ ∀ seen stage, ¬ o.Lives workspace paths seen stage
  begins : o.config.problem? = none → o.Lives workspace paths [] (.preparing o.registry.entries {})
  goes_on : ∀ seen stage, o.Lives workspace paths seen stage →
    ∃ more s, o.Lives workspace paths (seen ++ more) (.clearing [] s)
  lifecycle : ∀ seen s, o.Lives workspace paths seen (.clearing [] s) → o.Lifecycle seen
  calls : ∀ seen s, o.Lives workspace paths seen (.clearing [] s) →
    record.events.filter (fun e => !e.isInvocation) = Occurrence.events seen
  /-- The run ends with the answer that it has come to, a report or the failure that ended it. -/
  answer : ∀ seen s, o.Lives workspace paths seen (.clearing [] s) →
    ∃ answer, s.answer = some answer ∧ record.result = answer.map fun executions =>
      .assemble o.config o.templates workspace.files now (Path.distinct paths) executions
        s.milliseconds
  invoked : record.events.filterMap Event.invoked?
    <+: (participants o.config o.registry).map ReadyAnalyzer.entry
  /-- What does not take part has no result. -/
  results : ∀ report, record.result = .ok report →
    report.analyzerResults = (participants o.config o.registry).map fun r =>
      ((o.terms workspace paths).execute r.analyzer).result
  /-- What clearing up comes to changes nothing. -/
  clearing : ∀ outcome, (o.clearing outcome).execute workspace now paths = record

/-- Nothing is done to the analyzers if the configuration is bad. -/
lemma events_execute_of_problem (h : o.config.problem? ≠ none) :
    (o.execute workspace now paths).events = [] := by
  obtain ⟨problem, hproblem⟩ := Option.ne_none_iff_exists'.1 h
  rw [execute_of_problem hproblem]

/-- The analyzers that are invoked are the first ones of those that take part. -/
lemma invoked_execute_prefix :
    (o.execute workspace now paths).events.filterMap Event.invoked?
      <+: (participants o.config o.registry).map ReadyAnalyzer.entry := by
  by_cases hvalid : o.config.problem? = none
  · rw [invoked_execute hvalid]
    exact started_course_prefix.map _
  · rw [events_execute_of_problem hvalid]
    exact List.nil_prefix

/-- A run that is over has its answer, and its record has the result of that. -/
lemma Lives.result_execute (h : o.Lives workspace paths seen (.clearing [] s)) :
    ∃ answer, s.answer = some answer ∧
      (o.execute workspace now paths).result = answer.map fun executions =>
        .assemble o.config o.templates workspace.files now (Path.distinct paths) executions
          s.milliseconds := by
  obtain ⟨trace, hrecorded, hanswer, -⟩ := h.seen_eq
  obtain ⟨answer, hs⟩ := Option.ne_none_iff_exists'.1 hanswer
  obtain ⟨houtcome, hmilliseconds⟩ := course_of_answer hrecorded.reaches hs
  refine ⟨answer, hs, ?_⟩
  rw [execute_of_valid h.problem?_eq_none, ← houtcome, ← hmilliseconds]

/-- A run goes as its record says. -/
lemma conducted_execute (o : Orchestrator) (workspace : Workspace) (now : Timestamp)
    (paths : List Path) : o.Conducted workspace now paths (o.execute workspace now paths) where
  refused h := ⟨events_execute_of_problem h, fun _ _ hlives => h hlives.problem?_eq_none⟩
  begins := .outset
  goes_on _ _ h := h.exists_complete
  lifecycle _ _ h := h.lifecycle
  calls seen s h := by
    obtain ⟨trace, -, -, rfl⟩ := h.seen_eq
    rw [calls_execute h.problem?_eq_none, events_seen]
  answer _ _ h := h.result_execute
  invoked := invoked_execute_prefix
  results report h := by
    rw [results_of_ends (ends_iff_result_execute.2 h), executions, List.map_map]
    rfl
  clearing _ := execute_clearing

/-- What one of several runs is given. The factories may behave anew in each. -/
structure Visit where
  behaviour : String → Factory
  workspace : Workspace
  now : Timestamp
  paths : List Path

/-- The orchestrator with other factories under the names of its registry. -/
def behaving (o : Orchestrator) (behaviour : String → Factory) : Orchestrator :=
  { o with registry := ⟨o.registry.names.map fun name => (name, behaviour name)⟩ }

/-- Runs one after the other, and the orchestrator after them. -/
def runs (o : Orchestrator) : List Visit → List RunRecord × Orchestrator
  | [] => ([], o)
  | v :: rest =>
    let (record, next) := (o.behaving v.behaviour).run v.workspace v.now v.paths
    let (records, last) := next.runs rest
    (record :: records, last)

/-- Other factories leave the names of a registry as they are. -/
lemma names_behaving (o : Orchestrator) (behaviour : String → Factory) :
    (o.behaving behaviour).registry.names = o.registry.names := by
  rw [Registry.names, behaving, List.map_map]
  exact List.map_id _

/-- A run leaves an orchestrator that runs as the one before it. -/
lemma execute_behaving_run (o : Orchestrator) (v v' : Visit) :
    (((o.behaving v.behaviour).run v.workspace v.now v.paths).2.behaving v'.behaviour).execute
        v'.workspace v'.now v'.paths
      = (o.behaving v'.behaviour).execute v'.workspace v'.now v'.paths := by
  have hregistry : (((o.behaving v.behaviour).run v.workspace v.now v.paths).2.behaving
      v'.behaviour).registry = (o.behaving v'.behaviour).registry := by
    show Registry.mk ((o.behaving v.behaviour).registry.names.map _) = _
    rw [names_behaving]
    rfl
  rw [execute, execute, hregistry]
  rfl

/-- No run depends on those before it. -/
lemma runs_eq (o : Orchestrator) (visits : List Visit) :
    (o.runs visits).1
      = visits.map fun v => (o.behaving v.behaviour).execute v.workspace v.now v.paths := by
  induction visits generalizing o with
  | nil => rfl
  | cons v rest ih =>
    rw [List.map_cons, runs]
    exact congrArg (_ :: ·) ((ih _).trans (List.map_congr_left fun v' _ =>
      execute_behaving_run o v v'))

/-- In every sequence of runs each run takes its analyzers through their whole life, whatever the
analyzers do in it and in whatever order its invocations settle. -/
theorem conducted_runs (o : Orchestrator) (visits : List Visit) :
    List.Forall₂ (fun v record =>
      (o.behaving v.behaviour).Conducted v.workspace v.now v.paths record) visits
      (o.runs visits).1 := by
  rw [runs_eq, List.forall₂_map_right_iff, List.forall₂_same]
  exact fun v _ => conducted_execute ..

/-- An orchestrator that ends at the first failure, with an entry for each way to fall out of a run. -/
def mixedOrchestrator : Orchestrator where
  config :=
    { analyzers := [("idle", { enabled := false }), ("sound", { config := .bool true })]
      failFast := true
      maxConcurrent := 2 }
  registry := ⟨["idle", "sound", "unbuilt", "unready", "faulty", "late"].map fun name =>
    (name, fun _ => .error .timeout)⟩

/-- An analyzer of the mixed orchestrator that has been prepared. -/
def mixedWorker (name : String) : ReadyAnalyzer :=
  ⟨name, steadyAnalyzer name (if name = "faulty" then .settles 1 (.fault (.execution "stop"))
    else .settles 2 (.issues []))⟩

/-- How the entries behave in a run: one cannot be built, one cannot be prepared, and one fails. -/
def mixedBehaviour (name : String) : Factory := fun _ =>
  if name = "unbuilt" then .error .timeout
  else if name = "unready" then
    .ok { steadyAnalyzer name (.settles 1 (.issues [])) with prepare := .error .timeout }
  else .ok (mixedWorker name).analyzer

/-- Two runs of it, in the first of which nothing can be built. -/
def mixedVisits : List Visit :=
  [⟨fun _ _ => .error .timeout, emptyWorkspace, default, []⟩,
    ⟨mixedBehaviour, emptyWorkspace, default, []⟩]

/-- In the second run a failure ends the first batch. The late analyzer is not invoked any more, and
clears up with the two that are. -/
theorem mixedOrchestrator_conducted :
    ∃ first second, (mixedOrchestrator.runs mixedVisits).1 = [first, second] ∧
      second.result = .error (.analyzer "faulty" (.execution "stop")) ∧
      second.events.filterMap Event.invoked? = ["sound", "faulty"] ∧
      ∃ seen s, (mixedOrchestrator.behaving mixedBehaviour).Lives emptyWorkspace [] seen
          (.clearing [] s) ∧
        (mixedOrchestrator.behaving mixedBehaviour).Lifecycle seen ∧
        Occurrence.events seen =
          [.built "sound" (.bool true), .prepared "sound", .built "unbuilt" .null,
            .built "unready" .null, .prepared "unready", .built "faulty" .null, .prepared "faulty",
            .built "late" .null, .prepared "late", .cleaned "sound", .cleaned "faulty",
            .cleaned "late"] := by
  have hconducted := conducted_runs mixedOrchestrator mixedVisits
  have hruns := mixedOrchestrator.runs_eq mixedVisits
  rw [hruns] at hconducted
  obtain ⟨-, hconducted⟩ := List.forall₂_cons.1 hconducted
  obtain ⟨hsecond, -⟩ := List.forall₂_cons.1 hconducted
  obtain ⟨seen, s, hlives⟩ := hsecond.goes_on _ _ (hsecond.begins rfl)
  have hready : participants mixedOrchestrator.config
        (mixedOrchestrator.behaving mixedBehaviour).registry
      = ["sound", "faulty", "late"].map mixedWorker := rfl
  have hcourse : (mixedOrchestrator.behaving mixedBehaviour).course emptyWorkspace []
      = Course.run true (Execution.run emptyWorkspace 300000 [])
        [["sound", "faulty"].map mixedWorker, ["late"].map mixedWorker] := by
    rw [course]
    show Course.run true _ (batches 2 (participants mixedOrchestrator.config _)) = _
    rw [hready]
    simp [batches]
    rfl
  refine ⟨_, _, hruns, ?_, ?_, _, s, hlives, hsecond.lifecycle _ _ hlives, ?_⟩
  · show ((mixedOrchestrator.behaving mixedBehaviour).execute _ _ _).result = _
    rw [execute_of_valid rfl, hcourse]
    rfl
  · show ((mixedOrchestrator.behaving mixedBehaviour).execute _ _ _).events.filterMap _ = _
    rw [invoked_execute rfl, hcourse]
    rfl
  · rw [← hsecond.calls _ _ hlives]
    exact calls_execute rfl

end Orchestrator

end CodeAudit
