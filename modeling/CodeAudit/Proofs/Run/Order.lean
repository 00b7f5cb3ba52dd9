import CodeAudit.Proofs.Path
import CodeAudit.Proofs.Run.Ending
/-!
# Reports in the order of registration

The report of a run that goes on after failures has one result for each analyzer that takes part,
and the issues of each of them that are about a file of the run, all in the order of registration.
-/
namespace CodeAudit

/-- The issues of an invocation that ends in time with issues; no others count. -/
def Invocation.found (timeout : Nat) : Invocation → List Issue
  | settles after (.issues found) => if after < timeout then found else []
  | _ => []

/-- The fault of an invocation that has `timeout` milliseconds: its own, that it broke off, or that its
time is over. -/
def Invocation.fault? (timeout : Nat) : Invocation → Option Fault
  | settles after ending =>
    if after < timeout then
      match ending with
      | .issues _ => none
      | .fault f => some f
      | .panic message task => some (panicFault message task)
    else some .timeout
  | awaitsCancellation => some .timeout
  | never => some .timeout

/-- An execution has the issues of its invocation and the fault of it. -/
lemma Execution.issues_and_fault_run (workspace : Workspace) (timeout : Nat) (files : List Path)
    (a : Analyzer) :
    (run workspace timeout files a).issues = (a.analyze workspace files).found timeout ∧
      (run workspace timeout files a).fault = (a.analyze workspace files).fault? timeout := by
  rw [run]
  cases a.analyze workspace files with
  | settles after ending =>
    rw [Invocation.settle]
    by_cases htime : after < timeout
    · rw [if_pos htime]
      cases ending with
      | issues found => exact ⟨(if_pos htime).symm, (if_pos htime).symm⟩
      | fault f => exact ⟨rfl, (if_pos htime).symm⟩
      | panic message task => exact ⟨rfl, (if_pos htime).symm⟩
    · rw [if_neg htime]
      cases ending with
      | issues found => exact ⟨(if_neg htime).symm, (if_neg htime).symm⟩
      | fault f => exact ⟨rfl, (if_neg htime).symm⟩
      | panic message task => exact ⟨rfl, (if_neg htime).symm⟩
  | awaitsCancellation => exact ⟨rfl, rfl⟩
  | never => exact ⟨rfl, rfl⟩

/-- An execution has the issues that its invocation is found with. -/
lemma Execution.issues_run (workspace : Workspace) (timeout : Nat) (files : List Path)
    (a : Analyzer) :
    (run workspace timeout files a).issues = (a.analyze workspace files).found timeout :=
  (issues_and_fault_run workspace timeout files a).1

/-- An execution has the fault of its invocation. -/
lemma Execution.fault_run (workspace : Workspace) (timeout : Nat) (files : List Path)
    (a : Analyzer) :
    (run workspace timeout files a).fault = (a.analyze workspace files).fault? timeout :=
  (issues_and_fault_run workspace timeout files a).2

/-- The result of an execution goes by the name of its analyzer. -/
lemma Execution.name_run (workspace : Workspace) (timeout : Nat) (files : List Path)
    (a : Analyzer) : (run workspace timeout files a).result.name = a.name := by
  rw [run]
  cases (a.analyze workspace files).settle timeout with
  | mk milliseconds outcome => cases outcome <;> rfl

namespace Orchestrator

variable {o : Orchestrator} {workspace : Workspace} {now : Timestamp} {paths : List Path}

/-- The executions of the analyzers that take part, in the order of registration. -/
def executions (o : Orchestrator) (workspace : Workspace) (paths : List Path) : List Execution :=
  (participants o.config o.registry).map fun r => (o.terms workspace paths).execute r.analyzer

/-- A run ends at the first failure if it is to do so, or has all executions. -/
lemma outcome_course_eq :
    (o.course workspace paths).outcome
      = match Course.abort? o.config.failFast (o.executions workspace paths) with
        | some error => .error error
        | none => .ok (o.executions workspace paths) := by
  rw [course, Course.outcome_run, flatten_batches]
  rfl

/-- A run with a failure that is to end it ends with an error and with nothing else. -/
lemma ends_iff_of_abort (hvalid : o.config.problem? = none) {error : RunError}
    (h : Course.abort? o.config.failFast (o.executions workspace paths) = some error)
    {result : Except RunError Report} :
    o.Ends workspace now paths result ↔ result = .error error := by
  have houtcome : (o.course workspace paths).outcome = .error error := by
    rw [outcome_course_eq, h]
  rw [ends_iff_result_execute, result_execute_of_error hvalid houtcome]
  exact eq_comm

/-- A run without a failure that is to end it ends with the report of all executions. -/
lemma ends_iff_of_no_abort (hvalid : o.config.problem? = none)
    (h : Course.abort? o.config.failFast (o.executions workspace paths) = none)
    {result : Except RunError Report} :
    o.Ends workspace now paths result ↔
      result = .ok (.assemble o.config o.templates workspace.files now (Path.distinct paths)
        (o.executions workspace paths) (o.course workspace paths).milliseconds) := by
  have houtcome : (o.course workspace paths).outcome = .ok (o.executions workspace paths) := by
    rw [outcome_course_eq, h]
  rw [ends_iff_result_execute, result_execute_of_ok hvalid houtcome]
  exact eq_comm

/-- A run that goes on after failures takes the time of the longest execution of each batch. -/
lemma milliseconds_course (hgoes : o.config.failFast = false) :
    (o.course workspace paths).milliseconds
      = ((batches o.config.batchSize (o.executions workspace paths)).map Course.longest).sum := by
  rw [course, hgoes, Course.milliseconds_run_false, executions, batches_map, List.map_map]
  rfl

/-- A run that goes on after failures ends with the report of all executions. -/
lemma ends_iff_of_goes_on (hvalid : o.config.problem? = none) (hgoes : o.config.failFast = false)
    {result : Except RunError Report} :
    o.Ends workspace now paths result ↔
      result = .ok (.assemble o.config o.templates workspace.files now (Path.distinct paths)
        (o.executions workspace paths)
        ((batches o.config.batchSize (o.executions workspace paths)).map Course.longest).sum) := by
  have hnone : Course.abort? o.config.failFast (o.executions workspace paths) = none := by
    rw [hgoes, Course.abort?_false]
  rw [ends_iff_of_no_abort hvalid hnone, milliseconds_course hgoes]

/-- A run that goes on after failures ends with one report. -/
lemma exists_ends_iff (workspace : Workspace) (now : Timestamp) (paths : List Path)
    (hvalid : o.config.problem? = none) (hgoes : o.config.failFast = false) :
    ∃ report, ∀ result, o.Ends workspace now paths result ↔ result = .ok report :=
  ⟨_, fun _ => ends_iff_of_goes_on hvalid hgoes⟩

/-- Whether a run is to end at a failure or not, its report is made of all executions. -/
lemma exists_eq_assemble_of_ends {report : Report} (h : o.Ends workspace now paths (.ok report)) :
    ∃ milliseconds, report = .assemble o.config o.templates workspace.files now
      (Path.distinct paths) (o.executions workspace paths) milliseconds := by
  cases h with
  | @reported s executions hvalid hreaches hanswer =>
    have houtcome := (course_of_answer hreaches hanswer).1
    rw [outcome_course_eq] at houtcome
    split at houtcome
    · exact absurd houtcome nofun
    · obtain rfl := Except.ok.inj houtcome
      exact ⟨_, rfl⟩

/-- A run that ends with a report has a good configuration. -/
lemma problem?_eq_none_of_ends {report : Report} (h : o.Ends workspace now paths (.ok report)) :
    o.config.problem? = none := by
  cases h with
  | reported hvalid => exact hvalid

/-- A report has the results and the issues in the order of registration, whatever the batches are
and in whatever order the invocations settle. -/
theorem report_in_order_of_registration (report : Report) (hgoes : o.config.failFast = false)
    (h : o.Ends workspace now paths (.ok report)) :
    report.analyzerResults.map AnalyzerResult.name
        = (participants o.config o.registry).map (·.analyzer.name) ∧
      report.analyzerResults = (participants o.config o.registry).map (fun r =>
        (Execution.run workspace o.config.timeoutMs (Path.distinct paths) r.analyzer).result) ∧
      report.issues = (participants o.config o.registry).flatMap fun r =>
        ((r.analyzer.analyze workspace (Path.distinct paths)).found o.config.timeoutMs).filter
          fun i => paths.any i.location.file.same := by
  rw [ends_iff_of_goes_on (problem?_eq_none_of_ends h) hgoes, Except.ok.injEq] at h
  subst h
  have hresults : (o.executions workspace paths).map Execution.result
      = (participants o.config o.registry).map fun r =>
        (Execution.run workspace o.config.timeoutMs (Path.distinct paths) r.analyzer).result := by
    rw [executions, List.map_map]
    rfl
  refine ⟨?_, hresults, ?_⟩
  · show ((o.executions workspace paths).map Execution.result).map AnalyzerResult.name = _
    rw [hresults, List.map_map]
    exact List.map_congr_left fun r _ => Execution.name_run ..
  · show (o.executions workspace paths).flatMap (·.kept (Path.distinct paths)) = _
    rw [executions, List.flatMap_map]
    refine List.flatMap_congr fun r _ => ?_
    -- the files of the run are the first ones of each path, which no question about a path tells
    rw [Execution.kept, terms, Terms.execute, Execution.issues_run, Path.distinct_eq_firsts]
    exact List.filter_congr fun i _ => Path.any_firsts id paths _

/-- A finding about the first line of a file. -/
def findingAt (id file : String) : Issue where
  id := id
  severity := .info
  message := id
  ruleId := "r"
  location := ⟨⟨file⟩, 1, 1⟩

/-- An analyzer whose invocations all go the same way. -/
def steadyAnalyzer (name : String) (invocation : Invocation) : Analyzer where
  name := name
  version := "1"
  prepare := .ok ()
  analyze _ _ := invocation
  cleanup := .ok ()

/-- Two analyzers to a batch: a slow one, one that cannot be built, a late one and a quick one. -/
def unevenOrchestrator : Orchestrator where
  config := { maxConcurrent := 2, timeoutMs := 100 }
  registry := ⟨[
    ("slow", fun _ => .ok (steadyAnalyzer "slow"
      (.settles 80 (.issues [findingAt "s1" "a.ts", findingAt "s2" "c.ts"])))),
    ("broken", fun _ => .error .timeout),
    ("late", fun _ => .ok (steadyAnalyzer "late" (.settles 100 (.issues [findingAt "l" "a.ts"])))),
    ("quick", fun _ => .ok (steadyAnalyzer "quick" (.settles 1 (.issues [findingAt "q" "./b.ts/"]))))]⟩

/-- A workspace without files and without grammars. -/
def emptyWorkspace : Workspace where
  files := .ofList []
  grammar _ _ := none

/-- The late analyzer has a result and no issues, and the slow one comes before the quick one. -/
theorem unevenOrchestrator_report_in_order :
    ∃ report, unevenOrchestrator.config.failFast = false ∧
      unevenOrchestrator.Ends emptyWorkspace default [⟨"a.ts"⟩, ⟨"./b.ts"⟩] (.ok report) ∧
      report.analyzerResults.map AnalyzerResult.name = ["slow", "late", "quick"] ∧
      report.issues = [findingAt "s1" "a.ts", findingAt "q" "./b.ts/"] := by
  obtain ⟨report, hends⟩ : ∃ report, unevenOrchestrator.Ends emptyWorkspace default
      [⟨"a.ts"⟩, ⟨"./b.ts"⟩] (.ok report) :=
    ⟨_, (ends_iff_of_goes_on rfl rfl).2 rfl⟩
  obtain ⟨hnames, -, hissues⟩ := report_in_order_of_registration _ rfl hends
  refine ⟨report, rfl, hends, ?_, ?_⟩
  · rw [hnames]
    rfl
  · rw [hissues]
    decide +kernel

end Orchestrator

end CodeAudit
