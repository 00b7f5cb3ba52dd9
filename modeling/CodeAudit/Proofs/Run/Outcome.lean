import CodeAudit.Proofs.Run.Records
/-!
# What a report says of failures

An analyzer is reported as failed exactly if its invocation failed, broke off or was late, and then it
has nothing to show. The exit code of a run is read off the reported failures and the issues that are
kept. What was left out, be it an analyzer or an issue about another file, has no part in it.
-/
namespace CodeAudit

namespace Invocation

/-- An invocation that has `timeout` milliseconds fails: with a fault of its own, because it breaks off,
or because its time is over. -/
inductive Fails (timeout : Nat) : Invocation → Fault → Prop where
  | fault {after f} : after < timeout → Fails timeout (.settles after (.fault f)) f
  | panic {after message task} :
    after < timeout → Fails timeout (.settles after (.panic message task)) (panicFault message task)
  | late {invocation} : ¬ invocation.EndsWithin timeout → Fails timeout invocation .timeout

/-- An invocation that has `timeout` milliseconds ends in time with some issues. -/
inductive Returns (timeout : Nat) : Invocation → List Issue → Prop where
  | issues {after found} : after < timeout → Returns timeout (.settles after (.issues found)) found

variable {timeout : Nat} {invocation : Invocation}

/-- An invocation that fails settles with its fault. -/
lemma Fails.settle {fault : Fault} (h : invocation.Fails timeout fault) :
    (invocation.settle timeout).2 = .error fault := by
  cases h with
  | fault htime =>
    rw [Invocation.settle, if_pos htime]
    rfl
  | panic htime =>
    rw [Invocation.settle, if_pos htime]
    rfl
  | late hlate => rw [settle_of_late hlate]

/-- An invocation that ends with issues settles with them. -/
lemma Returns.settle {found : List Issue} (h : invocation.Returns timeout found) :
    (invocation.settle timeout).2 = .ok found := by
  cases h with
  | issues htime =>
    rw [Invocation.settle, if_pos htime]
    rfl

/-- An invocation ends with issues or fails. -/
lemma returns_or_fails (timeout : Nat) (invocation : Invocation) :
    (∃ found, invocation.Returns timeout found) ∨ ∃ fault, invocation.Fails timeout fault := by
  by_cases htime : invocation.EndsWithin timeout
  · cases invocation with
    | settles after ending =>
      cases ending with
      | issues found => exact .inl ⟨found, .issues htime⟩
      | fault f => exact .inr ⟨f, .fault htime⟩
      | panic message task => exact .inr ⟨_, .panic htime⟩
    | awaitsCancellation => exact htime.elim
    | never => exact htime.elim
  · exact .inr ⟨_, .late htime⟩

/-- The result of an analyzer and its issues in a report say what became of its invocation. -/
structure Reported (timeout fileCount : Nat) (isInside : Issue → Bool) (invocation : Invocation)
    (result : AnalyzerResult) (issues : List Issue) : Prop where
  failed_iff : result.status = .failed ↔ ∃ fault, invocation.Fails timeout fault
  failed : ∀ fault, invocation.Fails timeout fault →
    result.issuesFound = 0 ∧ result.filesProcessed = 0 ∧ result.error = some fault.text ∧ issues = []
  succeeded : result.status = .success →
    result.error = none ∧ result.filesProcessed = fileCount ∧
      ∃ found, invocation.Returns timeout found ∧ result.issuesFound = found.length ∧
        issues = found.filter isInside

end Invocation

/-- An execution reports what became of its invocation. -/
lemma Terms.reported_execute (t : Terms) (a : Analyzer) :
    (a.analyze t.workspace t.files).Reported t.timeout t.files.length
      (fun i => t.files.any i.location.file.same) (t.execute a).result
      ((t.execute a).kept t.files) := by
  obtain ⟨found, hreturns⟩ | ⟨fault, hfails⟩ :=
    (a.analyze t.workspace t.files).returns_or_fails t.timeout
  · have hnot : ¬ ∃ fault, (a.analyze t.workspace t.files).Fails t.timeout fault := by
      rintro ⟨fault, hfails⟩
      exact absurd (hreturns.settle.symm.trans hfails.settle) nofun
    rw [execute_eq, hreturns.settle]
    refine ⟨⟨nofun, fun hfails => absurd hfails hnot⟩, fun fault hfails => ?_, fun _ => ?_⟩
    · exact absurd ⟨fault, hfails⟩ hnot
    · exact ⟨rfl, rfl, found, hreturns, rfl, rfl⟩
  · rw [execute_eq, hfails.settle]
    refine ⟨⟨fun _ => ⟨fault, hfails⟩, fun _ => rfl⟩, fun other hother => ?_, nofun⟩
    obtain rfl := Except.error.inj (hfails.settle.symm.trans hother.settle)
    exact ⟨rfl, rfl, rfl, rfl⟩

namespace Score

variable {anyFailed : Bool} {counts : SeverityCounts}

/-- The exit code is two exactly if an analyzer failed. -/
lemma exitCode_eq_two_iff : exitCode anyFailed counts = 2 ↔ anyFailed = true := by
  by_cases herror : 0 < counts.error <;> cases anyFailed <;> simp [exitCode, herror]

/-- The exit code is one exactly if no analyzer failed and an issue is an error. -/
lemma exitCode_eq_one_iff :
    exitCode anyFailed counts = 1 ↔ anyFailed = false ∧ 0 < counts.error := by
  by_cases herror : 0 < counts.error <;> cases anyFailed <;> simp [exitCode, herror]

/-- The exit code is zero exactly if no analyzer failed and no issue is an error. -/
lemma exitCode_eq_zero_iff :
    exitCode anyFailed counts = 0 ↔ anyFailed = false ∧ ¬ 0 < counts.error := by
  by_cases herror : 0 < counts.error <;> cases anyFailed <;> simp [exitCode, herror]

/-- A run is a success exactly if no analyzer failed and no issue is an error. -/
lemma runStatus_eq_success_iff :
    runStatus anyFailed counts = .success ↔ anyFailed = false ∧ ¬ 0 < counts.error := by
  by_cases herror : 0 < counts.error <;> cases anyFailed <;> simp [runStatus, herror]

end Score

/-- The invocation as it would be if it had found only the issues that pass a test. -/
def Invocation.confine (keep : Issue → Bool) : Invocation → Invocation
  | settles after (.issues found) => .settles after (.issues (found.filter keep))
  | invocation => invocation

/-- The analyzer as it would be if it had no issues about files that it is not asked about. -/
def Analyzer.confined (a : Analyzer) : Analyzer :=
  { a with
    analyze := fun workspace files =>
      (a.analyze workspace files).confine fun i => files.any i.location.file.same }

/-- The execution without issues about other files. -/
def Execution.confined (files : List Path) (e : Execution) : Execution :=
  { e with
    result := { e.result with issuesFound := (e.kept files).length }
    issues := e.kept files }

/-- A confined invocation settles when it did, with the issues that pass the test or the same fault. -/
lemma Invocation.settle_confine (timeout : Nat) (keep : Issue → Bool) (invocation : Invocation) :
    (invocation.confine keep).settle timeout
      = ((invocation.settle timeout).1, (invocation.settle timeout).2.map (List.filter keep)) := by
  cases invocation with
  | settles after ending =>
    by_cases htime : after < timeout
    · cases ending <;> simp only [confine, settle, if_pos htime] <;> rfl
    · cases ending <;> simp only [confine, settle, if_neg htime] <;> rfl
  | awaitsCancellation => rfl
  | never => rfl

/-- An outcome without the issues about other files makes an execution without them. -/
lemma Execution.ofOutcome_confined (a : Analyzer) (files : List Path) (milliseconds : Nat)
    (outcome : Except Fault (List Issue)) :
    ofOutcome a.confined files.length milliseconds
        (outcome.map (List.filter fun i => files.any i.location.file.same))
      = (ofOutcome a files.length milliseconds outcome).confined files := by
  cases outcome <;> rfl

/-- A confined analyzer is executed without the issues about other files. -/
lemma Terms.execute_confined (t : Terms) (a : Analyzer) :
    t.execute a.confined = (t.execute a).confined t.files := by
  have hsettle := (a.analyze t.workspace t.files).settle_confine t.timeout
    fun i => t.files.any i.location.file.same
  have hanalyze : a.confined.analyze t.workspace t.files
      = (a.analyze t.workspace t.files).confine fun i => t.files.any i.location.file.same := rfl
  rw [execute_eq, execute_eq, hanalyze, hsettle, Execution.ofOutcome_confined]

/-- The same issues are kept of an execution without those about other files. -/
lemma Execution.kept_confined (files : List Path) (e : Execution) :
    (e.confined files).kept files = e.kept files := by
  show (e.issues.filter _).filter _ = _
  rw [List.filter_filter]
  simp only [Bool.and_self]
  rfl

/-- Which failure ends a run does not depend on what the executions found. -/
lemma Course.abort?_confined (failFast : Bool) (files : List Path) (settled : List Execution) :
    abort? failFast (settled.map (Execution.confined files)) = abort? failFast settled := by
  cases failFast with
  | false => rfl
  | true =>
    rw [abort?_true, List.findSome?_map]
    rfl

/-- The exit code and the status of a report follow from its results and its issues. -/
structure Report.Judged (report : Report) : Prop where
  two : report.summary.exitCode = 2 ↔ ∃ r ∈ report.analyzerResults, r.status = .failed
  one : report.summary.exitCode = 1 ↔
    (∀ r ∈ report.analyzerResults, r.status ≠ .failed) ∧ ∃ i ∈ report.issues, i.severity = .error
  zero : report.summary.exitCode = 0 ↔
    (∀ r ∈ report.analyzerResults, r.status ≠ .failed) ∧ ∀ i ∈ report.issues, i.severity ≠ .error
  status : report.summary.status = .success ↔ report.summary.exitCode = 0

/-- A result counts as a failure if its status says so. -/
lemma isFailed_iff (r : AnalyzerResult) : r.isFailed = true ↔ r.status = .failed := by
  rw [AnalyzerResult.isFailed, beq_iff_eq]

/-- There are failures if a result says so. -/
lemma any_isFailed_iff (results : List AnalyzerResult) :
    decide (0 < results.countP AnalyzerResult.isFailed) = true ↔
      ∃ r ∈ results, r.status = .failed := by
  rw [decide_eq_true_eq, List.countP_pos_iff]
  simp only [isFailed_iff]

/-- There are no failures if no result says so. -/
lemma not_any_isFailed_iff (results : List AnalyzerResult) :
    decide (0 < results.countP AnalyzerResult.isFailed) = false ↔
      ∀ r ∈ results, r.status ≠ .failed := by
  rw [← Bool.not_eq_true, any_isFailed_iff]
  push Not
  rfl

/-- There are errors if an issue is one. -/
lemma SeverityCounts.error_pos_iff (issues : List Issue) :
    0 < (ofIssues issues).error ↔ ∃ i ∈ issues, i.severity = .error := by
  show 0 < (ofIssues issues).get .error ↔ _
  rw [get_ofIssues, List.countP_pos_iff]
  simp only [decide_eq_true_eq]

namespace Orchestrator

variable {o p : Orchestrator} {workspace : Workspace} {now : Timestamp} {paths : List Path}

/-- The exit code and the status of a report are those of its failures and its issues. -/
lemma exitCode_and_status_of_ends {report : Report} (h : o.Ends workspace now paths (.ok report)) :
    report.summary.exitCode
        = Score.exitCode (0 < report.analyzerResults.countP AnalyzerResult.isFailed)
          (.ofIssues report.issues) ∧
      report.summary.status
        = Score.runStatus (0 < report.analyzerResults.countP AnalyzerResult.isFailed)
          (.ofIssues report.issues) := by
  obtain ⟨milliseconds, rfl⟩ := exists_eq_assemble_of_ends h
  exact ⟨rfl, rfl⟩

/-- A report is judged by its failures and its issues. -/
lemma judged_of_ends {report : Report} (h : o.Ends workspace now paths (.ok report)) :
    report.Judged := by
  obtain ⟨hcode, hstatus⟩ := exitCode_and_status_of_ends h
  constructor
  case two => rw [hcode, Score.exitCode_eq_two_iff, any_isFailed_iff]
  case one =>
    rw [hcode, Score.exitCode_eq_one_iff, not_any_isFailed_iff, SeverityCounts.error_pos_iff]
  case zero =>
    rw [hcode, Score.exitCode_eq_zero_iff, not_any_isFailed_iff, SeverityCounts.error_pos_iff]
    push Not
    rfl
  case status => rw [hstatus, hcode, Score.runStatus_eq_success_iff, Score.exitCode_eq_zero_iff]

/-- A run that comes to a report has not been ended by a failure. -/
lemma abort?_eq_none_of_ends {report : Report} (h : o.Ends workspace now paths (.ok report)) :
    Course.abort? o.config.failFast (o.executions workspace paths) = none := by
  cases habort : Course.abort? o.config.failFast (o.executions workspace paths) with
  | none => rfl
  | some error =>
    rw [ends_iff_of_abort (problem?_eq_none_of_ends h) habort] at h
    exact absurd h nofun

/-- Which entries do not take part in a run does not matter to it. -/
lemma ends_of_participants_eq {registry : Registry}
    (hsame : participants o.config registry = participants o.config o.registry)
    {result : Except RunError Report} (h : o.Ends workspace now paths result) :
    ({ o with registry } : Orchestrator).Ends workspace now paths result := by
  have houtset : ({ o with registry } : Orchestrator).outset = o.outset := by
    rw [outset, outset]
    show Progress.mk (batches o.config.batchSize (participants o.config registry)) .. = _
    rw [hsame]
  cases h with
  | invalid hproblem => exact .invalid (o := { o with registry }) hproblem
  | aborted hvalid hreaches hanswer =>
    exact .aborted (o := { o with registry }) hvalid (houtset ▸ hreaches) hanswer
  | reported hvalid hreaches hanswer =>
    exact .reported (o := { o with registry }) hvalid (houtset ▸ hreaches) hanswer

/-- The orchestrator as it would be if no analyzer had issues about files that it is not asked about. -/
def confined (o : Orchestrator) : Orchestrator :=
  { o with
    registry := ⟨o.registry.entries.map fun entry =>
      (entry.1, fun config => (entry.2 config).map Analyzer.confined)⟩ }

/-- Confined analyzers take part as the others do. -/
lemma participants_confined :
    participants o.config o.confined.registry
      = (participants o.config o.registry).map fun r => ⟨r.entry, r.analyzer.confined⟩ := by
  rw [participants, participants, confined, List.filterMap_map, List.map_filterMap]
  refine List.filterMap_congr fun entry _ => ?_
  rw [Function.comp_apply, participant?_eq, participant?_eq]
  show ((entry.2 (o.config.settingsFor entry.1).config).map Analyzer.confined).toOption.bind _ = _
  cases entry.2 (o.config.settingsFor entry.1).config with
  | error fault => rfl
  | ok analyzer =>
    show (if (o.config.settingsFor entry.1).enabled ∧ analyzer.prepare.isOk then _ else _)
      = Option.map _ (if (o.config.settingsFor entry.1).enabled ∧ analyzer.prepare.isOk then _ else _)
    split <;> rfl

/-- Confined analyzers are executed without the issues about other files. -/
lemma executions_confined :
    o.confined.executions workspace paths
      = (o.executions workspace paths).map (Execution.confined (Path.distinct paths)) := by
  rw [executions, executions, List.map_map]
  show (participants o.config o.confined.registry).map _ = _
  rw [participants_confined, List.map_map]
  exact List.map_congr_left fun r _ => Terms.execute_confined ..

/-- The issues about other files change nothing about the issues of a report and its verdict. -/
lemma exists_report_confined {report : Report} (h : o.Ends workspace now paths (.ok report)) :
    ∃ report', o.confined.Ends workspace now paths (.ok report') ∧
      report'.issues = report.issues ∧ report'.summary.exitCode = report.summary.exitCode ∧
      report'.summary.status = report.summary.status := by
  have hvalid : o.confined.config.problem? = none :=
    show o.config.problem? = none from problem?_eq_none_of_ends h
  have habort : Course.abort? o.confined.config.failFast (o.confined.executions workspace paths)
      = none := by
    rw [executions_confined, Course.abort?_confined]
    exact abort?_eq_none_of_ends h
  obtain ⟨report', hends'⟩ : ∃ report', o.confined.Ends workspace now paths (.ok report') :=
    ⟨_, (ends_iff_of_no_abort hvalid habort).2 rfl⟩
  refine ⟨report', hends', ?_⟩
  have hissues : report'.issues = report.issues := by
    rw [issues_of_ends hends', issues_of_ends h, executions_confined, List.flatMap_map]
    exact List.flatMap_congr fun e _ => e.kept_confined _
  have hfailed : report'.analyzerResults.countP AnalyzerResult.isFailed
      = report.analyzerResults.countP AnalyzerResult.isFailed := by
    rw [results_of_ends hends', results_of_ends h, executions_confined, List.map_map,
      List.countP_map, List.countP_map]
    rfl
  obtain ⟨hcode, hstatus⟩ := exitCode_and_status_of_ends h
  obtain ⟨hcode', hstatus'⟩ := exitCode_and_status_of_ends hends'
  rw [hcode, hcode', hstatus, hstatus', hissues, hfailed]
  exact ⟨rfl, rfl, rfl⟩

/-- In a report every analyzer that takes part has a result that says what became of it, and the exit
code says what became of them all. Entries that do not take part can be left out of the registry, and
issues about other files out of what is found, without a change to the verdict. -/
theorem report_consistent {report : Report} (h : o.Ends workspace now paths (.ok report)) :
    (∃ (result : ReadyAnalyzer → AnalyzerResult) (kept : ReadyAnalyzer → List Issue),
      report.analyzerResults = (participants o.config o.registry).map result ∧
      report.issues = (participants o.config o.registry).flatMap kept ∧
      ∀ r ∈ participants o.config o.registry,
        (r.analyzer.analyze workspace (Path.distinct paths)).Reported o.config.timeoutMs
          (Path.distinct paths).length (fun i => (Path.distinct paths).any i.location.file.same)
          (result r) (kept r)) ∧
    report.Judged ∧
    (∀ before entry after, o.registry.entries = before ++ entry :: after →
      participant? o.config entry = none →
      ({ o with registry := ⟨before ++ after⟩ } : Orchestrator).Ends workspace now paths
        (.ok report)) ∧
    ∃ report', o.confined.Ends workspace now paths (.ok report') ∧
      report'.issues = report.issues ∧ report'.summary.exitCode = report.summary.exitCode ∧
      report'.summary.status = report.summary.status := by
  refine ⟨?_, judged_of_ends h, ?_, exists_report_confined h⟩
  · refine ⟨fun r => ((o.terms workspace paths).execute r.analyzer).result,
      fun r => ((o.terms workspace paths).execute r.analyzer).kept (Path.distinct paths), ?_, ?_, ?_⟩
    · rw [results_of_ends h, executions, List.map_map]
      rfl
    · rw [issues_of_ends h, executions, List.flatMap_map]
    · exact fun r _ => (o.terms workspace paths).reported_execute r.analyzer
  · intro before entry after hentries hnone
    refine ends_of_participants_eq ?_ h
    rw [participants, participants, hentries, List.filterMap_append, List.filterMap_append,
      List.filterMap_cons_none hnone]

/-- An analyzer whose only error is about another file, one that is not ready, and one that is late
or not. -/
def strayOrchestrator (late : Bool) : Orchestrator where
  config := { maxConcurrent := 3, timeoutMs := 100 }
  registry := ⟨[
    ("stray", fun _ => .ok (steadyAnalyzer "stray" (.settles 3 (.issues
      [{ findingAt "s1" "c.ts" with severity := .error }, findingAt "s2" "a.ts"])))),
    ("unready", fun _ => .ok { steadyAnalyzer "unready" .never with
      prepare := .error (.configuration "unready") }),
    ("last", fun _ => .ok (steadyAnalyzer "last"
      (.settles (if late then 100 else 99) (.issues [findingAt "l" "./c.ts"]))))]⟩

/-- Neither the error about another file nor the analyzer that is not ready makes a difference, but the
late one does. -/
theorem strayOrchestrator_consistent :
    ∃ report report' lateReport,
      (strayOrchestrator false).Ends emptyWorkspace default [⟨"a.ts"⟩] (.ok report) ∧
      report.analyzerResults.map AnalyzerResult.issuesFound = [2, 1] ∧
      report.summary.exitCode = 0 ∧ report.summary.status = .success ∧
      ({ strayOrchestrator false with
        registry := ⟨(strayOrchestrator false).registry.entries.eraseIdx 1⟩ } :
          Orchestrator).Ends emptyWorkspace default [⟨"a.ts"⟩] (.ok report) ∧
      (strayOrchestrator false).confined.Ends emptyWorkspace default [⟨"a.ts"⟩] (.ok report') ∧
      report'.analyzerResults.map AnalyzerResult.issuesFound = [1, 0] ∧
      report'.summary.exitCode = 0 ∧
      (strayOrchestrator true).Ends emptyWorkspace default [⟨"a.ts"⟩] (.ok lateReport) ∧
      lateReport.summary.exitCode = 2 := by
  obtain ⟨report, hends⟩ : ∃ report, (strayOrchestrator false).Ends emptyWorkspace default [⟨"a.ts"⟩]
      (.ok report) := ⟨_, (ends_iff_of_goes_on rfl rfl).2 rfl⟩
  obtain ⟨lateReport, hlate⟩ : ∃ report, (strayOrchestrator true).Ends emptyWorkspace default
      [⟨"a.ts"⟩] (.ok report) := ⟨_, (ends_iff_of_goes_on rfl rfl).2 rfl⟩
  obtain ⟨-, hjudged, hexcluded, report', hends', -, hcode', -⟩ := report_consistent hends
  obtain ⟨-, hjudged', -⟩ := report_consistent hlate
  have hresults : ∀ r ∈ report.analyzerResults, r.status ≠ .failed := by
    rw [results_of_ends hends]
    decide +kernel
  have hissues : ∀ i ∈ report.issues, i.severity ≠ .error := by
    rw [issues_of_ends hends]
    decide +kernel
  have hfailed : ∃ r ∈ lateReport.analyzerResults, r.status = .failed := by
    rw [results_of_ends hlate]
    decide +kernel
  have hzero : report.summary.exitCode = 0 := hjudged.zero.2 ⟨hresults, hissues⟩
  refine ⟨report, report', lateReport, hends, ?_, hzero, hjudged.status.2 hzero, ?_, hends', ?_,
    hcode'.trans hzero, hlate, hjudged'.two.2 hfailed⟩
  · rw [results_of_ends hends]
    decide +kernel
  · exact hexcluded [_] _ [_] rfl rfl
  · rw [results_of_ends hends']
    decide +kernel

end Orchestrator

end CodeAudit
