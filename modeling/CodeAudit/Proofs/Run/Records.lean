import CodeAudit.Proofs.Run.Accounts
import CodeAudit.Proofs.Run.FailFast
/-!
# Records of files

A report has one record for each file of a run, under the spelling that came first. A record counts
the issues of the report that are about its file, however they spell its path, and names the
analyzers that found them. A path that is given again changes nothing about a run.
-/
namespace CodeAudit

/-- The records of a report are those of the paths that were given, where the issues of the report
are put together from those of some analyzers. -/
structure Report.Records (report : Report) (paths : List Path)
    (found : List (String × List Issue)) : Prop where
  results : report.analyzerResults.map AnalyzerResult.name = found.map Prod.fst
  issues : report.issues = found.flatMap Prod.snd
  listed : report.files.map FileRecord.path = Path.distinct paths
  order : (report.files.map FileRecord.path).Sublist paths
  first : ∀ p, p ∈ report.files.map FileRecord.path ↔
    ∃ before after, paths = before ++ p :: after ∧ ∀ q ∈ before, p.same q = false
  apart : report.files.Pairwise fun r s => r.path.same s.path = false
  counts : ∀ record ∈ report.files,
    record.issueCount = report.issues.countP (·.location.file.same record.path)
  analyzers : ∀ record ∈ report.files, record.analyzers
    = ((found.filter fun f => f.2.any (·.location.file.same record.path)).map Prod.fst).eraseDups
  once : ∀ i ∈ report.issues,
    report.files.countP (fun record => i.location.file.same record.path) = 1

namespace Orchestrator

variable {o p : Orchestrator} {workspace : Workspace} {now now' : Timestamp} {paths : List Path}

/-- The names of the analyzers that take part, with the issues that each has in the report. -/
def findings (o : Orchestrator) (workspace : Workspace) (paths : List Path) :
    List (String × List Issue) :=
  (participants o.config o.registry).map fun r =>
    (r.analyzer.name,
      ((r.analyzer.analyze workspace (Path.distinct paths)).found o.config.timeoutMs).filter
        fun i => paths.any i.location.file.same)

/-- What an execution keeps of its issues can be asked of all paths that were given. -/
lemma kept_distinct (e : Execution) :
    e.kept (Path.distinct paths) = e.issues.filter fun i => paths.any i.location.file.same :=
  List.filter_congr fun i _ => Path.any_firsts id paths i.location.file

/-- The findings are the names of the executions and the issues that are kept of them. -/
lemma findings_eq_map_executions :
    o.findings workspace paths
      = (o.executions workspace paths).map fun e =>
        (e.result.name, e.kept (Path.distinct paths)) := by
  rw [findings, executions, List.map_map]
  refine List.map_congr_left fun r _ => ?_
  show _ = ((Execution.run ..).result.name, Execution.kept _ (Execution.run ..))
  rw [kept_distinct, Execution.issues_run, Execution.name_run]
  rfl

/-- A file has the same contributors if they are asked about the issues that are kept. -/
lemma contributors_executions {file : Path} (h : file ∈ Path.distinct paths) :
    contributors (o.executions workspace paths) file
      = (((o.findings workspace paths).filter fun f =>
        f.2.any (·.location.file.same file)).map Prod.fst).eraseDups := by
  have hkept (e : Execution) : e.issues.any (·.location.file.same file)
      = (e.kept (Path.distinct paths)).any (·.location.file.same file) := by
    rw [Execution.kept, List.any_filter]
    congr 1
    funext i
    cases hsame : i.location.file.same file with
    | false => exact (Bool.and_false _).symm
    | true =>
      have hinside : (Path.distinct paths).any i.location.file.same = true :=
        List.any_eq_true.2 ⟨file, h, hsame⟩
      rw [hinside]
      rfl
  rw [contributors, findings_eq_map_executions, List.filter_map, List.map_map]
  simp only [hkept]
  rfl

/-- Paths that are given again are passed over in a run. -/
lemma execute_distinct :
    o.execute workspace now (Path.distinct paths) = o.execute workspace now paths := by
  rw [execute, execute, Path.distinct_distinct]

/-- A run of the different paths ends as the run of all paths does. -/
lemma ends_distinct_iff {result : Except RunError Report} :
    o.Ends workspace now (Path.distinct paths) result ↔ o.Ends workspace now paths result := by
  rw [ends_iff_result_execute, ends_iff_result_execute, execute_distinct]

/-- Two runs of the same work that treat failures alike come to answers that are alike. If the faults
are the same to the letter, the answers differ in nothing but the times and the configuration that a
report shows. -/
lemma SameWork.answersAlike (h : SameWork workspace paths o p)
    (hproblem : p.config.problem? = o.config.problem?) (hfast : p.config.failFast = o.config.failFast)
    {result result' : Except RunError Report} (hends : o.Ends workspace now paths result)
    (hends' : p.Ends workspace now' paths result') :
    AnswersAlike result result' ∧ (o.faults workspace paths = p.faults workspace paths →
      result.map Report.untimed = result'.map Report.untimed) := by
  cases hvalid : o.config.problem? with
  | some problem =>
    rw [ends_iff_result_execute, result_execute_of_problem hvalid] at hends
    rw [ends_iff_result_execute, result_execute_of_problem (hproblem.trans hvalid)] at hends'
    rw [← hends, ← hends']
    exact ⟨.error (.refl _), fun _ => rfl⟩
  | none =>
    have hvalid' : p.config.problem? = none := hproblem.trans hvalid
    have habort := abort?_of_alike h.executions o.config.failFast
    generalize herror : Course.abort? o.config.failFast (o.executions workspace paths) = error,
      herror' : Course.abort? o.config.failFast (p.executions workspace paths) = error' at habort
    cases habort with
    | some halike =>
      rw [ends_iff_of_abort hvalid herror] at hends
      rw [ends_iff_of_abort hvalid' (hfast ▸ herror')] at hends'
      subst hends hends'
      refine ⟨.error halike, fun hfaults => ?_⟩
      rw [← map_fault_executions, ← map_fault_executions] at hfaults
      have heq := abort?_eq_of_alike h.executions hfaults o.config.failFast
      rw [herror, herror', Option.some.injEq] at heq
      rw [heq]
    | none =>
      have hreport := (ends_iff_of_no_abort hvalid herror).1 hends
      have hreport' := (ends_iff_of_no_abort hvalid' (hfast ▸ herror')).1 hends'
      subst hreport hreport'
      obtain ⟨halike, huntimed⟩ := alike_of_ends h.executions h.templates h.recommendations hends
        hends'
      exact ⟨.ok halike, fun hfaults => congrArg Except.ok (huntimed hfaults)⟩

/-- The results of a report are those of the executions. -/
lemma results_of_ends {report : Report} (h : o.Ends workspace now paths (.ok report)) :
    report.analyzerResults = (o.executions workspace paths).map Execution.result := by
  obtain ⟨milliseconds, rfl⟩ := exists_eq_assemble_of_ends h
  rfl

/-- The issues of a report are those that are kept of the executions. -/
lemma issues_of_ends {report : Report} (h : o.Ends workspace now paths (.ok report)) :
    report.issues = (o.executions workspace paths).flatMap (·.kept (Path.distinct paths)) := by
  obtain ⟨milliseconds, rfl⟩ := exists_eq_assemble_of_ends h
  rfl

/-- The files of a report are the different ones of the paths, each with its record. -/
lemma files_of_ends {report : Report} (h : o.Ends workspace now paths (.ok report)) :
    report.files = (Path.distinct paths).map
      (FileRecord.of workspace.files (o.executions workspace paths) report.issues) := by
  rw [issues_of_ends h]
  obtain ⟨milliseconds, rfl⟩ := exists_eq_assemble_of_ends h
  exact FileRecord.list_ofExecutions workspace.files (Path.firsts_pairwise id paths) _

/-- The files that a report records are the different ones of the paths that were given. -/
lemma paths_of_ends {report : Report} (h : o.Ends workspace now paths (.ok report)) :
    report.files.map FileRecord.path = Path.distinct paths := by
  rw [files_of_ends h, List.map_map]
  exact List.map_id _

/-- Every issue of a report is about one of its files. -/
lemma any_same_of_mem_issues {report : Report} (h : o.Ends workspace now paths (.ok report))
    {i : Issue} (hi : i ∈ report.issues) : (Path.distinct paths).any i.location.file.same = true := by
  rw [issues_of_ends h, flatMap_kept] at hi
  exact (List.mem_filter.1 hi).2

/-- The records of a report are those of the paths that were given. -/
lemma records_of_ends {report : Report} (h : o.Ends workspace now paths (.ok report)) :
    report.Records paths (o.findings workspace paths) := by
  have hdistinct : (Path.distinct paths).Pairwise fun p q => p.same q = false :=
    Path.firsts_pairwise id paths
  constructor
  case results =>
    rw [results_of_ends h, findings_eq_map_executions, List.map_map, List.map_map]
    rfl
  case issues => rw [issues_of_ends h, findings_eq_map_executions, List.flatMap_map]
  case listed => exact paths_of_ends h
  case order =>
    rw [paths_of_ends h]
    exact Path.firsts_sublist id paths
  case first =>
    intro p
    rw [paths_of_ends h]
    exact Path.mem_firsts_iff id
  case apart =>
    rw [files_of_ends h, List.pairwise_map]
    exact hdistinct
  case counts =>
    rw [files_of_ends h, List.forall_mem_map]
    exact fun file _ => List.countP_eq_length_filter.symm
  case analyzers =>
    rw [files_of_ends h, List.forall_mem_map]
    exact fun file hfile => contributors_executions hfile
  case once =>
    intro i hi
    rw [files_of_ends h, List.countP_map]
    exact Path.countP_same hdistinct (any_same_of_mem_issues h hi)

/-- The report of a run records each given file once, in the order and the spelling of the first time
that it is given, with the issues about it and those who found them. If paths that were given before
are left out, a run comes to the same answer, error or not; and if it takes other times and the tasks
that break off have other numbers, to an answer that differs in nothing else. For what counts is what
the analyzers make of the list of the files that are recorded. -/
theorem files_recorded_once :
    (∀ result, o.Ends workspace now (Path.distinct paths) result
      ↔ o.Ends workspace now paths result) ∧
    (∀ p now' result result', SameWork workspace paths o p → p.config.problem? = o.config.problem? →
      p.config.failFast = o.config.failFast → o.Ends workspace now paths result →
      p.Ends workspace now' (Path.distinct paths) result' →
      AnswersAlike result result' ∧ (o.faults workspace paths = p.faults workspace paths →
        result.map Report.untimed = result'.map Report.untimed)) ∧
    ∀ report, o.Ends workspace now paths (.ok report) →
      report.Records paths (o.findings workspace paths) ∧
      report.analyzerResults = (participants o.config o.registry).map fun r =>
        (Execution.run workspace o.config.timeoutMs (report.files.map FileRecord.path)
          r.analyzer).result := by
  refine ⟨fun result => ends_distinct_iff, ?_, ?_⟩
  · intro p now' result result' hwork hproblem hfast hends hends'
    exact hwork.answersAlike hproblem hfast hends (ends_distinct_iff.1 hends')
  · intro report hends
    refine ⟨records_of_ends hends, ?_⟩
    rw [results_of_ends hends, paths_of_ends hends, executions, List.map_map]
    rfl

/-- Two entries have analyzers of one name, and between them stands another one. -/
def twinOrchestrator : Orchestrator where
  config := { maxConcurrent := 2, timeoutMs := 100 }
  registry := ⟨[
    ("elder", fun _ => .ok (steadyAnalyzer "twin" (.settles 9 (.issues
      [findingAt "e1" "b.ts", findingAt "e2" "src//a.ts", findingAt "e3" "b.ts/"])))),
    ("other", fun _ => .ok (steadyAnalyzer "other" (.settles 1 (.issues
      [findingAt "o1" "src/a.ts", findingAt "o2" "c.ts"])))),
    ("younger", fun _ => .ok (steadyAnalyzer "twin" (.settles 5 (.issues
      [findingAt "y1" "src/./a.ts", findingAt "y2" "./b.ts"]))))]⟩

/-- The file that is given in two spellings is recorded once, with issues under three of them. -/
theorem twinOrchestrator_records :
    ∃ report, twinOrchestrator.Ends emptyWorkspace default
        [⟨"src/a.ts/"⟩, ⟨"b.ts"⟩, ⟨"src/a.ts"⟩] (.ok report) ∧
      twinOrchestrator.Ends emptyWorkspace default [⟨"src/a.ts/"⟩, ⟨"b.ts"⟩] (.ok report) ∧
      report.Records [⟨"src/a.ts/"⟩, ⟨"b.ts"⟩, ⟨"src/a.ts"⟩]
        [("twin", [findingAt "e1" "b.ts", findingAt "e2" "src//a.ts", findingAt "e3" "b.ts/"]),
          ("other", [findingAt "o1" "src/a.ts"]), ("twin", [findingAt "y1" "src/./a.ts"])] ∧
      report.files.map (fun r => (r.path.text, r.issueCount, r.analyzers))
        = [("src/a.ts/", 3, ["twin", "other"]), ("b.ts", 2, ["twin"])] := by
  obtain ⟨report, hends⟩ : ∃ report, twinOrchestrator.Ends emptyWorkspace default
      [⟨"src/a.ts/"⟩, ⟨"b.ts"⟩, ⟨"src/a.ts"⟩] (.ok report) :=
    ⟨_, (ends_iff_of_goes_on rfl rfl).2 rfl⟩
  obtain ⟨hdistinct, -, hreport⟩ := @files_recorded_once twinOrchestrator emptyWorkspace default
    [⟨"src/a.ts/"⟩, ⟨"b.ts"⟩, ⟨"src/a.ts"⟩]
  have hpaths : Path.distinct [⟨"src/a.ts/"⟩, ⟨"b.ts"⟩, ⟨"src/a.ts"⟩]
      = [⟨"src/a.ts/"⟩, ⟨"b.ts"⟩] := by
    decide +kernel
  have hfindings : twinOrchestrator.findings emptyWorkspace
      [⟨"src/a.ts/"⟩, ⟨"b.ts"⟩, ⟨"src/a.ts"⟩]
        = [("twin", [findingAt "e1" "b.ts", findingAt "e2" "src//a.ts", findingAt "e3" "b.ts/"]),
          ("other", [findingAt "o1" "src/a.ts"]), ("twin", [findingAt "y1" "src/./a.ts"])] := by
    decide +kernel
  have hrecords := (hreport report hends).1
  rw [hfindings] at hrecords
  refine ⟨report, hends, ?_, hrecords, ?_⟩
  · rw [hpaths] at hdistinct
    exact (hdistinct _).2 hends
  · obtain rfl := Except.ok.inj ((ends_iff_of_goes_on rfl rfl).1 hends)
    decide +kernel

end Orchestrator

end CodeAudit
