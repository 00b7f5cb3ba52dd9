import CodeAudit.Proofs.Issue
import CodeAudit.Proofs.NameMap
import CodeAudit.Proofs.Run.Order
import CodeAudit.Proofs.Run.Tally
/-!
# The accounts of a report

A report counts the same issues in several places: in its summary, by severity, for each file, for
each analyzer and for each complexity rule. The counts agree, and what the analyzers found beyond
the issues of the report are the issues about other files.
-/
namespace CodeAudit

namespace Score

/-- Counts an issue under its rule. -/
def countRule (map : NameMap Nat) (i : Issue) : NameMap Nat :=
  NameMap.insert i.ruleId ((NameMap.get? i.ruleId map).getD 0 + 1) map

/-- The complexity rules are counted issue by issue. -/
lemma complexityDistribution_eq_foldl (issues : List Issue) :
    complexityDistribution issues
      = (issues.filter fun i => complexityRules.isPrefixOf i.ruleId.toList).foldl countRule [] :=
  rfl

/-- Counting one issue after the other keeps the rules in order and counts each issue once. -/
lemma foldl_countRule (issues : List Issue) :
    (issues.foldl countRule []).Sorted ∧
      ((issues.foldl countRule []).map Prod.snd).sum = issues.length := by
  induction issues using List.reverseRecOn with
  | nil => exact ⟨List.Pairwise.nil, rfl⟩
  | append_singleton front i ih =>
    obtain ⟨hsorted, hsum⟩ := ih
    rw [List.foldl_append, List.length_append, ← hsum]
    refine ⟨hsorted.insert _ _, ?_⟩
    have hinsert := NameMap.sum_insert hsorted i.ruleId
      ((NameMap.get? i.ruleId (front.foldl countRule [])).getD 0 + 1)
    show ((NameMap.insert _ _ _).map Prod.snd).sum = _ + 1
    omega

/-- The counts of the complexity rules add up to the number of their issues. -/
lemma sum_complexityDistribution (issues : List Issue) :
    ((complexityDistribution issues).map Prod.snd).sum
      = issues.countP fun i => complexityRules.isPrefixOf i.ruleId.toList := by
  rw [complexityDistribution_eq_foldl, List.countP_eq_length_filter]
  exact (foldl_countRule _).2

end Score

/-- A result counts all issues of its execution, kept or not. -/
lemma Execution.issuesFound_run (workspace : Workspace) (timeout : Nat) (files : List Path)
    (a : Analyzer) :
    (run workspace timeout files a).result.issuesFound
      = (run workspace timeout files a).issues.length := by
  rw [run]
  cases (a.analyze workspace files).settle timeout with
  | mk milliseconds outcome => cases outcome <;> rfl

/-- The counts of a report agree, where the analyzers found the given issues and the report is to have
those that pass a test. -/
structure Report.Accounted (report : Report) (found : List Issue)
    (isInside : Issue → Bool) : Prop where
  issues : report.summary.totalIssues = report.issues.length
  severities : report.summary.bySeverity.error + report.summary.bySeverity.warning
    + report.summary.bySeverity.info = report.issues.length
  severity : ∀ s, report.summary.bySeverity.get s = report.issues.countP (·.severity = s)
  perFile : (report.files.map FileRecord.issueCount).sum = report.issues.length
  files : report.summary.totalFiles = report.files.length
  analyzers : report.summary.analyzersRun = report.analyzerResults.length
  failures : report.summary.analyzersFailed = report.analyzerResults.countP (·.status = .failed)
  fixable : report.summary.fixableIssues = report.issues.countP (·.fixable)
  complexity : (report.metrics.complexityDistribution.map Prod.snd).sum
    = report.issues.countP fun i => "complexity/".toList.isPrefixOf i.ruleId.toList
  inside : report.issues.length = found.countP isInside
  outside : (report.analyzerResults.map AnalyzerResult.issuesFound).sum
    = report.summary.totalIssues + found.countP (!isInside ·)

section Assembly

variable {files : List Path} {executions : List Execution}

/-- The issues that are kept are those about one of the files. -/
lemma flatMap_kept (files : List Path) (executions : List Execution) :
    executions.flatMap (·.kept files)
      = (executions.flatMap Execution.issues).filter fun i => files.any i.location.file.same := by
  rw [List.filter_flatMap]
  rfl

/-- Every issue that is kept is counted for one file, if no two files have one path. -/
lemma sum_issueCount (fs : FileSystem) (hfiles : files.Pairwise fun p q => p.same q = false)
    (executions : List Execution) :
    let issues := executions.flatMap (·.kept files)
    ((files.map (FileRecord.of fs executions issues)).map FileRecord.issueCount).sum
      = issues.length := by
  intro issues
  have hcount : (files.map (FileRecord.of fs executions issues)).map FileRecord.issueCount
      = files.map fun p => issues.countP fun i => i.location.file.same p := by
    rw [List.map_map]
    exact List.map_congr_left fun p _ => List.countP_eq_length_filter.symm
  rw [hcount, Path.sum_countP_same (fun i : Issue => i.location.file) hfiles, List.countP_eq_length]
  intro i hi
  have hmem : i ∈ executions.flatMap (·.kept files) := hi
  rw [flatMap_kept] at hmem
  exact (List.mem_filter.1 hmem).2

/-- The report that is assembled of some executions has accounts that agree. -/
lemma accounted_assemble (config : RunConfig) (templates : List RecommendationTemplate)
    (fs : FileSystem) (now : Timestamp) (milliseconds : Nat)
    (hfiles : files.Pairwise fun p q => p.same q = false)
    (hfound : ∀ e ∈ executions, e.result.issuesFound = e.issues.length) :
    (Report.assemble config templates fs now files executions milliseconds).Accounted
      (executions.flatMap Execution.issues) fun i => files.any i.location.file.same := by
  have hkept : (executions.flatMap (·.kept files)).length
      = (executions.flatMap Execution.issues).countP fun i => files.any i.location.file.same := by
    rw [flatMap_kept, List.countP_eq_length_filter]
  constructor
  case issues => rfl
  case severities => exact SeverityCounts.total_ofIssues _
  case severity => exact SeverityCounts.get_ofIssues _
  case perFile =>
    show ((FileRecord.list fs files _).map FileRecord.issueCount).sum = _
    rw [FileRecord.list_ofExecutions fs hfiles]
    exact sum_issueCount fs hfiles executions
  case files =>
    show files.length = (FileRecord.list fs files _).length
    rw [FileRecord.list_eq_map fs hfiles, List.length_map]
  case analyzers => rfl
  case failures =>
    apply List.countP_congr
    intro r _
    rw [AnalyzerResult.isFailed, beq_iff_eq, decide_eq_true_eq]
  case fixable => rfl
  case complexity => exact Score.sum_complexityDistribution _
  case inside => exact hkept
  case outside =>
    have hsum : ((executions.map Execution.result).map AnalyzerResult.issuesFound).sum
        = (executions.flatMap Execution.issues).length := by
      rw [List.map_map, List.length_flatMap]
      exact congrArg List.sum (List.map_congr_left hfound)
    show ((executions.map Execution.result).map AnalyzerResult.issuesFound).sum
      = (executions.flatMap (·.kept files)).length + _
    rw [hsum, hkept]
    exact length_eq_countP_add_countP_not _ _

end Assembly

namespace Orchestrator

variable {o : Orchestrator} {workspace : Workspace} {now : Timestamp} {paths : List Path}

/-- The issues that the analyzers of a run come to, about whatever file. -/
def foundIssues (o : Orchestrator) (workspace : Workspace) (paths : List Path) : List Issue :=
  (participants o.config o.registry).flatMap fun r =>
    (r.analyzer.analyze workspace (Path.distinct paths)).found o.config.timeoutMs

/-- The issues of all executions are those that the analyzers come to. -/
lemma flatMap_issues_executions :
    (o.executions workspace paths).flatMap Execution.issues = o.foundIssues workspace paths := by
  rw [executions, foundIssues, List.flatMap_map]
  exact List.flatMap_congr fun r _ => Execution.issues_run ..

/-- The counts of every report agree, and the issues that are missing from it are about other files. -/
theorem report_accounted {report : Report} (h : o.Ends workspace now paths (.ok report)) :
    report.Accounted (o.foundIssues workspace paths) fun i => paths.any i.location.file.same := by
  obtain ⟨milliseconds, rfl⟩ := exists_eq_assemble_of_ends h
  have hfiles : (Path.distinct paths).Pairwise fun p q => p.same q = false :=
    Path.firsts_pairwise id paths
  have hfound : ∀ e ∈ o.executions workspace paths, e.result.issuesFound = e.issues.length := by
    intro e he
    obtain ⟨r, -, rfl⟩ := List.mem_map.1 he
    exact Execution.issuesFound_run ..
  have haccounted := accounted_assemble o.config o.templates workspace.files now milliseconds hfiles
    hfound
  -- whether a file is listed can be asked of all paths that were given
  have hlisted : (fun i : Issue => (Path.distinct paths).any i.location.file.same)
      = fun i => paths.any i.location.file.same :=
    funext fun i => Path.any_firsts id paths i.location.file
  rwa [flatMap_issues_executions, hlisted] at haccounted

/-- Of three issues one is about a file that is not listed, and one about another spelling of a path
that is; a path that is listed twice is one file. -/
theorem unevenOrchestrator_accounted :
    ∃ report, unevenOrchestrator.Ends emptyWorkspace default
        [⟨"a.ts"⟩, ⟨"./b.ts"⟩, ⟨"a.ts/"⟩] (.ok report) ∧
      report.Accounted [findingAt "s1" "a.ts", findingAt "s2" "c.ts", findingAt "q" "./b.ts/"]
        (fun i => [⟨"a.ts"⟩, ⟨"./b.ts"⟩, ⟨"a.ts/"⟩].any i.location.file.same) ∧
      report.summary.totalIssues = 2 ∧
      (report.analyzerResults.map AnalyzerResult.issuesFound).sum = 3 := by
  obtain ⟨report, hends⟩ : ∃ report, unevenOrchestrator.Ends emptyWorkspace default
      [⟨"a.ts"⟩, ⟨"./b.ts"⟩, ⟨"a.ts/"⟩] (.ok report) :=
    ⟨_, (ends_iff_of_goes_on rfl rfl).2 rfl⟩
  have haccounted := report_accounted hends
  have hfound : unevenOrchestrator.foundIssues emptyWorkspace [⟨"a.ts"⟩, ⟨"./b.ts"⟩, ⟨"a.ts/"⟩]
      = [findingAt "s1" "a.ts", findingAt "s2" "c.ts", findingAt "q" "./b.ts/"] := by
    decide +kernel
  rw [hfound] at haccounted
  have htotal : report.summary.totalIssues = 2 := by
    rw [haccounted.issues, haccounted.inside]
    decide +kernel
  refine ⟨report, hends, haccounted, htotal, ?_⟩
  rw [haccounted.outside, htotal]
  decide +kernel

end Orchestrator

end CodeAudit
