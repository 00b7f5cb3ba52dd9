import CodeAudit.Proofs.Metrics.Findings
import CodeAudit.Proofs.Run.Outcome
/-!
# Runs of the built-in registry

A run over the built-in registry has the metrics analyzer only. None of its issues is dropped, since
each is about a file of the run; none is an error and none concerns security, so what a report says of
errors and of security does not depend on the files. None of this depends on the time that the
analyzer takes: an analyzer is paced if it takes another one, or does not end.
-/
namespace CodeAudit

/-- The invocation as it would be if it ended at another time, or at none. -/
def Invocation.paced (after : Option Nat) : Invocation → Invocation
  | settles _ ending =>
    match after with
    | some after => .settles after ending
    | none => .never
  | invocation => invocation

/-- How long an analyzer takes for some files, if it ends. -/
abbrev Pace := Workspace → List Path → Option Nat

/-- The analyzer as it would be at another pace. -/
def Analyzer.paced (pace : Pace) (a : Analyzer) : Analyzer :=
  { a with
    analyze := fun workspace files => (a.analyze workspace files).paced (pace workspace files) }

/-- The registry with its analyzers at another pace. -/
def Registry.paced (pace : Pace) (r : Registry) : Registry :=
  ⟨r.entries.map fun entry =>
    (entry.1, fun config => (entry.2 config).map (Analyzer.paced pace))⟩

/-- The built-in analyzer takes no time. -/
lemma Registry.builtin_paced : builtin.paced (fun _ _ => some 0) = builtin :=
  rfl

/-- The pace of an invocation has no part in what it returns. -/
lemma Invocation.exists_settles_of_returns_paced {timeout : Nat} {after : Option Nat}
    {invocation : Invocation} {found : List Issue}
    (h : (invocation.paced after).Returns timeout found) :
    ∃ time, invocation = .settles time (.issues found) := by
  cases invocation with
  | settles time ending =>
    cases after with
    | some after =>
      cases h
      exact ⟨time, rfl⟩
    | none => exact absurd h nofun
  | awaitsCancellation => exact absurd h nofun
  | never => exact absurd h nofun

/-- What the metrics analyzer returns is what its analysis comes to. -/
lemma MetricsAnalyzer.analyze_of_returns {a : MetricsAnalyzer} {pace : Pace}
    {workspace : Workspace} {files : List Path} {timeout : Nat} {found : List Issue}
    (h : ((a.toAnalyzer.paced pace).analyze workspace files).Returns timeout found) :
    a.prepare.2.analyze workspace.files workspace.grammar name CancelToken.fresh.answers files
      = .ok found := by
  have hpaced : ((a.toAnalyzer.analyze workspace files).paced (pace workspace files)).Returns
      timeout found := h
  obtain ⟨time, hsettles⟩ := Invocation.exists_settles_of_returns_paced hpaced
  obtain ⟨-, hending⟩ := Invocation.settles.inj hsettles
  split at hending
  · next issues hanalyze => rw [hanalyze, Ending.issues.inj hending]
  · exact absurd hending nofun

/-- No finding concerns security. -/
lemma not_isSecurityRelated {path : Path} {i : Issue} (h : Finding.About path i) :
    i.isSecurityRelated = false := by
  have hrules : ∀ rule ∈ Finding.rules, (Issue.securityWords.any fun word =>
      Text.occursIn word.toList (Text.lower rule.toList)) = false := by
    decide +kernel
  exact hrules i.ruleId h.rule

/-- If no issue concerns security there is nothing to say about it. -/
lemma Score.security_of_none {issues : List Issue}
    (h : issues.filter Issue.isSecurityRelated = []) : security issues = ⟨.low, 100, {}⟩ := by
  rw [security, h]
  rfl

/-- If no issue concerns security only the quality of the code leads to a recommendation. -/
lemma category_of_mem_recommend {input : RecommendationInput} {r : Recommendation}
    (h : input.issues.filter Issue.isSecurityRelated = [])
    (hr : r ∈ recommend RecommendationTemplate.defaults input) : r.category = "Code Quality" := by
  obtain ⟨template, htemplate, hevaluate⟩ := List.mem_filterMap.1 hr
  obtain rfl | htemplate := List.mem_cons.1 htemplate
  · simp only [RecommendationTemplate.security, h] at hevaluate
    exact absurd hevaluate nofun
  · obtain rfl := List.mem_singleton.1 htemplate
    simp only [RecommendationTemplate.codeQuality] at hevaluate
    split at hevaluate
    · exact absurd hevaluate nofun
    · rw [← Option.some.inj hevaluate]

/-- The metrics analyzer can be prepared if there are thresholds for it. -/
lemma MetricsAnalyzer.isOk_prepare_iff (a : MetricsAnalyzer) :
    a.prepare.1.isOk = true ↔ ∃ c, thresholds a.given = .ok c := by
  rw [prepare]
  cases thresholds a.given with
  | ok c => exact ⟨fun _ => ⟨c, rfl⟩, fun _ => rfl⟩
  | error fault => exact ⟨fun h => absurd h Bool.false_ne_true, nofun⟩

/-- A file of a known language is not shown as one of none. -/
lemma languageName_ne_unknown {p : Path} (h : Language.ofPath? p ≠ none) :
    languageName p ≠ "unknown" := by
  rw [languageName]
  split
  · next language _ => cases language <;> decide
  · next hnone => exact absurd hnone h

/-- An execution that is as it could be of the metrics analyzer. -/
structure Execution.OfMetrics (files : List Path) (e : Execution) : Prop where
  name : e.result.name = MetricsAnalyzer.name
  nothing_dropped : e.result.status = .success → e.result.issuesFound = (e.kept files).length
  about : ∀ i ∈ e.kept files, ∃ p ∈ files, Language.ofPath? p ≠ none ∧ Finding.About p i

/-- At whatever pace, an execution of the metrics analyzer is as it could be of it. -/
lemma Terms.ofMetrics_execute (t : Terms) (a : MetricsAnalyzer) (pace : Pace) :
    (t.execute (a.toAnalyzer.paced pace)).OfMetrics t.files := by
  have hname : (t.execute (a.toAnalyzer.paced pace)).result.name = MetricsAnalyzer.name :=
    Execution.name_run ..
  have hreported := t.reported_execute (a.toAnalyzer.paced pace)
  obtain ⟨found, hreturns⟩ | ⟨fault, hfails⟩ :=
    ((a.toAnalyzer.paced pace).analyze t.workspace t.files).returns_or_fails t.timeout
  · have habout : ∀ i ∈ found, ∃ p ∈ t.files, Language.ofPath? p ≠ none ∧ Finding.About p i := by
      intro i hi
      obtain ⟨s, hs, habout⟩ := MetricsAnalyzer.exists_about_of_mem_analyze
        (MetricsAnalyzer.analyze_of_returns hreturns) hi
      exact ⟨s.path, hs.listed, by rw [hs.language]; exact nofun, habout⟩
    have hkept : (t.execute (a.toAnalyzer.paced pace)).kept t.files = found := by
      rw [execute_eq, hreturns.settle]
      refine List.filter_eq_self.2 fun i hi => ?_
      obtain ⟨p, hp, -, hi⟩ := habout i hi
      exact List.any_eq_true.2 ⟨p, hp, hi.file ▸ Path.same_refl p⟩
    refine ⟨hname, fun _ => ?_, hkept ▸ habout⟩
    rw [hkept, execute_eq, hreturns.settle]
    rfl
  · have hstatus := hreported.failed_iff.2 ⟨fault, hfails⟩
    obtain ⟨-, -, -, hkept⟩ := hreported.failed fault hfails
    refine ⟨hname, fun hsuccess => absurd (hsuccess.symm.trans hstatus) nofun, ?_⟩
    rw [hkept]
    exact nofun

/-- What every report says in which only the metrics analyzer could have a part. -/
structure Report.OfMetrics (report : Report) : Prop where
  alone : report.analyzerResults.length ≤ 1
  name : ∀ r ∈ report.analyzerResults, r.name = MetricsAnalyzer.name
  nothing_dropped : ∀ r ∈ report.analyzerResults, r.status = .success →
    r.issuesFound = report.summary.totalIssues
  language : ∀ f ∈ report.files, 0 < f.issueCount → f.language ≠ "unknown"
  no_error : report.summary.bySeverity.error = 0
  two : report.summary.exitCode = 2 ↔ ∃ r ∈ report.analyzerResults, r.status = .failed
  zero : report.summary.exitCode = 0 ↔ ∀ r ∈ report.analyzerResults, r.status ≠ .failed
  not_one : report.summary.exitCode ≠ 1
  score : report.metrics.security.score = 100
  risk : report.metrics.security.riskLevel = .low
  recommendations : ∀ r ∈ report.recommendations, r.category ≠ "Security"

namespace Orchestrator

variable {o : Orchestrator} {pace : Pace} {workspace : Workspace} {now : Timestamp}
  {paths : List Path} {report : Report}

/-- The metrics analyzer as a run builds it. -/
def metricsAnalyzer (o : Orchestrator) : MetricsAnalyzer :=
  .ofJson (o.config.settingsFor MetricsAnalyzer.name).config

/-- The metrics analyzer takes part if it is enabled and its thresholds are in order. -/
lemma participants_builtin (hregistry : o.registry = Registry.builtin.paced pace) :
    participants o.config o.registry
      = if (o.config.settingsFor MetricsAnalyzer.name).enabled ∧ o.metricsAnalyzer.prepare.1.isOk then
        [⟨MetricsAnalyzer.name, o.metricsAnalyzer.toAnalyzer.paced pace⟩]
      else [] := by
  have hbuilt : participant? o.config (MetricsAnalyzer.name, fun config =>
        (MetricsAnalyzer.factory config).map (Analyzer.paced pace))
      = if (o.config.settingsFor MetricsAnalyzer.name).enabled ∧ o.metricsAnalyzer.prepare.1.isOk then
        some ⟨MetricsAnalyzer.name, o.metricsAnalyzer.toAnalyzer.paced pace⟩
      else none :=
    @participant?_of_built o.config _ _ (o.metricsAnalyzer.toAnalyzer.paced pace) rfl
  rw [hregistry]
  show [(MetricsAnalyzer.name, _)].filterMap _ = _
  rw [List.filterMap_cons, hbuilt]
  split_ifs <;> rfl

/-- A run has the execution of the metrics analyzer or none. -/
lemma executions_builtin (hregistry : o.registry = Registry.builtin.paced pace) :
    o.executions workspace paths = [] ∨ ∃ e : Execution, e.OfMetrics (Path.distinct paths) ∧
      o.executions workspace paths = [e] := by
  rw [executions, participants_builtin hregistry]
  split_ifs
  · exact .inr ⟨_, (o.terms workspace paths).ofMetrics_execute _ pace, rfl⟩
  · exact .inl rfl

/-- What is derived from the issues of a report. -/
lemma derived_of_ends (h : o.Ends workspace now paths (.ok report)) :
    report.summary.totalIssues = report.issues.length ∧
      report.summary.bySeverity = .ofIssues report.issues ∧
      report.metrics.security = Score.security report.issues ∧
      report.recommendations = if o.config.recommendations then
        recommend o.templates ⟨report.issues, report.metrics.qualityScore, report.metrics.security⟩
      else [] := by
  obtain ⟨milliseconds, rfl⟩ := exists_eq_assemble_of_ends h
  exact ⟨rfl, rfl, rfl, rfl⟩

/-- The metrics analyzer is all that a report has results of, if it has any. -/
lemma results_builtin (hregistry : o.registry = Registry.builtin.paced pace)
    (h : o.Ends workspace now paths (.ok report)) :
    report.analyzerResults = [] ∧ report.issues = [] ∨
      ∃ e : Execution, e.OfMetrics (Path.distinct paths) ∧
        report.analyzerResults = [e.result] ∧ report.issues = e.kept (Path.distinct paths) := by
  rw [results_of_ends h, issues_of_ends h]
  obtain hnone | ⟨e, he, hone⟩ := @executions_builtin o pace workspace paths hregistry
  · rw [hnone]
    exact .inl ⟨rfl, rfl⟩
  · rw [hone]
    exact .inr ⟨e, he, rfl, List.flatMap_singleton ..⟩

/-- Every issue of a report is about a file of a known language. -/
lemma about_of_mem_issues (hregistry : o.registry = Registry.builtin.paced pace)
    (h : o.Ends workspace now paths (.ok report)) {i : Issue} (hi : i ∈ report.issues) :
    ∃ p ∈ Path.distinct paths, Language.ofPath? p ≠ none ∧ Finding.About p i := by
  obtain ⟨-, hnone⟩ | ⟨e, he, -, hissues⟩ := results_builtin hregistry h
  · rw [hnone] at hi
    exact absurd hi List.not_mem_nil
  · exact he.about i (hissues ▸ hi)

/-- A file with an issue is of a known language. -/
lemma language_of_ends (hregistry : o.registry = Registry.builtin.paced pace)
    (h : o.Ends workspace now paths (.ok report)) {f : FileRecord} (hf : f ∈ report.files)
    (hcount : 0 < f.issueCount) : f.language ≠ "unknown" := by
  rw [files_of_ends h] at hf
  obtain ⟨p, -, rfl⟩ := List.mem_map.1 hf
  obtain ⟨i, hi⟩ := List.exists_mem_of_length_pos hcount
  obtain ⟨hi, hsame⟩ := List.mem_filter.1 hi
  obtain ⟨q, -, hlanguage, habout⟩ := about_of_mem_issues hregistry h hi
  rw [habout.file] at hsame
  exact languageName_ne_unknown (Language.ofPath?_congr hsame ▸ hlanguage)

/-- A report of the built-in registry is as it could be of the metrics analyzer. -/
lemma ofMetrics_of_ends (hregistry : o.registry = Registry.builtin.paced pace)
    (htemplates : o.templates = RecommendationTemplate.defaults)
    (h : o.Ends workspace now paths (.ok report)) : report.OfMetrics := by
  obtain ⟨htotal, hcounts, hsecurity, hrecommendations⟩ := derived_of_ends h
  have hresults := results_builtin hregistry h
  have hjudged := judged_of_ends h
  have herror : ∀ i ∈ report.issues, i.severity ≠ .error := by
    intro i hi
    obtain ⟨p, -, -, habout⟩ := about_of_mem_issues hregistry h hi
    exact habout.severity
  have hunrelated : report.issues.filter Issue.isSecurityRelated = [] := by
    refine List.filter_eq_nil_iff.2 fun i hi => Bool.eq_false_iff.1 ?_
    obtain ⟨p, -, -, habout⟩ := about_of_mem_issues hregistry h hi
    exact not_isSecurityRelated habout
  rw [Score.security_of_none hunrelated] at hsecurity
  constructor
  case alone =>
    obtain ⟨hnone, -⟩ | ⟨e, -, hone, -⟩ := hresults
    · simp [hnone]
    · simp [hone]
  case name =>
    obtain ⟨hnone, -⟩ | ⟨e, he, hone, -⟩ := hresults
    · simp [hnone]
    · simp [hone, he.name]
  case nothing_dropped =>
    rw [htotal]
    obtain ⟨hnone, -⟩ | ⟨e, he, hone, hissues⟩ := hresults
    · simp [hnone]
    · rw [hone, hissues, List.forall_mem_singleton]
      exact he.nothing_dropped
  case language => exact fun f hf => language_of_ends hregistry h hf
  case no_error =>
    rw [hcounts]
    exact Nat.eq_zero_of_not_pos fun hpos =>
      have ⟨i, hi, hseverity⟩ := (SeverityCounts.error_pos_iff _).1 hpos
      herror i hi hseverity
  case two => exact hjudged.two
  case zero => exact hjudged.zero.trans (and_iff_left herror)
  case not_one =>
    intro hone
    obtain ⟨-, i, hi, hseverity⟩ := hjudged.one.1 hone
    exact herror i hi hseverity
  case score => rw [hsecurity]
  case risk => rw [hsecurity]
  case recommendations =>
    intro r hr
    rw [hrecommendations, htemplates] at hr
    split at hr
    · rw [category_of_mem_recommend hunrelated hr]
      decide
    · exact absurd hr List.not_mem_nil

/-- A report of the built-in registry, at whatever pace its analyzer goes, has a result exactly if the
analyzer could take part. What the report says of errors and of security is the same for all files. -/
theorem builtin_report
    (hregistry : o.registry = Registry.builtin ∨ ∃ pace, o.registry = Registry.builtin.paced pace)
    (htemplates : o.templates = RecommendationTemplate.defaults)
    (h : (o.execute workspace now paths).result = .ok report) :
    report.OfMetrics ∧
    (report.analyzerResults ≠ [] ↔ (o.config.settingsFor MetricsAnalyzer.name).enabled ∧
      ∃ c, MetricsAnalyzer.thresholds (o.config.settingsFor MetricsAnalyzer.name).config = .ok c) := by
  obtain ⟨pace, hpaced⟩ : ∃ pace, o.registry = Registry.builtin.paced pace :=
    hregistry.elim (fun hbuiltin => ⟨_, hbuiltin.trans Registry.builtin_paced.symm⟩) id
  have hends := ends_iff_result_execute.2 h
  refine ⟨ofMetrics_of_ends hpaced htemplates hends, ?_⟩
  have hthresholds := o.metricsAnalyzer.isOk_prepare_iff
  rw [results_of_ends hends, executions, participants_builtin hpaced]
  split_ifs with hready
  · exact iff_of_true (List.cons_ne_nil _ _) (hready.imp_right hthresholds.1)
  · exact iff_of_false (fun hne => hne rfl) fun hok => hready (hok.imp_right hthresholds.2)

/-- A run of the metrics analyzer for which a single path through a source is too much. -/
def exactingOrchestrator : Orchestrator where
  config := { analyzers := [("metrics",
    { config := .object [("cyclomatic_threshold", .int 0), ("detect_duplicates", .bool false)] })] }
  registry := Registry.builtin

/-- A file whose syntax tree is one node. -/
def plainWorkspace : Workspace where
  files := FileSystem.ofList [(⟨"a.ts"⟩, ⟨.ok "x", 1⟩)]
  grammar := fun _ _ => some default

/-- The run in the time that the analyzer takes, and with an analyzer that does not end. -/
theorem exactingOrchestrator_report :
    ∃ report lateReport,
      (exactingOrchestrator.execute plainWorkspace default [⟨"a.ts"⟩]).result = .ok report ∧
      report.OfMetrics ∧
      report.issues.head?.map Issue.ruleId = some "complexity/cyclomatic" ∧
      report.summary.exitCode = 0 ∧
      (Orchestrator.execute
        { exactingOrchestrator with registry := Registry.builtin.paced fun _ _ => none }
        plainWorkspace default [⟨"a.ts"⟩]).result = .ok lateReport ∧
      lateReport.OfMetrics ∧ lateReport.summary.exitCode = 2 := by
  obtain ⟨report, hends⟩ : ∃ report, exactingOrchestrator.Ends plainWorkspace default [⟨"a.ts"⟩]
      (.ok report) := ⟨_, (ends_iff_of_goes_on rfl rfl).2 rfl⟩
  obtain ⟨lateReport, hlate⟩ : ∃ report, Orchestrator.Ends
      { exactingOrchestrator with registry := Registry.builtin.paced fun _ _ => none }
      plainWorkspace default [⟨"a.ts"⟩] (.ok report) := ⟨_, (ends_iff_of_goes_on rfl rfl).2 rfl⟩
  have hreport := (builtin_report (.inl rfl) rfl (ends_iff_result_execute.1 hends)).1
  have hlateReport := (builtin_report (.inr ⟨_, rfl⟩) rfl (ends_iff_result_execute.1 hlate)).1
  refine ⟨report, lateReport, ends_iff_result_execute.1 hends, hreport, ?_, hreport.zero.2 ?_,
    ends_iff_result_execute.1 hlate, hlateReport, hlateReport.two.2 ?_⟩
  · rw [issues_of_ends hends]
    decide +kernel
  · rw [results_of_ends hends]
    decide +kernel
  · rw [results_of_ends hlate]
    decide +kernel

end Orchestrator

end CodeAudit
