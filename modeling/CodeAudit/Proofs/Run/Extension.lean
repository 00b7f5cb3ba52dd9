import CodeAudit.Proofs.Run.Outcome
import CodeAudit.Proofs.Score
/-!
# One more analyzer

An analyzer that is registered under a new name adds to a report and takes nothing away. Whatever it
does, the results and the issues of the others stay where they were, and no measure that is derived
from them gets better.
-/
namespace CodeAudit

namespace Registry

/-- A name that is not registered is entered at the end. -/
lemma enter_of_forall_ne {name : String} (factory : Factory) {entries : List (String × Factory)}
    (h : ∀ entry ∈ entries, entry.1 ≠ name) :
    enter name factory entries = entries ++ [(name, factory)] := by
  induction entries with
  | nil => rfl
  | cons head rest ih =>
    obtain ⟨hhead, hrest⟩ := List.forall_mem_cons.1 h
    rw [enter, if_neg hhead, ih hrest]
    rfl

/-- A new analyzer is registered after all others. -/
lemma entries_register {r : Registry} {name : String} (factory : Factory)
    (h : r.contains name = false) :
    (r.register name factory).entries = r.entries ++ [(name, factory)] := by
  apply enter_of_forall_ne
  intro entry hentry
  simpa using List.any_eq_false.1 h entry hentry

end Registry

/-- The second report has everything that the first one has, and is in no measure better. -/
structure Report.Extended (report report' : Report) : Prop where
  results : ∃ kept added, report'.analyzerResults = kept ++ added ∧
    List.Forall₂ AnalyzerResult.Alike report.analyzerResults kept
  issues : report.issues <+: report'.issues
  files : List.Forall₂ (fun r r' : FileRecord => r.path = r'.path ∧ r.issueCount ≤ r'.issueCount)
    report.files report'.files
  exitCode : report.summary.exitCode ≤ report'.summary.exitCode
  quality : report'.metrics.qualityScore ≤ report.metrics.qualityScore
  security : report'.metrics.security.score ≤ report.metrics.security.score
  risk : report.metrics.security.riskLevel.rank ≤ report'.metrics.security.riskLevel.rank

namespace Orchestrator

variable {o p : Orchestrator} {workspace : Workspace} {now now' : Timestamp} {paths : List Path}
  {report report' : Report}

/-- The orchestrator with one more analyzer. -/
def extend (o : Orchestrator) (name : String) (factory : Factory) : Orchestrator :=
  { o with registry := o.registry.register name factory }

/-- The executions of the others stay as they were. -/
lemma executions_extend {name : String} (factory : Factory) (h : o.registry.contains name = false) :
    o.executions workspace paths <+: (o.extend name factory).executions workspace paths := by
  have hparticipants : participants o.config (o.registry.register name factory)
      = participants o.config o.registry
        ++ [(name, factory)].filterMap (participant? o.config) := by
    rw [participants, Registry.entries_register factory h, List.filterMap_append]
    rfl
  rw [executions, executions]
  show _ <+: (participants o.config (o.registry.register name factory)).map _
  rw [hparticipants, List.map_append]
  exact List.prefix_append _ _

/-- The scores of a report are those of its issues. -/
lemma scores_of_ends (h : o.Ends workspace now paths (.ok report)) :
    report.metrics.qualityScore = Score.quality (.ofIssues report.issues) ∧
      report.metrics.security = Score.security report.issues := by
  obtain ⟨milliseconds, rfl⟩ := exists_eq_assemble_of_ends h
  exact ⟨rfl, rfl⟩

/-- If one run has executions like all those of the other and some after them, its report extends that
of the other. -/
lemma extended_of_kept {kept added : List Execution}
    (h : o.Ends workspace now paths (.ok report)) (h' : p.Ends workspace now' paths (.ok report'))
    (hplace : p.executions workspace paths = kept ++ added)
    (hkept : List.Forall₂ Execution.Alike (o.executions workspace paths) kept) :
    report.Extended report' := by
  have hissues : report.issues <+: report'.issues := by
    rw [issues_of_ends h, issues_of_ends h', hplace, kept_of_alike _ hkept, List.flatMap_append]
    exact List.prefix_append _ _
  have hfailures : report.analyzerResults.countP AnalyzerResult.isFailed
      ≤ report'.analyzerResults.countP AnalyzerResult.isFailed := by
    rw [results_of_ends h, results_of_ends h', hplace, failures_of_alike hkept, List.map_append,
      List.countP_append]
    exact Nat.le_add_right _ _
  have hcounts := SeverityCounts.ofIssues_atMost hissues.sublist.subperm
  have hmilder := Score.milder_security hissues.sublist.subperm
  obtain ⟨hcode, -⟩ := exitCode_and_status_of_ends h
  obtain ⟨hcode', -⟩ := exitCode_and_status_of_ends h'
  obtain ⟨hquality, hsecurity⟩ := scores_of_ends h
  obtain ⟨hquality', hsecurity'⟩ := scores_of_ends h'
  constructor
  case results =>
    rw [results_of_ends h, results_of_ends h', hplace]
    exact ⟨_, _, List.map_append, results_of_alike hkept⟩
  case issues => exact hissues
  case files =>
    rw [files_of_ends h, files_of_ends h', List.forall₂_map_left_iff, List.forall₂_map_right_iff,
      List.forall₂_same]
    exact fun file _ => ⟨rfl, (hissues.sublist.filter _).length_le⟩
  case exitCode =>
    rw [hcode, hcode']
    refine Score.exitCode_le_exitCode (fun hfailed => ?_) hcounts
    rw [decide_eq_true_eq] at hfailed ⊢
    exact hfailed.trans_le hfailures
  case quality =>
    rw [hquality, hquality']
    exact Score.quality_le_quality hcounts
  case security =>
    rw [hsecurity, hsecurity']
    exact hmilder.score
  case risk =>
    rw [hsecurity, hsecurity']
    exact hmilder.risk

/-- If the faults of the one run are the first ones of the other to the letter, so are the results but
for times. -/
lemma untimed_prefix_of_faults {kept added : List Execution}
    (h : o.Ends workspace now paths (.ok report)) (h' : p.Ends workspace now' paths (.ok report'))
    (hplace : p.executions workspace paths = kept ++ added)
    (hkept : List.Forall₂ Execution.Alike (o.executions workspace paths) kept)
    (hfaults : o.faults workspace paths <+: p.faults workspace paths) :
    report.analyzerResults.map AnalyzerResult.untimed
      <+: report'.analyzerResults.map AnalyzerResult.untimed := by
  rw [← map_fault_executions, ← map_fault_executions, hplace, List.map_append] at hfaults
  have hlength : ((o.executions workspace paths).map Execution.fault).length
      = (kept.map Execution.fault).length := by
    rw [List.length_map, List.length_map, hkept.length_eq]
  have hsame : (o.executions workspace paths).map Execution.fault = kept.map Execution.fault :=
    (List.prefix_of_prefix_length_le hfaults (List.prefix_append _ _) hlength.le).eq_of_length hlength
  rw [results_of_ends h, results_of_ends h', hplace, ← map_result_untimed, ← map_result_untimed,
    map_untimed_of_alike hkept hsame, List.map_append, List.map_append]
  exact List.prefix_append _ _

/-- With one more analyzer a run that goes on after failures still comes to a report, and whatever
the analyzer does, the report extends the one without it. So does the report of any run that is set
the same work, however long its analyzers take, whatever batches they are cut into and whatever
numbers the tasks have that break off. -/
theorem report_extended (name : String) (factory : Factory) (now' : Timestamp)
    (hgoes : o.config.failFast = false) (hnew : o.registry.contains name = false)
    (h : o.Ends workspace now paths (.ok report)) :
    (∃ report', (∀ result, (o.extend name factory).Ends workspace now' paths result
        ↔ result = .ok report') ∧ report.Extended report' ∧
      report.analyzerResults.map AnalyzerResult.untimed
        <+: report'.analyzerResults.map AnalyzerResult.untimed) ∧
      ∀ p report', SameWork workspace paths (o.extend name factory) p →
        p.Ends workspace now' paths (.ok report') → report.Extended report' ∧
          (o.faults workspace paths <+: p.faults workspace paths →
            report.analyzerResults.map AnalyzerResult.untimed
              <+: report'.analyzerResults.map AnalyzerResult.untimed) := by
  have hvalid : o.config.problem? = none := problem?_eq_none_of_ends h
  have hprefix : o.executions workspace paths
      <+: (o.extend name factory).executions workspace paths := executions_extend factory hnew
  have hextends (p : Orchestrator) (report' : Report)
      (hwork : SameWork workspace paths (o.extend name factory) p)
      (h' : p.Ends workspace now' paths (.ok report')) : report.Extended report' ∧
        (o.faults workspace paths <+: p.faults workspace paths →
          report.analyzerResults.map AnalyzerResult.untimed
            <+: report'.analyzerResults.map AnalyzerResult.untimed) := by
    have halike := hwork.executions
    rw [← hprefix.choose_spec] at halike
    obtain ⟨kept, added, hplace, hkept, -⟩ := exists_append_of_forall₂ halike
    exact ⟨extended_of_kept h h' hplace hkept, untimed_prefix_of_faults h h' hplace hkept⟩
  refine ⟨?_, hextends⟩
  obtain ⟨report', hends⟩ :=
    exists_ends_iff (o := o.extend name factory) workspace now' paths hvalid hgoes
  obtain ⟨hextended, huntimed⟩ := hextends _ report' (.refl _ _ _) ((hends _).2 rfl)
  refine ⟨report', hends, hextended, huntimed ?_⟩
  rw [← map_fault_executions, ← map_fault_executions]
  exact hprefix.map Execution.fault

/-- The factory of an analyzer that finds a security issue in a file. -/
def guardFactory : Factory := fun _ =>
  .ok (steadyAnalyzer "guard" (.settles 40 (.issues
    [{ findingAt "g" "b.ts/" with severity := .error, ruleId := "Security/eval" }])))

/-- The twins and the guard after them, one after the other. -/
def guardedOrchestrator : Orchestrator :=
  { twinOrchestrator.extend "guard" guardFactory with
    config := { parallel := false, timeoutMs := 100 } }

/-- The error that the guard finds is counted for its file, and it makes every measure worse. -/
theorem twinOrchestrator_extended :
    ∃ report report', twinOrchestrator.config.failFast = false ∧
      twinOrchestrator.registry.contains "guard" = false ∧
      SameWork emptyWorkspace [⟨"src/a.ts/"⟩, ⟨"b.ts"⟩]
        (twinOrchestrator.extend "guard" guardFactory) guardedOrchestrator ∧
      twinOrchestrator.Ends emptyWorkspace default [⟨"src/a.ts/"⟩, ⟨"b.ts"⟩] (.ok report) ∧
      guardedOrchestrator.Ends emptyWorkspace default [⟨"src/a.ts/"⟩, ⟨"b.ts"⟩] (.ok report') ∧
      report.Extended report' ∧
      report.files.map FileRecord.issueCount = [3, 2] ∧
      report'.files.map FileRecord.issueCount = [3, 3] ∧
      report.summary.exitCode = 0 ∧ report'.summary.exitCode = 1 ∧
      report.metrics.qualityScore = 95 ∧ report'.metrics.qualityScore = 85 ∧
      report.metrics.security.score = 100 ∧ report'.metrics.security.score = 75 ∧
      report'.metrics.security.riskLevel = .critical := by
  have hwork : SameWork emptyWorkspace [⟨"src/a.ts/"⟩, ⟨"b.ts"⟩]
      (twinOrchestrator.extend "guard" guardFactory) guardedOrchestrator := by
    refine ⟨rfl, rfl, rfl, rfl, ?_⟩
    exact List.forall₂_same.2 fun entry _ => EntriesAlike.refl entry
  obtain ⟨report, hends⟩ : ∃ report, twinOrchestrator.Ends emptyWorkspace default
      [⟨"src/a.ts/"⟩, ⟨"b.ts"⟩] (.ok report) := ⟨_, (ends_iff_of_goes_on rfl rfl).2 rfl⟩
  obtain ⟨report', hends'⟩ : ∃ report, guardedOrchestrator.Ends emptyWorkspace default
      [⟨"src/a.ts/"⟩, ⟨"b.ts"⟩] (.ok report) := ⟨_, (ends_iff_of_goes_on rfl rfl).2 rfl⟩
  obtain ⟨-, hextended⟩ := report_extended "guard" guardFactory default rfl (by decide) hends
  refine ⟨report, report', rfl, by decide, hwork, hends, hends', (hextended _ _ hwork hends').1, ?_⟩
  obtain rfl := Except.ok.inj ((ends_iff_of_goes_on rfl rfl).1 hends)
  obtain rfl := Except.ok.inj ((ends_iff_of_goes_on rfl rfl).1 hends')
  decide +kernel

end Orchestrator

end CodeAudit
