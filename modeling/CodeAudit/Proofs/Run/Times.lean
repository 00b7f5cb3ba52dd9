import CodeAudit.Proofs.NameMap
import CodeAudit.Proofs.Run.Records
/-!
# Times of analyzers

A report lists the time that each analyzer took by the name that the analyzer goes by. Of two
analyzers that go by one name it has the time of the later one only, so no time is lost if and only
if all go by different names.
-/
namespace CodeAudit

/-- The times of the results of a report, each under the name of its result. -/
def Report.resultTimes (report : Report) : List (String × Nat) :=
  report.analyzerResults.map fun r => (r.name, r.milliseconds)

/-- What the times that a report lists have to do with its results. -/
structure Report.Timed (report : Report) : Prop where
  sorted : NameMap.Sorted report.metrics.analyzerTimes
  /-- The time of a name is that of its last result. -/
  last : ∀ entry, entry ∈ report.metrics.analyzerTimes ↔ NameMap.IsLast report.resultTimes entry
  complete : report.metrics.analyzerTimes.Perm report.resultTimes ↔
    (report.analyzerResults.map AnalyzerResult.name).Nodup

namespace Orchestrator

variable {o : Orchestrator} {workspace : Workspace} {now : Timestamp} {paths : List Path}
  {report : Report}

/-- The times of a report are made of those of its results. -/
lemma analyzerTimes_of_ends (h : o.Ends workspace now paths (.ok report)) :
    report.metrics.analyzerTimes = NameMap.ofList report.resultTimes := by
  obtain ⟨milliseconds, rfl⟩ := exists_eq_assemble_of_ends h
  rfl

/-- The results of a report have the names of the analyzers that take part. -/
lemma names_of_ends (h : o.Ends workspace now paths (.ok report)) :
    report.analyzerResults.map AnalyzerResult.name
      = (participants o.config o.registry).map fun r => r.analyzer.name := by
  rw [results_of_ends h, executions, List.map_map, List.map_map]
  exact List.map_congr_left fun r _ => Execution.name_run ..

/-- The times of a report are those of the last results of each name. -/
lemma timed_of_ends (h : o.Ends workspace now paths (.ok report)) : report.Timed := by
  have hnames : report.resultTimes.map Prod.fst = report.analyzerResults.map AnalyzerResult.name :=
    List.map_map
  have htimes := analyzerTimes_of_ends h
  constructor
  case sorted => exact htimes ▸ NameMap.sorted_ofList _
  case last =>
    intro entry
    rw [htimes]
    exact NameMap.mem_ofList_iff
  case complete =>
    rw [htimes, ← hnames]
    exact NameMap.ofList_perm_iff

/-- The times that a report lists are those of the last results of each name. It lists the times of
all results if and only if they are under different names. So no time is lost if each analyzer goes by
the name that it is registered under, and each name is registered once. -/
theorem times_of_last_results (h : o.Ends workspace now paths (.ok report)) :
    report.Timed ∧
      (report.metrics.analyzerTimes.Perm report.resultTimes ↔
        ((participants o.config o.registry).map fun r => r.analyzer.name).Nodup) ∧
      (o.registry.names.Nodup →
        (∀ r ∈ participants o.config o.registry, r.analyzer.name = r.entry) →
        report.metrics.analyzerTimes.Perm report.resultTimes) := by
  have htimed := timed_of_ends h
  have hcomplete := htimed.complete
  rw [names_of_ends h] at hcomplete
  refine ⟨htimed, hcomplete, fun hdistinct hnames => hcomplete.2 ?_⟩
  rw [List.map_congr_left hnames]
  exact hdistinct.sublist (entries_participants_sublist o.config o.registry)

/-- Where all go by the names that they are registered under, the report lists all times, in the order
of the names. -/
theorem unevenOrchestrator_times :
    ∃ report, unevenOrchestrator.Ends emptyWorkspace default [⟨"a.ts"⟩] (.ok report) ∧
      report.Timed ∧ unevenOrchestrator.registry.names.Nodup ∧
      (∀ r ∈ participants unevenOrchestrator.config unevenOrchestrator.registry,
        r.analyzer.name = r.entry) ∧
      report.metrics.analyzerTimes.Perm report.resultTimes ∧
      report.resultTimes = [("slow", 80), ("late", 100), ("quick", 1)] := by
  obtain ⟨report, hends⟩ : ∃ report, unevenOrchestrator.Ends emptyWorkspace default [⟨"a.ts"⟩]
      (.ok report) := ⟨_, (ends_iff_of_goes_on rfl rfl).2 rfl⟩
  obtain ⟨htimed, -, hall⟩ := times_of_last_results hends
  have hdistinct : unevenOrchestrator.registry.names.Nodup := by decide
  have hnames : ∀ r ∈ participants unevenOrchestrator.config unevenOrchestrator.registry,
      r.analyzer.name = r.entry := by decide
  refine ⟨report, hends, htimed, hdistinct, hnames, hall hdistinct hnames, ?_⟩
  rw [Report.resultTimes, results_of_ends hends]
  rfl

/-- Two entries whose analyzers go by one name. -/
def namesakeOrchestrator : Orchestrator where
  config := {}
  registry := ⟨[
    ("x", fun _ => .ok (steadyAnalyzer "same" (.settles 5 (.issues [])))),
    ("y", fun _ => .ok (steadyAnalyzer "same" (.settles 9 (.issues []))))]⟩

/-- The report has the results of both, and the time of the first one is lost. -/
theorem namesakeOrchestrator_loses_time :
    ∃ report, namesakeOrchestrator.Ends emptyWorkspace default [⟨"/virtual/src/a.ts"⟩] (.ok report) ∧
      report.resultTimes = [("same", 5), ("same", 9)] ∧
      report.metrics.analyzerTimes = [("same", 9)] ∧
      ¬ report.metrics.analyzerTimes.Perm report.resultTimes := by
  obtain ⟨report, hends⟩ : ∃ report, namesakeOrchestrator.Ends emptyWorkspace default
      [⟨"/virtual/src/a.ts"⟩] (.ok report) := ⟨_, (ends_iff_of_goes_on rfl rfl).2 rfl⟩
  have hresults : report.resultTimes = [("same", 5), ("same", 9)] := by
    rw [Report.resultTimes, results_of_ends hends]
    rfl
  have htimes : report.metrics.analyzerTimes = [("same", 9)] := by
    rw [analyzerTimes_of_ends hends, hresults]
    decide
  refine ⟨report, hends, hresults, htimes, fun hperm => ?_⟩
  rw [htimes, hresults] at hperm
  exact absurd hperm.length_eq (by decide)

end Orchestrator

end CodeAudit
