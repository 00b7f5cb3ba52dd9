import CodeAudit.Proofs.Metrics.Thresholds
import CodeAudit.Proofs.Run.Order
/-!
# The configuration that a report shows

A report shows the configuration of its run as a JSON value. Whatever the analyzers are configured with,
reading that value gives the configuration back. The thresholds of the metrics analyzer can be given in
part: what is left out is read as the defaults have it.
-/
namespace CodeAudit

open Json (Reads)

/-- The settings of an analyzer are read as they were written, whatever it is built from. -/
lemma AnalyzerSettings.decode_toJson (s : AnalyzerSettings) : decode s.toJson = .ok s := by
  have hreads : Reads (.record [("enabled", .whole), ("config", .whole)] [] []) decode s.toJson s := by
    refine .fullRecord ?_ rfl rfl (by decide)
    exact .seq (.map (.present rfl (.boolean s.enabled)) _) (.present rfl (.value s.config))
  exact hreads.self

namespace RunConfig

/-- The numbers of a configuration fit the words that they are held in, and its map is in order. -/
structure InRange (c : RunConfig) : Prop where
  analyzers : NameMap.Sorted c.analyzers
  maxConcurrent : c.maxConcurrent < Nat.pow 2 64
  timeoutMs : c.timeoutMs < Nat.pow 2 64

def shape : Json.Shape :=
  .record [("plugins", .whole), ("parallel_execution", .whole), ("max_concurrent_plugins", .whole),
    ("timeout_ms", .whole), ("fail_fast", .whole), ("generate_recommendations", .whole)] [] []

/-- A configuration is read as it was written. -/
lemma reads {c : RunConfig} (h : c.InRange) : Reads shape decode c.toJson c := by
  obtain ⟨analyzers, parallel, maxConcurrent, timeoutMs, failFast, recommendations⟩ := c
  exact .fullRecord
    (.seq (.seq (.seq (.seq (.seq (.map
      (.present rfl (.mapOf h.analyzers fun entry _ => entry.2.decode_toJson)) _)
      (.present rfl (.boolean _)))
      (.present rfl (.natural h.maxConcurrent)))
      (.present rfl (.natural h.timeoutMs)))
      (.present rfl (.boolean _)))
      (.present rfl (.boolean _))) rfl rfl (by decide)

end RunConfig

namespace Orchestrator

variable {o : Orchestrator} {workspace : Workspace} {now : Timestamp} {paths : List Path}
  {report : Report}

/-- A report shows the configuration of its run. -/
lemma configuration_of_ends (h : o.Ends workspace now paths (.ok report)) :
    report.configuration = o.config.toJson := by
  obtain ⟨milliseconds, rfl⟩ := exists_eq_assemble_of_ends h
  rfl

/-- What a report shows as its configuration is read as the configuration of its run. An object with any
of the thresholds of a configuration, written as the configuration writes them, and with fields of other
names is read as the defaults with these thresholds in their places, and so as the configuration itself
if it has all of them. -/
theorem snapshot_read_back :
    (∀ (o : Orchestrator) (workspace : Workspace) (now : Timestamp) (paths : List Path)
      (report : Report), o.config.InRange → (o.run workspace now paths).1.result = .ok report →
      RunConfig.decode report.configuration = .ok o.config) ∧
    ∀ (c : MetricsConfig) (chosen : Finset MetricsConfig.Field) (given : NameMap Json),
      c.InRange → c.maintainability.isFinite = true → c.Holds chosen given →
      MetricsConfig.ofJson (.object given) = .ok (MetricsConfig.overriddenBy {} c chosen) ∧
        ((∀ field, field ∈ chosen) → MetricsConfig.ofJson (.object given) = .ok c) := by
  constructor
  · intro o workspace now paths report hrange hreport
    have hends : o.Ends workspace now paths (.ok report) := ends_iff_result_execute.2 hreport
    rw [configuration_of_ends hends]
    exact (RunConfig.reads hrange).self
  · intro c chosen given hrange hfinite hholds
    have hread := MetricsConfig.ofJson_of_holds hrange hfinite hholds
    refine ⟨hread, fun hall => ?_⟩
    rw [hread, MetricsConfig.overriddenBy_of_forall_mem _ hall]

/-- Four analyzers one at a time, one of which is disabled and has a nested configuration, and one has an
empty configuration. -/
def nestedOrchestrator : Orchestrator where
  config :=
    { analyzers :=
        [("late", { enabled := false, config := .object [("rules", .list [.null, .float 0.5])] }),
          ("quick", { config := .null })]
      parallel := false
      maxConcurrent := 18446744073709551615
      timeoutMs := 100
      recommendations := false }
  registry := unevenOrchestrator.registry

/-- Two of the odd thresholds as they are written, and a field of another name. -/
def oddFields : NameMap Json :=
  [("duplicate_threshold", .int 0), ("maintainability_threshold", .float (-0.5)), ("note", .list [])]

/-- The nested configuration comes back from the report of the run, and of the odd thresholds the two that
are given. -/
theorem nestedOrchestrator_read_back :
    nestedOrchestrator.config.InRange ∧ MetricsConfig.odd.InRange ∧
      MetricsConfig.odd.maintainability.isFinite = true ∧
      (∃ report, (nestedOrchestrator.run emptyWorkspace default [⟨"a.ts"⟩]).1.result = .ok report ∧
        RunConfig.decode report.configuration = .ok nestedOrchestrator.config) ∧
      MetricsConfig.odd.Holds {.maintainability, .duplicateWindow} oddFields ∧
      MetricsConfig.ofJson (.object oddFields)
        = .ok { maintainability := -0.5, duplicateWindow := 0 } := by
  obtain ⟨hsnapshot, hthresholds⟩ := snapshot_read_back
  have hrange : nestedOrchestrator.config.InRange :=
    ⟨List.pairwise_pair.2 (by decide), by decide, by decide⟩
  have hodd := MetricsConfig.odd_inRange
  have hfinite := MetricsConfig.isFinite_maintainability_odd
  have hholds : MetricsConfig.odd.Holds {.maintainability, .duplicateWindow} oddFields := by
    intro field
    cases field <;> rfl
  obtain ⟨report, hends⟩ : ∃ report,
      nestedOrchestrator.Ends emptyWorkspace default [⟨"a.ts"⟩] (.ok report) :=
    ⟨_, (ends_iff_of_goes_on rfl rfl).2 rfl⟩
  have hreport : (nestedOrchestrator.run emptyWorkspace default [⟨"a.ts"⟩]).1.result = .ok report :=
    ends_iff_result_execute.1 hends
  refine ⟨hrange, hodd, hfinite, ⟨report, hreport, ?_⟩, hholds, ?_⟩
  · exact hsnapshot _ _ _ _ _ hrange hreport
  · exact (hthresholds _ _ _ hodd hfinite hholds).1

end Orchestrator

end CodeAudit
