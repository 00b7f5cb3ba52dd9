import CodeAudit.Proofs.Run.Agreement
/-!
# Reports do not depend on the schedule

Two runs are set the same work if they differ in nothing but the batches, what becomes of failures,
the time that their analyzers take to come to the same outcomes, and the numbers of the tasks that
break off. If both go on after failures, their reports agree. They differ in nothing but the times
and the configuration that they show if the faults of both runs are the same to the letter.
-/
namespace CodeAudit

/-- Two analyzers that come to the same outcome, each in its own time and with a task of its own. -/
structure Analyzer.Alike (t : Terms) (a b : Analyzer) : Prop where
  name : a.name = b.name
  version : a.version = b.version
  prepare : a.prepare.isOk = b.prepare.isOk
  outcome : OutcomesAlike ((a.analyze t.workspace t.files).settle t.timeout).2
    ((b.analyze t.workspace t.files).settle t.timeout).2

/-- An analyzer is like itself. -/
lemma Analyzer.Alike.refl {t : Terms} (a : Analyzer) : a.Alike t a :=
  ⟨rfl, rfl, rfl, .refl _⟩

/-- Two entries of one name that build analyzers that are alike, or no analyzers. -/
structure EntriesAlike (t : Terms) (x y : String × Factory) : Prop where
  name : x.1 = y.1
  built : ∀ config, Option.Rel (Analyzer.Alike t) (x.2 config).toOption (y.2 config).toOption

/-- An entry is like itself. -/
lemma EntriesAlike.refl {t : Terms} (entry : String × Factory) : EntriesAlike t entry entry := by
  refine ⟨rfl, fun config => ?_⟩
  cases (entry.2 config).toOption with
  | none => exact .none
  | some analyzer => exact .some (.refl analyzer)

/-- Two analyzers that take part in runs and are alike. -/
structure ReadyAnalyzer.Alike (t : Terms) (r s : ReadyAnalyzer) : Prop where
  entry : r.entry = s.entry
  analyzer : r.analyzer.Alike t s.analyzer

/-- Analyzers that are alike are executed alike. -/
lemma Analyzer.Alike.execute {t : Terms} {a b : Analyzer} (h : a.Alike t b) :
    (t.execute a).Alike (t.execute b) := by
  rw [t.execute_eq, t.execute_eq]
  exact .ofOutcome h.name h.version _ _ _ h.outcome

namespace Orchestrator

/-- Two orchestrators that are set the same work, to be done in batches and in times of their own. -/
structure SameWork (workspace : Workspace) (paths : List Path) (o p : Orchestrator) : Prop where
  analyzers : o.config.analyzers = p.config.analyzers
  timeout : o.config.timeoutMs = p.config.timeoutMs
  recommendations : o.config.recommendations = p.config.recommendations
  templates : o.templates = p.templates
  entries : List.Forall₂ (EntriesAlike (o.terms workspace paths)) o.registry.entries
    p.registry.entries

/-- How an analyzer fails in a run of an orchestrator, if it does. -/
def fault? (o : Orchestrator) (workspace : Workspace) (paths : List Path) (r : ReadyAnalyzer) :
    Option Fault :=
  (r.analyzer.analyze workspace (Path.distinct paths)).fault? o.config.timeoutMs

/-- How the analyzers that take part fail, if they do, to the letter. -/
def faults (o : Orchestrator) (workspace : Workspace) (paths : List Path) : List (Option Fault) :=
  (participants o.config o.registry).map (o.fault? workspace paths)

variable {o p : Orchestrator} {workspace : Workspace} {now now' : Timestamp} {paths : List Path}
  {report report' : Report}

/-- The fault of an execution is how the analyzer fails. -/
lemma fault_execute (r : ReadyAnalyzer) :
    ((o.terms workspace paths).execute r.analyzer).fault = o.fault? workspace paths r :=
  Execution.fault_run ..

/-- The executions have the faults of the analyzers. -/
lemma map_fault_executions :
    (o.executions workspace paths).map Execution.fault = o.faults workspace paths := by
  rw [executions, faults, List.map_map]
  exact List.map_congr_left fun r _ => fault_execute r

/-- An orchestrator is set the same work as itself. -/
lemma SameWork.refl (workspace : Workspace) (paths : List Path) (o : Orchestrator) :
    SameWork workspace paths o o :=
  ⟨rfl, rfl, rfl, rfl, List.forall₂_same.2 fun entry _ => .refl entry⟩

/-- Of entries that are alike both take part or none. -/
lemma SameWork.participant? (h : SameWork workspace paths o p) {x y : String × Factory}
    (hxy : EntriesAlike (o.terms workspace paths) x y) :
    Option.Rel (ReadyAnalyzer.Alike (o.terms workspace paths)) (CodeAudit.participant? o.config x)
      (CodeAudit.participant? p.config y) := by
  have hsettings : o.config.settingsFor x.1 = p.config.settingsFor y.1 := by
    rw [RunConfig.settingsFor, RunConfig.settingsFor, h.analyzers, hxy.name]
  have hbuilt := hxy.built (o.config.settingsFor x.1).config
  rw [participant?_eq, participant?_eq, ← hsettings]
  generalize (x.2 (o.config.settingsFor x.1).config).toOption = built at hbuilt ⊢
  generalize (y.2 (o.config.settingsFor x.1).config).toOption = built' at hbuilt ⊢
  cases hbuilt with
  | none => exact .none
  | @some a b hab =>
    show Option.Rel _ (if _ ∧ a.prepare.isOk then _ else _) (if _ ∧ b.prepare.isOk then _ else _)
    rw [hab.prepare]
    split
    · exact .some ⟨hxy.name, hab⟩
    · exact .none

/-- The analyzers that take part are alike one by one. -/
lemma SameWork.participants (h : SameWork workspace paths o p) :
    List.Forall₂ (ReadyAnalyzer.Alike (o.terms workspace paths))
      (CodeAudit.participants o.config o.registry) (CodeAudit.participants p.config p.registry) :=
  List.rel_filterMap (fun _ _ hxy => h.participant? hxy) h.entries

/-- The analyzers of both runs have the same time. -/
lemma SameWork.execute_eq (h : SameWork workspace paths o p) (a : Analyzer) :
    (p.terms workspace paths).execute a = (o.terms workspace paths).execute a := by
  rw [Terms.execute, Terms.execute, terms, terms, h.timeout]

/-- Analyzers that are alike are executed alike in both runs. -/
lemma SameWork.execute (h : SameWork workspace paths o p) {r s : ReadyAnalyzer}
    (hrs : r.Alike (o.terms workspace paths) s) :
    ((o.terms workspace paths).execute r.analyzer).Alike
      ((p.terms workspace paths).execute s.analyzer) := by
  rw [h.execute_eq]
  exact hrs.analyzer.execute

/-- The executions of both runs are alike one by one. -/
lemma SameWork.executions (h : SameWork workspace paths o p) :
    List.Forall₂ Execution.Alike (o.executions workspace paths) (p.executions workspace paths) := by
  rw [Orchestrator.executions, Orchestrator.executions, List.forall₂_map_left_iff,
    List.forall₂_map_right_iff]
  exact h.participants.imp fun _ _ => h.execute

/-- Runs with executions that are alike end with reports that are alike. These differ in nothing but
times and configuration if the faults are the same to the letter. -/
lemma alike_of_ends (hexecutions : List.Forall₂ Execution.Alike (o.executions workspace paths)
      (p.executions workspace paths)) (htemplates : o.templates = p.templates)
    (hrecommendations : o.config.recommendations = p.config.recommendations)
    (h : o.Ends workspace now paths (.ok report)) (h' : p.Ends workspace now' paths (.ok report')) :
    report.Alike report' ∧
      (o.faults workspace paths = p.faults workspace paths → report.untimed = report'.untimed) := by
  obtain ⟨milliseconds, rfl⟩ := exists_eq_assemble_of_ends h
  obtain ⟨milliseconds', rfl⟩ := exists_eq_assemble_of_ends h'
  have halike := Report.alike_assemble (Path.distinct paths) hrecommendations hexecutions p.templates
    workspace.files now now' milliseconds milliseconds'
  rw [htemplates]
  refine ⟨halike, fun hfaults => halike.untimed_eq ?_⟩
  rw [← map_fault_executions, ← map_fault_executions] at hfaults
  show ((o.executions workspace paths).map Execution.result).map AnalyzerResult.untimed
    = ((p.executions workspace paths).map Execution.result).map AnalyzerResult.untimed
  rw [← map_result_untimed, ← map_result_untimed, map_untimed_of_alike hexecutions hfaults]

/-- Two runs of the same work that go on after failures end with reports that agree, whatever batches
the analyzers are cut into, however long they take and in whatever order they settle: but for times
and configuration, and for the numbers of the tasks that break off. If these are the same as well,
nothing but times and configuration is left to differ. -/
theorem schedules_agree (now now' : Timestamp) (hvalid : o.config.problem? = none)
    (hvalid' : p.config.problem? = none) (hgoes : o.config.failFast = false)
    (hgoes' : p.config.failFast = false) (hwork : SameWork workspace paths o p) :
    ∃ report report', (∀ result, o.Ends workspace now paths result ↔ result = .ok report) ∧
      (∀ result, p.Ends workspace now' paths result ↔ result = .ok report') ∧
      report.Alike report' ∧
      (o.faults workspace paths = p.faults workspace paths → report.untimed = report'.untimed) := by
  obtain ⟨report, hends⟩ := exists_ends_iff workspace now paths hvalid hgoes
  obtain ⟨report', hends'⟩ := exists_ends_iff workspace now' paths hvalid' hgoes'
  exact ⟨report, report', hends, hends', alike_of_ends hwork.executions hwork.templates
    hwork.recommendations ((hends _).2 rfl) ((hends' _).2 rfl)⟩

/-- The uneven work done by one analyzer after the other, the slow one in a hurry. -/
def singleOrchestrator : Orchestrator where
  config := { parallel := false, maxConcurrent := 7, timeoutMs := 100 }
  registry := ⟨[
    ("slow", fun _ => .ok (steadyAnalyzer "slow"
      (.settles 5 (.issues [findingAt "s1" "a.ts", findingAt "s2" "c.ts"])))),
    ("broken", fun _ => .error (.execution "broken")),
    ("late", fun _ => .ok (steadyAnalyzer "late" .awaitsCancellation)),
    ("quick", fun _ => .ok (steadyAnalyzer "quick" (.settles 99 (.issues [findingAt "q" "./b.ts/"]))))]⟩

/-- The two orchestrators take their time differently, and their reports differ in nothing else. -/
theorem unevenOrchestrator_agrees :
    unevenOrchestrator.config.problem? = none ∧ singleOrchestrator.config.problem? = none ∧
    unevenOrchestrator.config.failFast = false ∧ singleOrchestrator.config.failFast = false ∧
    SameWork emptyWorkspace [⟨"a.ts"⟩, ⟨"./b.ts"⟩] unevenOrchestrator singleOrchestrator ∧
    ∃ report report',
      unevenOrchestrator.Ends emptyWorkspace default [⟨"a.ts"⟩, ⟨"./b.ts"⟩] (.ok report) ∧
      singleOrchestrator.Ends emptyWorkspace default [⟨"a.ts"⟩, ⟨"./b.ts"⟩] (.ok report') ∧
      report.Alike report' ∧ report.untimed = report'.untimed ∧
      report.metrics.milliseconds = 101 ∧ report'.metrics.milliseconds = 204 := by
  have hwork : SameWork emptyWorkspace [⟨"a.ts"⟩, ⟨"./b.ts"⟩] unevenOrchestrator
      singleOrchestrator := by
    refine ⟨rfl, rfl, rfl, rfl, ?_⟩
    refine .cons ⟨rfl, fun _ => .some ⟨rfl, rfl, rfl, .ok _⟩⟩ ?_
    refine .cons ⟨rfl, fun _ => .none⟩ ?_
    refine .cons ⟨rfl, fun _ => .some ⟨rfl, rfl, rfl, .error (.refl _)⟩⟩ ?_
    exact .cons ⟨rfl, fun _ => .some ⟨rfl, rfl, rfl, .ok _⟩⟩ .nil
  obtain ⟨report, report', hends, hends', halike, huntimed⟩ :=
    schedules_agree default default rfl rfl rfl rfl hwork
  have hreport := (hends _).1 ((ends_iff_of_goes_on rfl rfl).2 rfl)
  have hreport' := (hends' _).1 ((ends_iff_of_goes_on rfl rfl).2 rfl)
  refine ⟨rfl, rfl, rfl, rfl, hwork, report, report', (hends _).2 rfl, (hends' _).2 rfl, halike,
    huntimed rfl, ?_, ?_⟩
  · rw [← Except.ok.inj hreport]
    decide +kernel
  · rw [← Except.ok.inj hreport']
    decide +kernel

end Orchestrator

end CodeAudit
