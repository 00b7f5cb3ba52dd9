import CodeAudit.Proofs.NameMap
import CodeAudit.Proofs.Run.Rescheduling
/-!
# Analyzers do not disturb each other

Another analyzer, or another configuration of it, in the place of one entry of the registry changes
nothing about what the other entries contribute to a report, if these take other times and their
tasks have other numbers, nothing else. An analyzer that is late contributes that it was late,
whatever it comes to after that.
-/
namespace CodeAudit

namespace Registry

variable {β : Type} {f : String × Factory → Option β} {name : String}

/-- What is not asked of a name does not depend on the factory that is registered under it. -/
lemma filterMap_enter_of_none (h : ∀ factory, f (name, factory) = none) (factory : Factory)
    (entries : List (String × Factory)) :
    (enter name factory entries).filterMap f = entries.filterMap f := by
  induction entries with
  | nil => rw [enter, List.filterMap_cons_none (h factory)]
  | cons head rest ih =>
    obtain ⟨other, old⟩ := head
    rw [enter]
    split
    · next heq =>
      subst heq
      rw [List.filterMap_cons_none (h factory), List.filterMap_cons_none (h old)]
    · rw [List.filterMap_cons, List.filterMap_cons, ih]

/-- Of two factories about which the same is to be told, either may be registered. -/
lemma filterMap_enter_congr {factory factory' : Factory}
    (h : f (name, factory) = f (name, factory')) (entries : List (String × Factory)) :
    (enter name factory entries).filterMap f = (enter name factory' entries).filterMap f := by
  induction entries with
  | nil => rw [enter, enter, List.filterMap_cons, List.filterMap_cons, h]
  | cons head rest ih =>
    obtain ⟨other, old⟩ := head
    rw [enter, enter]
    split
    · rw [List.filterMap_cons, List.filterMap_cons, h]
    · rw [List.filterMap_cons, List.filterMap_cons, ih]

end Registry

/-- The results and the issues of a report come from some executions, one after the other. -/
structure Report.MadeOf (report : Report) (files : List Path)
    (contributions : List (String × Execution)) : Prop where
  results : report.analyzerResults = contributions.map (·.2.result)
  issues : report.issues = contributions.flatMap (·.2.kept files)

namespace Orchestrator

/-- The orchestrator with other settings and another factory for one entry. -/
def replace (o : Orchestrator) (entry : String) (settings : AnalyzerSettings) (factory : Factory) :
    Orchestrator :=
  { o with
    config := o.config.withAnalyzer entry settings
    registry := o.registry.register entry factory }

/-- The executions of the analyzers that take part, with the names of their entries. -/
def contributions (o : Orchestrator) (workspace : Workspace) (paths : List Path) :
    List (String × Execution) :=
  (participants o.config o.registry).map fun r =>
    (r.entry, (o.terms workspace paths).execute r.analyzer)

/-- What the entries but one contribute. -/
def contributionsBut (o : Orchestrator) (entry : String) (workspace : Workspace)
    (paths : List Path) : List (String × Execution) :=
  (o.contributions workspace paths).filter (·.1 ≠ entry)

variable {o p : Orchestrator} {workspace : Workspace} {now now' : Timestamp} {paths : List Path}
  {entry : String} {settings : AnalyzerSettings} {factory : Factory}

/-- The other entries keep their settings. -/
lemma settingsFor_replace {other : String} (h : other ≠ entry) :
    (o.replace entry settings factory).config.settingsFor other = o.config.settingsFor other := by
  show (NameMap.get? other (NameMap.insert entry settings o.config.analyzers)).getD {} = _
  rw [NameMap.get?_insert_of_ne h]
  rfl

/-- What the entries but one contribute, asked of each entry of the registry. -/
lemma contributionsBut_eq_filterMap :
    o.contributionsBut entry workspace paths
      = o.registry.entries.filterMap fun e =>
        if e.1 = entry then none
        else (participant? o.config e).map fun r =>
          (r.entry, (o.terms workspace paths).execute r.analyzer) := by
  rw [contributionsBut, contributions, participants, List.map_filterMap, List.filter_filterMap]
  refine List.filterMap_congr fun e _ => ?_
  cases hparticipant : participant? o.config e with
  | none => simp
  | some r =>
    have hentry : r.entry = e.1 := entry_of_participant? hparticipant
    by_cases heq : e.1 = entry <;> simp [Option.filter, hentry, heq]

/-- The other entries contribute what they contributed before one is replaced. -/
lemma contributionsBut_replace :
    (o.replace entry settings factory).contributionsBut entry workspace paths
      = o.contributionsBut entry workspace paths := by
  rw [contributionsBut_eq_filterMap, contributionsBut_eq_filterMap]
  show (Registry.enter entry factory o.registry.entries).filterMap _ = _
  rw [Registry.filterMap_enter_of_none fun factory => if_pos rfl]
  refine List.filterMap_congr fun e _ => ?_
  split
  · rfl
  · next hne =>
    rw [participant?, participant?, settingsFor_replace hne]
    rfl

/-- A report is made of what the entries contribute. -/
lemma madeOf_of_ends {report : Report} (h : o.Ends workspace now paths (.ok report)) :
    report.MadeOf (Path.distinct paths) (o.contributions workspace paths) := by
  obtain ⟨milliseconds, rfl⟩ := exists_eq_assemble_of_ends h
  constructor
  case results =>
    show (o.executions workspace paths).map Execution.result = _
    rw [executions, contributions, List.map_map, List.map_map]
    rfl
  case issues =>
    show (o.executions workspace paths).flatMap (·.kept (Path.distinct paths)) = _
    rw [executions, contributions, List.flatMap_map, List.flatMap_map]

/-- The report of a run that goes on is made of what the entries contribute. -/
lemma exists_report (workspace : Workspace) (now : Timestamp) (paths : List Path)
    (hvalid : o.config.problem? = none) (hgoes : o.config.failFast = false) :
    ∃ report, (∀ result, o.Ends workspace now paths result ↔ result = .ok report) ∧
      report.MadeOf (Path.distinct paths) (o.contributions workspace paths) := by
  obtain ⟨report, hends⟩ := exists_ends_iff workspace now paths hvalid hgoes
  exact ⟨report, hends, madeOf_of_ends ((hends _).2 rfl)⟩

/-- In runs of the same work the entries contribute alike. -/
lemma SameWork.contributions (h : SameWork workspace paths o p) :
    List.Forall₂ (fun c d => c.1 = d.1 ∧ c.2.Alike d.2) (o.contributions workspace paths)
      (p.contributions workspace paths) := by
  rw [Orchestrator.contributions, Orchestrator.contributions, List.forall₂_map_left_iff,
    List.forall₂_map_right_iff]
  exact h.participants.imp fun _ _ hrs => ⟨hrs.entry, h.execute hrs⟩

/-- In runs of the same work the entries but one contribute alike. -/
lemma SameWork.contributionsBut (h : SameWork workspace paths o p) (entry : String) :
    List.Forall₂ (fun c d => c.1 = d.1 ∧ c.2.Alike d.2) (o.contributionsBut entry workspace paths)
      (p.contributionsBut entry workspace paths) := by
  refine List.rel_filter ?_ h.contributions
  rintro c d ⟨hentry, -⟩
  show decide (c.1 ≠ entry) = true ↔ decide (d.1 ≠ entry) = true
  rw [hentry]

/-- Contributions that are alike and have the same faults differ in nothing but times. -/
lemma map_untimed_of_contributions {contributed contributed' : List (String × Execution)}
    (h : List.Forall₂ (fun c d => c.1 = d.1 ∧ c.2.Alike d.2) contributed contributed')
    (hfaults : contributed.map (·.2.fault) = contributed'.map (·.2.fault)) :
    contributed.map (Prod.map id Execution.untimed)
      = contributed'.map (Prod.map id Execution.untimed) := by
  induction h with
  | nil => rfl
  | @cons c d _ _ hhead _ ih =>
    obtain ⟨hfault, hrest⟩ := List.cons.inj hfaults
    have hcd : Prod.map id Execution.untimed c = Prod.map id Execution.untimed d :=
      Prod.ext hhead.1 (hhead.2.untimed_eq hfault)
    rw [List.map_cons, List.map_cons, hcd, ih hrest]

/-- Two analyzers that differ in what they are late with are executed alike. -/
lemma executions_replace_of_late (entry : String) (settings : AnalyzerSettings)
    {analyzer : Analyzer} {late : Workspace → List Path → Invocation}
    (hlate : ¬ (analyzer.analyze workspace (Path.distinct paths)).EndsWithin o.config.timeoutMs)
    (hlate' : ¬ (late workspace (Path.distinct paths)).EndsWithin o.config.timeoutMs) :
    (o.replace entry settings fun _ => .ok { analyzer with analyze := late }).executions
        workspace paths
      = (o.replace entry settings fun _ => .ok analyzer).executions workspace paths := by
  rw [executions, executions, participants, participants, List.map_filterMap, List.map_filterMap]
  refine Registry.filterMap_enter_congr ?_ o.registry.entries
  have hexecute : (o.terms workspace paths).execute { analyzer with analyze := late }
      = (o.terms workspace paths).execute analyzer := by
    rw [Slot.execute_of_not_endsWithin hlate', Slot.execute_of_not_endsWithin hlate]
    rfl
  show Option.map _ (participant? _ _) = Option.map _ (participant? _ _)
  rw [participant?_of_built rfl, participant?_of_built rfl]
  show Option.map _ (if _ ∧ analyzer.prepare.isOk then _ else _) = _
  split
  · exact congrArg some hexecute
  · rfl

/-- Whatever takes the place of an entry, the run still comes to a report in any order of its steps,
and the other entries contribute to it what they contributed before. If they take other times and
their tasks have other numbers, nothing else differs in what they contribute. If an analyzer is late,
the run ends the same whatever the analyzer is late with. -/
theorem others_undisturbed (entry : String) (settings : AnalyzerSettings) (factory : Factory)
    {report : Report} (hgoes : o.config.failFast = false)
    (h : o.Ends workspace now paths (.ok report)) :
    report.MadeOf (Path.distinct paths) (o.contributions workspace paths) ∧
    (∃ report', (∀ result, (o.replace entry settings factory).Ends workspace now paths result
        ↔ result = .ok report') ∧
      report'.MadeOf (Path.distinct paths)
        ((o.replace entry settings factory).contributions workspace paths)) ∧
    (o.replace entry settings factory).contributionsBut entry workspace paths
      = o.contributionsBut entry workspace paths ∧
    (∀ p now', SameWork workspace paths (o.replace entry settings factory) p →
      p.config.problem? = none → p.config.failFast = false →
      ∃ report', (∀ result, p.Ends workspace now' paths result ↔ result = .ok report') ∧
        report'.MadeOf (Path.distinct paths) (p.contributions workspace paths) ∧
        List.Forall₂ (fun c d => c.1 = d.1 ∧ c.2.Alike d.2)
          (o.contributionsBut entry workspace paths) (p.contributionsBut entry workspace paths) ∧
        ((o.contributionsBut entry workspace paths).map (·.2.fault)
            = (p.contributionsBut entry workspace paths).map (·.2.fault) →
          (o.contributionsBut entry workspace paths).map (Prod.map id Execution.untimed)
            = (p.contributionsBut entry workspace paths).map (Prod.map id Execution.untimed))) ∧
    ∀ (analyzer : Analyzer) (late : Workspace → List Path → Invocation),
      ¬ (analyzer.analyze workspace (Path.distinct paths)).EndsWithin o.config.timeoutMs →
      ¬ (late workspace (Path.distinct paths)).EndsWithin o.config.timeoutMs →
      (∀ result,
        (o.replace entry settings fun _ => .ok analyzer).Ends workspace now paths result ↔
          (o.replace entry settings fun _ => .ok { analyzer with analyze := late }).Ends
            workspace now paths result) ∧
      ∀ p now' report report',
        SameWork workspace paths
          (o.replace entry settings fun _ => .ok { analyzer with analyze := late }) p →
        (o.replace entry settings fun _ => .ok analyzer).Ends workspace now paths (.ok report) →
        p.Ends workspace now' paths (.ok report') →
        report.Alike report' ∧
          ((o.replace entry settings fun _ => .ok analyzer).faults workspace paths
              = p.faults workspace paths →
            report.untimed = report'.untimed) := by
  have hvalid : o.config.problem? = none := problem?_eq_none_of_ends h
  refine ⟨madeOf_of_ends h, ?_, contributionsBut_replace, ?_, ?_⟩
  · exact exists_report (o := o.replace entry settings factory) workspace now paths hvalid hgoes
  · intro p now' hwork hvalid' hgoes'
    obtain ⟨report', hends, hmade⟩ := exists_report workspace now' paths hvalid' hgoes'
    have hothers := hwork.contributionsBut entry
    rw [contributionsBut_replace] at hothers
    exact ⟨report', hends, hmade, hothers, map_untimed_of_contributions hothers⟩
  -- a report depends on nothing but the executions, and these are the same timeouts
  · intro analyzer late hanalyzer hlate
    have hexecutions := executions_replace_of_late entry settings hanalyzer hlate
    constructor
    · intro result
      rw [ends_iff_of_goes_on (o := o.replace entry settings _) hvalid hgoes,
        ends_iff_of_goes_on (o := o.replace entry settings _) hvalid hgoes, hexecutions]
      rfl
    · intro p now' report report' hwork hends hends'
      have halike := hwork.executions
      rw [hexecutions] at halike
      exact alike_of_ends halike hwork.templates hwork.recommendations hends hends'

/-- The quick analyzer contributes its issue also if the slow one breaks off, and what the slow one
would come to after its time is as good as nothing. -/
theorem unevenOrchestrator_undisturbed :
    ∃ report, unevenOrchestrator.config.failFast = false ∧
      unevenOrchestrator.Ends emptyWorkspace default [⟨"a.ts"⟩, ⟨"./b.ts"⟩] (.ok report) ∧
      ((unevenOrchestrator.replace "slow" {} fun _ =>
        .ok (steadyAnalyzer "slow" (.settles 3 (.panic "overflow")))).contributionsBut "slow"
          emptyWorkspace [⟨"a.ts"⟩, ⟨"./b.ts"⟩]).map (fun c => (c.1, c.2.issues))
        = [("late", []), ("quick", [findingAt "q" "./b.ts/"])] ∧
      ∀ result, (unevenOrchestrator.replace "slow" {} fun _ =>
          .ok (steadyAnalyzer "slow" .never)).Ends emptyWorkspace default
            [⟨"a.ts"⟩, ⟨"./b.ts"⟩] result ↔
        (unevenOrchestrator.replace "slow" {} fun _ =>
          .ok (steadyAnalyzer "slow" (.settles 180 (.issues [findingAt "s" "a.ts"])))).Ends
            emptyWorkspace default [⟨"a.ts"⟩, ⟨"./b.ts"⟩] result := by
  obtain ⟨report, hends⟩ : ∃ report, unevenOrchestrator.Ends emptyWorkspace default
      [⟨"a.ts"⟩, ⟨"./b.ts"⟩] (.ok report) :=
    ⟨_, (ends_iff_of_goes_on rfl rfl).2 rfl⟩
  obtain ⟨-, -, hothers, -, hlate⟩ := others_undisturbed "slow" {}
    (fun _ => .ok (steadyAnalyzer "slow" (.settles 3 (.panic "overflow")))) rfl hends
  refine ⟨report, rfl, hends, ?_, ?_⟩
  · rw [hothers]
    decide +kernel
  · exact (hlate (steadyAnalyzer "slow" .never)
      (fun _ _ => .settles 180 (.issues [findingAt "s" "a.ts"])) nofun
      (show ¬ 180 < 100 by decide)).1

end Orchestrator

end CodeAudit
