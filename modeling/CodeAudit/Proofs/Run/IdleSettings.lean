import CodeAudit.Proofs.Run.Calls
import CodeAudit.Proofs.Run.Records
/-!
# Settings that are not looked at

A configuration may have settings of analyzers that are not registered, may say what a disabled analyzer
would be built from, and may say of an analyzer what goes without saying. None of this is seen in a run:
the same is done to the same analyzers, and the answer is the same but for the configuration that a
report shows.
-/
namespace CodeAudit

/-- Two settings that come to the same: a configuration matters only to an analyzer that is enabled. -/
structure AnalyzerSettings.Alike (s s' : AnalyzerSettings) : Prop where
  enabled : s'.enabled = s.enabled
  config : s.enabled = true → s'.config = s.config

namespace AnalyzerSettings.Alike

variable {s s' s'' : AnalyzerSettings}

/-- Settings come to the same as themselves. -/
lemma refl (s : AnalyzerSettings) : s.Alike s :=
  ⟨rfl, fun _ => rfl⟩

/-- Settings that are equal come to the same. -/
lemma of_eq (h : s' = s) : s.Alike s' :=
  h ▸ refl s

/-- Settings that come to the same as others come to the same as what these do. -/
lemma trans (h : s.Alike s') (h' : s'.Alike s'') : s.Alike s'' := by
  refine ⟨h'.enabled.trans h.enabled, fun henabled => ?_⟩
  exact (h'.config (h.enabled.trans henabled)).trans (h.config henabled)

end AnalyzerSettings.Alike

namespace Registry

/-- A change of the settings of a configuration that a registry gives no reason to look at. -/
inductive IdleChange (registry : Registry) (map : NameMap AnalyzerSettings) :
    NameMap AnalyzerSettings → Prop where
  /-- A name that is not registered gets settings, or other ones. -/
  | setUnknown {name} (settings : AnalyzerSettings) :
    registry.contains name = false →
    IdleChange registry map (map.insert name settings)
  /-- A name that is not registered loses its settings. -/
  | dropUnknown {name} :
    registry.contains name = false →
    IdleChange registry map (map.without name)
  /-- A disabled analyzer is configured otherwise. -/
  | setDisabled {name old} (config : Json) :
    map.get? name = some { enabled := false, config := old } →
    IdleChange registry map (map.insert name { enabled := false, config })
  /-- Settings are dropped that say that the analyzer is enabled and has no configuration. -/
  | dropDefault {name} :
    map.get? name = some { enabled := true, config := .null } →
    IdleChange registry map (map.without name)

variable {registry : Registry} {map map' : NameMap AnalyzerSettings} {name : String}

/-- A name that is registered is not one that is not. -/
lemma ne_of_contains {other : String} (h : registry.contains name = true)
    (hother : registry.contains other = false) : name ≠ other := by
  rintro rfl
  exact Bool.false_ne_true (hother.symm.trans h)

/-- A change leaves the settings of a registered analyzer what they come to. -/
lemma IdleChange.alike (h : IdleChange registry map map') (hname : registry.contains name = true) :
    ((map.get? name).getD {}).Alike ((map'.get? name).getD {}) := by
  cases h with
  | setUnknown settings hother =>
    exact .of_eq (by rw [NameMap.get?_insert_of_ne (ne_of_contains hname hother)])
  | dropUnknown hother =>
    exact .of_eq (by rw [NameMap.get?_without_of_ne (ne_of_contains hname hother)])
  | @setDisabled other old config hold =>
    by_cases heq : name = other
    · subst heq
      rw [NameMap.get?_insert_self, hold]
      exact ⟨rfl, fun henabled => absurd henabled Bool.false_ne_true⟩
    · exact .of_eq (by rw [NameMap.get?_insert_of_ne heq])
  | @dropDefault other hold =>
    by_cases heq : name = other
    · subst heq
      rw [NameMap.get?_without_self, hold]
      exact .refl _
    · exact .of_eq (by rw [NameMap.get?_without_of_ne heq])

/-- Changes leave the settings of a registered analyzer what they come to. -/
lemma alike_of_changes (h : Relation.ReflTransGen (IdleChange registry) map map')
    (hname : registry.contains name = true) :
    ((map.get? name).getD {}).Alike ((map'.get? name).getD {}) := by
  induction h with
  | refl => exact .refl _
  | tail _ hchange ih => exact ih.trans (hchange.alike hname)

end Registry

section Entry

variable {c c' : RunConfig} {entry : String × Factory}

/-- An entry is set up alike if its settings come to the same. -/
lemma RunConfig.setup_congr (h : (c.settingsFor entry.1).Alike (c'.settingsFor entry.1)) :
    c'.setup entry = c.setup entry := by
  rw [setup, setup, h.enabled]
  cases henabled : (c.settingsFor entry.1).enabled with
  | false => rfl
  | true => rw [h.config henabled]

/-- An entry takes part alike if its settings come to the same. -/
lemma participant?_congr (h : (c.settingsFor entry.1).Alike (c'.settingsFor entry.1)) :
    participant? c' entry = participant? c entry := by
  rw [participant?, participant?, h.enabled]
  cases henabled : (c.settingsFor entry.1).enabled with
  | false => rfl
  | true => rw [h.config henabled]

end Entry

/-- The report, if it showed another configuration. -/
def Report.showing (configuration : Json) (r : Report) : Report :=
  { r with configuration }

/-- Reports are compared without the configuration that they show. -/
lemma AnswersAlike.of_showing {configuration : Json} {result result' : Except RunError Report}
    (h : AnswersAlike (result.map (Report.showing configuration)) result') :
    AnswersAlike result result' := by
  cases result with
  | error e => exact h
  | ok report =>
    cases h with
    | ok halike => exact .ok ⟨halike.withoutResults, halike.results⟩

namespace Orchestrator

variable {o p : Orchestrator} {workspace : Workspace} {now now' : Timestamp} {paths : List Path}
  {map : NameMap AnalyzerSettings}

/-- The orchestrator with other settings of analyzers. -/
def withSettings (o : Orchestrator) (map : NameMap AnalyzerSettings) : Orchestrator :=
  { o with config := { o.config with analyzers := map } }

/-- The record of a run whose report shows another configuration. -/
def showing (configuration : Json) (record : RunRecord) : RunRecord :=
  { record with result := record.result.map (Report.showing configuration) }

section Changes

variable (h : Relation.ReflTransGen (Registry.IdleChange o.registry) o.config.analyzers map)
include h

/-- The settings of a registered analyzer come to the same after the changes. -/
lemma alike_withSettings {entry : String × Factory} (hentry : entry ∈ o.registry.entries) :
    (o.config.settingsFor entry.1).Alike ((o.withSettings map).config.settingsFor entry.1) := by
  have hname : o.registry.contains entry.1 = true :=
    List.any_eq_true.2 ⟨entry, hentry, beq_self_eq_true _⟩
  exact Registry.alike_of_changes h hname

/-- The same is done to get the crew ready. -/
lemma setup_withSettings : (o.withSettings map).setup = o.setup :=
  List.flatMap_congr fun _ hentry => RunConfig.setup_congr (alike_withSettings h hentry)

/-- The same analyzers take part. -/
lemma participants_withSettings :
    participants (o.withSettings map).config (o.withSettings map).registry
      = participants o.config o.registry :=
  List.filterMap_congr fun _ hentry => participant?_congr (alike_withSettings h hentry)

/-- The same batches are started, and they come to the same. -/
lemma course_withSettings :
    (o.withSettings map).course workspace paths = o.course workspace paths := by
  rw [course, participants_withSettings h]
  rfl

/-- The same is done in both runs, and their answers are the same but for the configuration. -/
lemma execute_withSettings :
    (o.withSettings map).execute workspace now paths
      = showing (o.withSettings map).config.toJson (o.execute workspace now paths) := by
  cases hproblem : o.config.problem? with
  | some problem =>
    have hproblem' : (o.withSettings map).config.problem? = some problem := hproblem
    rw [execute_of_problem hproblem, execute_of_problem hproblem']
    rfl
  | none =>
    rw [execute_of_valid hproblem, execute_of_valid (o := o.withSettings map) hproblem,
      events_assemble, events_assemble, setup_withSettings h, participants_withSettings h,
      course_withSettings h, showing]
    cases (o.course workspace paths).outcome <;> rfl

/-- A run ends as before, but for the configuration that its report shows. -/
lemma ends_withSettings {result : Except RunError Report}
    (hends : o.Ends workspace now paths result) :
    (o.withSettings map).Ends workspace now paths
      (result.map (Report.showing (o.withSettings map).config.toJson)) := by
  rw [ends_iff_result_execute] at hends ⊢
  rw [execute_withSettings h, ← hends]
  rfl

/-- The analyzers fail as before, if they do. -/
lemma faults_withSettings :
    (o.withSettings map).faults workspace paths = o.faults workspace paths := by
  rw [faults, faults, participants_withSettings h]
  rfl

end Changes

/-- Changes of settings that nothing gives reason to look at leave a run as it was: with every
invocation in the same batch and at the same time, and with the same answer, be it a report or an
error, but for the configuration that a report shows. If the analyzers take other times and the tasks
that break off have other numbers, the answers still agree in everything else. -/
theorem idle_settings_ignored
    (h : Relation.ReflTransGen (Registry.IdleChange o.registry) o.config.analyzers map) :
    (∀ workspace now paths, (o.withSettings map).execute workspace now paths
      = showing (o.withSettings map).config.toJson (o.execute workspace now paths)) ∧
    (∀ workspace now paths result, o.Ends workspace now paths result →
      (o.withSettings map).Ends workspace now paths
        (result.map (Report.showing (o.withSettings map).config.toJson))) ∧
    ∀ workspace now now' paths p result result', SameWork workspace paths (o.withSettings map) p →
      p.config.problem? = o.config.problem? → p.config.failFast = o.config.failFast →
      o.Ends workspace now paths result → p.Ends workspace now' paths result' →
      AnswersAlike result result' ∧ (o.faults workspace paths = p.faults workspace paths →
        result.map Report.untimed = result'.map Report.untimed) := by
  refine ⟨fun _ _ _ => execute_withSettings h, fun _ _ _ _ => ends_withSettings h, ?_⟩
  intro workspace now now' paths p result result' hwork hproblem hfast hends hends'
  obtain ⟨halike, huntimed⟩ :=
    hwork.answersAlike hproblem hfast (ends_withSettings h hends) hends'
  refine ⟨halike.of_showing, fun hfaults => ?_⟩
  have hsame : (o.withSettings map).faults workspace paths = o.faults workspace paths :=
    faults_withSettings h
  rw [← huntimed (hsame.trans hfaults)]
  cases result <;> rfl

/-- The uneven work with settings of an analyzer that is not there, of one that is disabled, and of one
that would run like this anyway. -/
def fussyOrchestrator : Orchestrator :=
  unevenOrchestrator.withSettings
    [("ghost", { config := .bool true }), ("late", { enabled := false }), ("quick", {})]

/-- Four changes that nothing gives reason to look at leave the report what it was, and the
configuration that it shows is the new one. -/
theorem fussyOrchestrator_unmoved :
    Relation.ReflTransGen (Registry.IdleChange fussyOrchestrator.registry)
        fussyOrchestrator.config.analyzers
        [("gone", {}), ("late", { enabled := false, config := .bool true })] ∧
      ∃ report, fussyOrchestrator.Ends emptyWorkspace default [⟨"a.ts"⟩, ⟨"./b.ts"⟩] (.ok report) ∧
        report.analyzerResults.map AnalyzerResult.name = ["slow", "quick"] ∧
        (fussyOrchestrator.withSettings
            [("gone", {}), ("late", { enabled := false, config := .bool true })]).Ends emptyWorkspace
          default [⟨"a.ts"⟩, ⟨"./b.ts"⟩] (.ok (report.showing (fussyOrchestrator.withSettings
            [("gone", {}), ("late", { enabled := false, config := .bool true })]).config.toJson)) := by
  have hchanges : Relation.ReflTransGen (Registry.IdleChange fussyOrchestrator.registry)
      fussyOrchestrator.config.analyzers
      [("gone", {}), ("late", { enabled := false, config := .bool true })] := by
    have hset := @Registry.IdleChange.setUnknown fussyOrchestrator.registry
      fussyOrchestrator.config.analyzers "gone" {} rfl
    have hdrop := @Registry.IdleChange.dropUnknown fussyOrchestrator.registry
      (fussyOrchestrator.config.analyzers.insert "gone" {}) "ghost" rfl
    have hconfigure := @Registry.IdleChange.setDisabled fussyOrchestrator.registry
      ((fussyOrchestrator.config.analyzers.insert "gone" {}).without "ghost") "late" .null
      (.bool true) rfl
    have hdefault := @Registry.IdleChange.dropDefault fussyOrchestrator.registry
      (((fussyOrchestrator.config.analyzers.insert "gone" {}).without "ghost").insert "late"
        { enabled := false, config := .bool true }) "quick" rfl
    exact (((Relation.ReflTransGen.single hset).tail hdrop).tail hconfigure).tail hdefault
  obtain ⟨-, hends, -⟩ := idle_settings_ignored hchanges
  obtain ⟨report, hreport⟩ : ∃ report, fussyOrchestrator.Ends emptyWorkspace default
      [⟨"a.ts"⟩, ⟨"./b.ts"⟩] (.ok report) := ⟨_, (ends_iff_of_goes_on rfl rfl).2 rfl⟩
  refine ⟨hchanges, report, hreport, ?_, hends _ _ _ _ hreport⟩
  rw [results_of_ends hreport]
  rfl

end Orchestrator

end CodeAudit
