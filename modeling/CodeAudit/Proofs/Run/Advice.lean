import CodeAudit.Proofs.Run.Builtin
import CodeAudit.Proofs.Run.Extension
import CodeAudit.Proofs.Score.Security
/-!
# Recommendations of a report

A report gives the reasons for its recommendations. For the sake of security there is one exactly if an
issue is tagged, for the quality of the code exactly if its score is below 80, and each names the issues
that it is about. It always names some: without issues no score is below a hundred.
-/
namespace CodeAudit

/-- What a report tells the templates. -/
def Report.told (report : Report) : RecommendationInput :=
  ⟨report.issues, report.metrics.qualityScore, report.metrics.security⟩

/-- A report has reasons for a recommendation for the sake of security, or for none. -/
structure Report.ForSecurity (report : Report) (advice : Option Recommendation) : Prop where
  present_iff : advice ≠ none ↔ ∃ i ∈ report.issues, i.Tagged
  category : ∀ r ∈ advice, r.category = "Security"
  ids : ∀ r ∈ advice, r.issueIds = (report.issues.filter fun i => i.Tagged).map Issue.id
  linked : ∀ r ∈ advice, r.issueIds ≠ []
  urgent : ∀ r ∈ advice, r.priority = .high ↔
    report.metrics.security.riskLevel = .high ∨ report.metrics.security.riskLevel = .critical

/-- A report has reasons for a recommendation for the quality of the code, or for none. -/
structure Report.ForQuality (report : Report) (advice : Option Recommendation) : Prop where
  present_iff : advice ≠ none ↔ report.metrics.qualityScore < 80
  category : ∀ r ∈ advice, r.category = "Code Quality"
  weighty : ∀ r ∈ advice, (∃ i ∈ report.issues, i.severity = .error ∨ i.severity = .warning) →
    r.issueIds = (report.issues.filter fun i => i.severity = .error ∨ i.severity = .warning).map
      Issue.id
  all : ∀ r ∈ advice, (∀ i ∈ report.issues, i.severity ≠ .error ∧ i.severity ≠ .warning) →
    r.issueIds = report.issues.map Issue.id
  linked : ∀ r ∈ advice, r.issueIds ≠ []

/-- A level of risk that is at least high is high or critical. -/
lemma RiskLevel.high_le_rank_iff (level : RiskLevel) :
    high.rank ≤ level.rank ↔ level = .high ∨ level = .critical := by
  cases level <;> decide

/-- A quality that is less than the best needs an issue. -/
lemma Score.ne_nil_of_quality_lt {issues : List Issue} (h : quality (.ofIssues issues) < 100) :
    issues ≠ [] := by
  rintro rfl
  exact absurd h (by decide)

namespace RecommendationTemplate

variable {input : RecommendationInput} {r : Recommendation} {threshold : Nat}

/-- There is no recommendation for the sake of security if no issue is tagged. -/
lemma evaluate_security_eq_none_iff :
    security.evaluate input = none ↔ ∀ i ∈ input.issues, ¬ i.Tagged := by
  have hids : ((input.issues.filter Issue.isSecurityRelated).map Issue.id).isEmpty = true
      ↔ ∀ i ∈ input.issues, ¬ i.Tagged := by
    rw [List.isEmpty_iff, List.map_eq_nil_iff, List.filter_eq_nil_iff]
    simp only [Issue.isSecurityRelated_iff]
  rw [← hids, security]
  dsimp only
  split
  · next h => exact iff_of_true rfl h
  · next h => exact iff_of_false (Option.some_ne_none _) h

/-- A recommendation for the sake of security names the tagged issues, and is urgent if the risk is
high. -/
lemma of_evaluate_security (h : security.evaluate input = some r) :
    r.category = "Security" ∧
      r.issueIds = (input.issues.filter fun i => i.Tagged).map Issue.id ∧ r.issueIds ≠ [] ∧
      (r.priority = .high ↔
        input.security.riskLevel = .high ∨ input.security.riskLevel = .critical) := by
  rw [security] at h
  dsimp only at h
  split at h
  · exact absurd h.symm (Option.some_ne_none r)
  · next hids =>
    obtain rfl := Option.some.inj h
    refine ⟨rfl, congrArg (List.map Issue.id) (Issue.filter_isSecurityRelated _),
      fun hnil => hids (List.isEmpty_iff.2 hnil), ?_⟩
    rw [← RiskLevel.high_le_rank_iff]
    dsimp only
    split
    · next hrank => exact iff_of_true rfl hrank
    · next hrank => exact iff_of_false (by decide) hrank

/-- There is no recommendation for the quality of the code if its score is good enough. -/
lemma evaluate_codeQuality_eq_none_iff :
    (codeQuality threshold).evaluate input = none ↔ threshold ≤ input.qualityScore := by
  rw [codeQuality]
  dsimp only
  split
  · next h => exact iff_of_true rfl h
  · next h => exact iff_of_false (Option.some_ne_none _) h

/-- A recommendation for the quality of the code names the issues that weigh most. -/
lemma of_evaluate_codeQuality (h : (codeQuality threshold).evaluate input = some r) :
    r.category = "Code Quality" ∧ r.issueIds = weightyIds input.issues := by
  rw [codeQuality] at h
  dsimp only at h
  split at h
  · exact absurd h.symm (Option.some_ne_none r)
  · obtain rfl := Option.some.inj h
    exact ⟨rfl, rfl⟩

variable {issues : List Issue}

/-- If some issues are errors or warnings, these weigh most. -/
lemma weightyIds_of_exists (h : ∃ i ∈ issues, i.severity = .error ∨ i.severity = .warning) :
    weightyIds issues
      = (issues.filter fun i => i.severity = .error ∨ i.severity = .warning).map Issue.id := by
  have hfilter : (issues.filter fun i => i.severity != .info)
      = issues.filter fun i => i.severity = .error ∨ i.severity = .warning :=
    List.filter_congr fun i _ => by cases i.severity <;> decide
  obtain ⟨i, hi, hseverity⟩ := h
  have hne : (issues.filter fun i => i.severity = .error ∨ i.severity = .warning).isEmpty = false :=
    List.isEmpty_eq_false_iff_exists_mem.2
      ⟨i, List.mem_filter.2 ⟨hi, decide_eq_true hseverity⟩⟩
  rw [weightyIds, hfilter, hne, if_neg Bool.false_ne_true]

/-- If no issue is an error or a warning, all issues weigh alike. -/
lemma weightyIds_of_forall (h : ∀ i ∈ issues, i.severity ≠ .error ∧ i.severity ≠ .warning) :
    weightyIds issues = issues.map Issue.id := by
  have hnone : (issues.filter fun i => i.severity != .info) = [] := by
    refine List.filter_eq_nil_iff.2 fun i hi hinfo => ?_
    obtain ⟨herror, hwarning⟩ := h i hi
    cases hseverity : i.severity with
    | error => exact herror hseverity
    | warning => exact hwarning hseverity
    | info => exact bne_iff_ne.1 hinfo hseverity
  rw [weightyIds, hnone]
  rfl

/-- Where there are issues, some weigh most. -/
lemma weightyIds_ne_nil (h : issues ≠ []) : weightyIds issues ≠ [] := by
  rw [weightyIds, Ne, List.map_eq_nil_iff]
  split
  · exact h
  · next hweighty => exact fun hnil => hweighty (List.isEmpty_iff.2 hnil)

end RecommendationTemplate

open RecommendationTemplate

/-- A report has reasons for what is recommended for the sake of security. -/
lemma Report.forSecurity_evaluate (report : Report) :
    report.ForSecurity (security.evaluate report.told) := by
  constructor
  case present_iff =>
    rw [Ne, evaluate_security_eq_none_iff]
    push Not
    rfl
  case category =>
    intro r h
    obtain ⟨hcategory, -, -, -⟩ := of_evaluate_security h
    exact hcategory
  case ids =>
    intro r h
    obtain ⟨-, hids, -, -⟩ := of_evaluate_security h
    exact hids
  case linked =>
    intro r h
    obtain ⟨-, -, hlinked, -⟩ := of_evaluate_security h
    exact hlinked
  case urgent =>
    intro r h
    obtain ⟨-, -, -, hurgent⟩ := of_evaluate_security h
    exact hurgent

namespace Orchestrator

variable {o : Orchestrator} {workspace : Workspace} {now : Timestamp} {paths : List Path}
  {report : Report}

/-- A report has reasons for what is recommended for the quality of the code. -/
lemma forQuality_of_ends (h : o.Ends workspace now paths (.ok report)) :
    report.ForQuality ((codeQuality defaultQuality).evaluate report.told) := by
  have hpresent : (codeQuality defaultQuality).evaluate report.told ≠ none
      ↔ report.metrics.qualityScore < 80 := by
    rw [Ne, evaluate_codeQuality_eq_none_iff]
    exact Nat.not_le
  have hids : ∀ r ∈ (codeQuality defaultQuality).evaluate report.told,
      r.issueIds = weightyIds report.issues :=
    fun r hr => (of_evaluate_codeQuality hr).2
  constructor
  case present_iff => exact hpresent
  case category => exact fun r hr => (of_evaluate_codeQuality hr).1
  case weighty =>
    intro r hr hweighty
    rw [hids r hr, weightyIds_of_exists hweighty]
  case all =>
    intro r hr hinfo
    rw [hids r hr, weightyIds_of_forall hinfo]
  case linked =>
    intro r hr
    have hquality : report.metrics.qualityScore < 80 := by
      rw [← hpresent, Option.mem_def.1 hr]
      exact Option.some_ne_none r
    rw [(scores_of_ends h).1] at hquality
    rw [hids r hr]
    apply weightyIds_ne_nil
    exact Score.ne_nil_of_quality_lt (Nat.lt_trans hquality (by decide))

/-- The recommendations of a report are those of the two templates that every run has, then those of
the other ones, in their order; each template was told what the report says. A run that is to make no
recommendations makes none. -/
theorem recommendations_justified (h : o.Ends workspace now paths (.ok report)) :
    (∀ custom, o.config.recommendations = true → o.templates = defaults ++ custom →
      report.recommendations
          = (security.evaluate report.told).toList
            ++ ((codeQuality defaultQuality).evaluate report.told).toList
            ++ custom.filterMap (·.evaluate report.told) ∧
        report.ForSecurity (security.evaluate report.told) ∧
        report.ForQuality ((codeQuality defaultQuality).evaluate report.told)) ∧
    (o.config.recommendations = false → report.recommendations = []) := by
  obtain ⟨-, -, -, hrecommendations⟩ := derived_of_ends h
  constructor
  · intro custom hwanted htemplates
    refine ⟨?_, report.forSecurity_evaluate, forQuality_of_ends h⟩
    rw [hrecommendations, if_pos hwanted, htemplates]
    show (defaults ++ custom).filterMap (·.evaluate report.told) = _
    rw [List.filterMap_append, defaults, List.filterMap_eq_flatMap_toList _ [_, _],
      List.flatMap_cons, List.flatMap_singleton]
  · intro hunwanted
    rw [hrecommendations, hunwanted]
    rfl

/-- A template that recommends to look at all issues. -/
def lookAround : RecommendationTemplate where
  name := "look-around"
  evaluate input := some ⟨"All", .low, "Look around", "", input.issues.map Issue.id⟩

/-- A run with warnings and a security issue, with one more that is about a file of no concern. -/
def advisedOrchestrator (recommendations : Bool) : Orchestrator where
  config := { timeoutMs := 100, recommendations }
  registry := ⟨[
    ("warner", fun _ => .ok (steadyAnalyzer "warner" (.settles 3 (.issues
      (["w1", "w2", "w3"].map fun id => { findingAt id "b.ts" with severity := .warning }))))),
    ("guard", guardFactory),
    ("stray", fun _ => .ok (steadyAnalyzer "stray" (.settles 3 (.issues
      [{ findingAt "s" "c.ts" with severity := .error, ruleId := "audit" }, findingAt "i1" "b.ts",
        findingAt "i2" "b.ts"]))))]⟩
  templates := defaults ++ [lookAround]

/-- The issue that is dropped is in no recommendation, and infos are in that of the other template. -/
theorem advisedOrchestrator_justified :
    ∃ report quietReport,
      (advisedOrchestrator true).Ends emptyWorkspace default [⟨"b.ts"⟩] (.ok report) ∧
      (advisedOrchestrator false).Ends emptyWorkspace default [⟨"b.ts"⟩] (.ok quietReport) ∧
      report.ForSecurity (security.evaluate report.told) ∧
      report.ForQuality ((codeQuality defaultQuality).evaluate report.told) ∧
      report.recommendations.map (fun r => (r.category, r.priority, r.issueIds))
        = [("Security", .high, ["g"]), ("Code Quality", .medium, ["w1", "w2", "w3", "g"]),
          ("All", .low, ["w1", "w2", "w3", "g", "i1", "i2"])] ∧
      quietReport.recommendations = [] := by
  obtain ⟨report, hends⟩ : ∃ report, (advisedOrchestrator true).Ends emptyWorkspace default
      [⟨"b.ts"⟩] (.ok report) := ⟨_, (ends_iff_of_goes_on rfl rfl).2 rfl⟩
  obtain ⟨quietReport, hquiet⟩ : ∃ report, (advisedOrchestrator false).Ends emptyWorkspace default
      [⟨"b.ts"⟩] (.ok report) := ⟨_, (ends_iff_of_goes_on rfl rfl).2 rfl⟩
  obtain ⟨hwanted, -⟩ := recommendations_justified hends
  obtain ⟨-, hunwanted⟩ := recommendations_justified hquiet
  obtain ⟨hall, hsecurity, hquality⟩ := hwanted [lookAround] rfl rfl
  refine ⟨report, quietReport, hends, hquiet, hsecurity, hquality, ?_, hunwanted rfl⟩
  rw [hall]
  obtain rfl := Except.ok.inj ((ends_iff_of_goes_on rfl rfl).1 hends)
  decide +kernel

end Orchestrator

end CodeAudit
