import CodeAudit.Report.Basic
/-!
# Recommendations

A template looks at the issues of a run and at the measures derived from them, and makes at most one
recommendation. Templates are asked in order.
-/
namespace CodeAudit

/-- What the templates look at. -/
structure RecommendationInput where
  issues : List Issue
  qualityScore : Nat
  security : SecurityMetrics

/-- A template for a recommendation. -/
structure RecommendationTemplate where
  name : String
  evaluate : RecommendationInput → Option Recommendation

namespace RecommendationTemplate

/-- Recommends to look at the issues that concern security, if there are any. -/
def security : RecommendationTemplate where
  name := "security"
  evaluate input :=
    let ids := (input.issues.filter Issue.isSecurityRelated).map Issue.id
    if ids.isEmpty then none
    else
      some
        { category := "Security"
          priority := if RiskLevel.high.rank ≤ input.security.riskLevel.rank then .high else .medium
          title := "Address security findings"
          description :=
            s!"{ids.length} security-related issue(s) found, risk level {input.security.riskLevel.name}. "
              ++ "Resolve flagged vulnerabilities before release."
          issueIds := ids }

/-- The issues that weigh most on the quality: those that are more than infos, or all if none is. -/
def weightyIds (issues : List Issue) : List String :=
  let weighty := issues.filter fun i => i.severity != .info
  (if weighty.isEmpty then issues else weighty).map Issue.id

/-- The quality below which the recommendation is urgent. -/
def urgentQuality : Nat := 50

/-- Recommends to mend the code if its quality is below a threshold. -/
def codeQuality (threshold : Nat) : RecommendationTemplate where
  name := "code-quality"
  evaluate input :=
    if threshold ≤ input.qualityScore then none
    else
      some
        { category := "Code Quality"
          priority := if input.qualityScore < urgentQuality then .high else .medium
          title := "Improve code quality"
          description :=
            s!"Quality score {input.qualityScore}/100 is below {threshold}. "
              ++ "Start with error and warning findings."
          issueIds := weightyIds input.issues }

/-- The threshold of the quality that is asked for by default. -/
def defaultQuality : Nat := 80

/-- The templates that every run has. -/
def defaults : List RecommendationTemplate :=
  [security, codeQuality defaultQuality]

end RecommendationTemplate

/-- The recommendations of some templates, in their order. -/
def recommend (templates : List RecommendationTemplate) (input : RecommendationInput) :
    List Recommendation :=
  templates.filterMap (·.evaluate input)

end CodeAudit
