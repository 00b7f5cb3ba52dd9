import CodeAudit.Metrics.Maintainability
import CodeAudit.NameMap
import CodeAudit.Report.Basic
/-!
# Scores

The measures that are derived from the issues of a run as a whole. Points are taken off a hundred for
every issue, according to its severity; sums of points are held in 64 bits and stop at the greatest
such number.
-/
namespace CodeAudit.Score

/-- The greatest number of points that is told apart. -/
def limit : Nat := Nat.pow 2 64 - 1

/-- A product of points. -/
def times (m n : Nat) : Nat := min (m * n) limit

/-- A sum of points. -/
def plus (m n : Nat) : Nat := min (m + n) limit

/-- The points of some issues, with the points for one issue of each severity. -/
def weighted (counts : SeverityCounts) (error warning info : Nat) : Nat :=
  plus (plus (times counts.error error) (times counts.warning warning)) (times counts.info info)

/-- The quality of the code, from 0 to 100. -/
def quality (counts : SeverityCounts) : Nat :=
  100 - weighted counts 10 3 1

/-- The hours that it might take to mend the issues. -/
def technicalDebtHours (counts : SeverityCounts) : Float :=
  2.0 * floatOfCount counts.error + 0.5 * floatOfCount counts.warning
    + 0.1 * floatOfCount counts.info

/-- The number of security warnings above which the risk is high. -/
def highRiskWarnings : Nat := 5

/-- The risk of issues that all concern security. -/
def risk (counts : SeverityCounts) : RiskLevel :=
  if 0 < counts.error then .critical
  else if highRiskWarnings < counts.warning then .high
  else if 0 < counts.warning then .medium
  else .low

/-- The measures of the issues that concern security. -/
def security (issues : List Issue) : SecurityMetrics :=
  let counts := SeverityCounts.ofIssues (issues.filter Issue.isSecurityRelated)
  { riskLevel := risk counts
    score := 100 - weighted counts 25 10 5
    issues := counts }

/-- The exit code of a run: a failed analyzer weighs more than an error. -/
def exitCode (anyFailed : Bool) (counts : SeverityCounts) : Int :=
  if anyFailed then 2 else if 0 < counts.error then 1 else 0

/-- How a run ended as a whole. -/
def runStatus (anyFailed : Bool) (counts : SeverityCounts) : RunStatus :=
  if anyFailed ∨ 0 < counts.error then .incomplete else .success

/-- What the names of complexity rules start with. -/
def complexityRules : List Char := "complexity/".toList

/-- The number of issues of each complexity rule. -/
def complexityDistribution (issues : List Issue) : NameMap Nat :=
  (issues.filter fun i => complexityRules.isPrefixOf i.ruleId.toList).foldl
    (fun map i => map.insert i.ruleId ((map.get? i.ruleId).getD 0 + 1)) []

end CodeAudit.Score
