import CodeAudit.Proofs.Issue
import CodeAudit.Run.Score
/-!
# Scores of more issues

More issues of any severity never make a score better: no quality goes up, no risk and no exit code
goes down. Sums of points that stop at a limit are as monotone as sums that do not.
-/
namespace CodeAudit

/-- There are no more issues of any severity. -/
def SeverityCounts.AtMost (c d : SeverityCounts) : Prop :=
  ∀ s, c.get s ≤ d.get s

/-- Fewer issues have lower counts. -/
lemma SeverityCounts.ofIssues_atMost {issues issues' : List Issue} (h : issues.Subperm issues') :
    (ofIssues issues).AtMost (ofIssues issues') := by
  intro s
  rw [get_ofIssues, get_ofIssues]
  exact h.countP_le _

/-- An assessment is no worse than another one: no count, no risk is greater and no score is less. -/
structure SecurityMetrics.Milder (m n : SecurityMetrics) : Prop where
  risk : m.riskLevel.rank ≤ n.riskLevel.rank
  score : n.score ≤ m.score
  issues : m.issues.AtMost n.issues

namespace Score

variable {c d : SeverityCounts}

/-- A greater factor does not make a product less. -/
lemma times_le_times {m n : Nat} (h : m ≤ n) (k : Nat) : times m k ≤ times n k :=
  min_le_min_right limit (Nat.mul_le_mul_right k h)

/-- Greater summands do not make a sum less. -/
lemma plus_le_plus {m n k l : Nat} (hmn : m ≤ n) (hkl : k ≤ l) : plus m k ≤ plus n l :=
  min_le_min_right limit (Nat.add_le_add hmn hkl)

/-- More issues do not weigh less. -/
lemma weighted_le_weighted (h : c.AtMost d) (error warning info : Nat) :
    weighted c error warning info ≤ weighted d error warning info := by
  have herror : times c.error error ≤ times d.error error := times_le_times (h .error) error
  have hwarning : times c.warning warning ≤ times d.warning warning :=
    times_le_times (h .warning) warning
  have hinfo : times c.info info ≤ times d.info info := times_le_times (h .info) info
  exact plus_le_plus (plus_le_plus herror hwarning) hinfo

/-- More issues do not make the quality better. -/
lemma quality_le_quality (h : c.AtMost d) : quality d ≤ quality c :=
  Nat.sub_le_sub_left (weighted_le_weighted h 10 3 1) 100

/-- More issues do not make the risk lower. -/
lemma rank_risk_le_rank_risk (h : c.AtMost d) : (risk c).rank ≤ (risk d).rank := by
  have herror : c.error ≤ d.error := h .error
  have hwarning : c.warning ≤ d.warning := h .warning
  rw [risk, risk]
  split_ifs <;> first | omega | decide

/-- More issues, in whatever order, do not make an assessment of security better. -/
lemma milder_security {issues issues' : List Issue} (h : issues.Subperm issues') :
    (security issues).Milder (security issues') := by
  have hcounts := SeverityCounts.ofIssues_atMost (h.filter Issue.isSecurityRelated)
  constructor
  case risk => exact rank_risk_le_rank_risk hcounts
  case score => exact Nat.sub_le_sub_left (weighted_le_weighted hcounts 25 10 5) 100
  case issues => exact hcounts

/-- More failures and more issues do not make the exit code less. -/
lemma exitCode_le_exitCode {anyFailed anyFailed' : Bool} (hfailed : anyFailed → anyFailed')
    (h : c.AtMost d) : exitCode anyFailed c ≤ exitCode anyFailed' d := by
  have herror : c.error ≤ d.error := h .error
  rw [exitCode, exitCode]
  cases anyFailed
  case true => simp [hfailed rfl]
  case false =>
    cases anyFailed' <;> simp only [reduceCtorEq, if_true, if_false] <;> split_ifs <;> omega

end Score

end CodeAudit
