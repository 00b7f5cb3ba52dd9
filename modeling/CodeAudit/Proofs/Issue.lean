import CodeAudit.Issue.Basic
import CodeAudit.Proofs.List
/-!
# Issues counted by severity

The counts of some issues are the numbers of issues of each severity, and add up to the number of
issues.
-/
namespace CodeAudit.SeverityCounts

/-- One more issue adds to the count of its severity alone. -/
lemma get_add (c : SeverityCounts) (s t : Severity) :
    (c.add s).get t = c.get t + if s = t then 1 else 0 := by
  cases s <;> cases t <;> rfl

/-- The total is the sum of the counts of the three severities. -/
lemma total_eq_get (c : SeverityCounts) : c.total = c.get .error + c.get .warning + c.get .info :=
  rfl

/-- The counts of some issues and one more. -/
lemma ofIssues_concat (issues : List Issue) (i : Issue) :
    ofIssues (issues ++ [i]) = (ofIssues issues).add i.severity := by
  rw [ofIssues, List.foldl_append]
  rfl

/-- The count of a severity is the number of issues that have it. -/
lemma get_ofIssues (issues : List Issue) (s : Severity) :
    (ofIssues issues).get s = issues.countP (·.severity = s) := by
  induction issues using List.reverseRecOn with
  | nil => cases s <;> rfl
  | append_singleton front i ih =>
    rw [ofIssues_concat, get_add, ih, List.countP_append, List.countP_singleton]
    simp only [decide_eq_true_eq]

/-- Every issue has one severity, so the counts add up to the number of issues. -/
lemma total_ofIssues (issues : List Issue) : (ofIssues issues).total = issues.length := by
  induction issues using List.reverseRecOn with
  | nil => rfl
  | append_singleton front i ih =>
    rw [total_eq_get] at ih
    rw [ofIssues_concat, total_eq_get, get_add, get_add, get_add, List.length_append,
      List.length_singleton, ← ih]
    cases i.severity <;> simp only [reduceCtorEq, if_true, if_false] <;> omega

end CodeAudit.SeverityCounts
