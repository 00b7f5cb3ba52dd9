import CodeAudit.Proofs.Score
/-!
# What an assessment of security depends on

Issues concern security if their rule says so, in letters of either case. An assessment is made of the
numbers of such issues: neither their order nor any other issue has a part in it, and with more of them
it never gets better.
-/
namespace CodeAudit

/-- A part that is looked for occurs in a text if it is a stretch of it. -/
lemma Text.occursIn_iff {part text : List Char} : occursIn part text = true ↔ part <:+: text := by
  induction text with
  | nil => rw [occursIn, List.isEmpty_iff, List.infix_nil]
  | cons c rest ih =>
    rw [occursIn, Bool.or_eq_true, List.isPrefixOf_iff_prefix, ih, List.infix_cons_iff]

/-- What stands in a text written in lower case stands in the text in some spelling. -/
lemma Text.infix_lower_iff {part text : List Char} :
    part <:+: lower text ↔ ∃ spelling, spelling <:+: text ∧ lower spelling = part := by
  constructor
  · rintro ⟨front, back, h⟩
    obtain ⟨first, last, rfl, hfirst, -⟩ := List.map_eq_append_iff.1 h.symm
    obtain ⟨start, spelling, rfl, -, rfl⟩ := List.map_eq_append_iff.1 hfirst
    exact ⟨spelling, ⟨start, last, rfl⟩, rfl⟩
  · rintro ⟨spelling, hspelling, rfl⟩
    exact hspelling.map Char.toLower

namespace Issue

/-- A security word stands in the rule of the issue, whatever the case of its ASCII letters. -/
def Tagged (i : Issue) : Prop :=
  ∃ word ∈ securityWords, ∃ spelling,
    spelling <:+: i.ruleId.toList ∧ Text.lower spelling = word.toList

/-- An issue concerns security if its rule is tagged. -/
lemma isSecurityRelated_iff {i : Issue} : i.isSecurityRelated = true ↔ i.Tagged := by
  simp only [isSecurityRelated, List.any_eq_true, Text.occursIn_iff, Text.infix_lower_iff, Tagged]

instance (i : Issue) : Decidable i.Tagged :=
  decidable_of_iff _ isSecurityRelated_iff

/-- The issues that concern security are those of tagged rules. -/
lemma filter_isSecurityRelated (issues : List Issue) :
    issues.filter isSecurityRelated = issues.filter fun i => i.Tagged := by
  refine List.filter_congr fun i _ => Bool.eq_iff_iff.2 ?_
  rw [decide_eq_true_eq]
  exact isSecurityRelated_iff

end Issue

namespace SeverityCounts

/-- Counts that agree for each severity are the same. -/
lemma ext_get {c d : SeverityCounts} (h : ∀ s, c.get s = d.get s) : c = d := by
  obtain ⟨error, warning, info⟩ := c
  obtain ⟨error', warning', info'⟩ := d
  obtain rfl : error = error' := h .error
  obtain rfl : warning = warning' := h .warning
  obtain rfl : info = info' := h .info
  rfl

/-- The order of issues does not change their counts. -/
lemma ofIssues_perm {issues issues' : List Issue} (h : issues.Perm issues') :
    ofIssues issues = ofIssues issues' := by
  apply ext_get
  intro s
  rw [get_ofIssues, get_ofIssues]
  exact h.countP_eq _

end SeverityCounts

namespace Score

/-- An assessment looks at the counts of the issues that concern security and at nothing else. -/
lemma security_congr {issues issues' : List Issue}
    (h : (issues.filter Issue.isSecurityRelated).Perm (issues'.filter Issue.isSecurityRelated)) :
    security issues = security issues' := by
  rw [security, security, SeverityCounts.ofIssues_perm h]

/-- With more issues an assessment gets no better. It stays as it is if the issues are put in another
order, and if none of those that are added is tagged. -/
theorem security_monotone (issues issues' : List Issue) :
    (issues.Subperm issues' → (security issues).Milder (security issues')) ∧
    (issues.Perm issues' → security issues = security issues') ∧
    ∀ added, issues'.Perm (issues ++ added) → (∀ i ∈ added, ¬ i.Tagged) →
      security issues' = security issues := by
  refine ⟨milder_security, fun h => security_congr (h.filter _), ?_⟩
  intro added hadded huntagged
  have hnone : added.filter Issue.isSecurityRelated = [] :=
    List.filter_eq_nil_iff.2 fun i hi h => huntagged i hi (Issue.isSecurityRelated_iff.1 h)
  apply security_congr
  have hfilter := hadded.filter Issue.isSecurityRelated
  rw [List.filter_append, hnone, List.append_nil] at hfilter
  exact hfilter

/-- A warning of a rule. -/
def warningOf (rule : String) : Issue :=
  { (default : Issue) with severity := .warning, ruleId := rule }

/-- Five warnings that concern security, and with a sixth the risk goes from medium to high; a word
that is spelled with a letter beyond ASCII is none of theirs. -/
theorem security_sixth_warning :
    let few := ["npm-AUDIT", "Security/eval", "x/vulnErability", "audit", "insecurity"].map warningOf
    let more := (["audit", "x", "security/\u017f", "insecurity", "x/vulnErability", "npm-AUDIT",
      "Security/eval"]).map warningOf
    let untagged := ["\u017fecurity", "aud/it"].map warningOf
    few.Subperm more ∧ (security few).Milder (security more) ∧
      (security few).riskLevel = .medium ∧ (security more).riskLevel = .high ∧
      security (few.reverse ++ untagged) = security few := by
  intro few more untagged
  have hmore : few.Subperm more := by decide +kernel
  have huntagged : ∀ i ∈ untagged, ¬ i.Tagged := by decide +kernel
  obtain ⟨hmilder, -, -⟩ := security_monotone few more
  obtain ⟨-, -, hadded⟩ := security_monotone few (few.reverse ++ untagged)
  refine ⟨hmore, hmilder hmore, by decide +kernel, by decide +kernel, ?_⟩
  exact hadded untagged ((List.reverse_perm few).append_right untagged) huntagged

end Score

end CodeAudit
