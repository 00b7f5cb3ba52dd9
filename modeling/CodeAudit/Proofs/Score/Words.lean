import CodeAudit.Proofs.Score
/-!
# Scores in machine words

A machine counts in words of 64 bits. Its products and sums of points stop at the greatest word, and of
what is left of a hundred the lower 32 bits are kept. Nothing of this shows in a score: it is a hundred
less the points of all issues, or zero if these are more.
-/
namespace CodeAudit

/-- Counts that are held in words. -/
structure WordCounts where
  error : UInt64 := 0
  warning : UInt64 := 0
  info : UInt64 := 0

namespace WordCounts

/-- One more of a severity; the count after the greatest word is zero. -/
def add (c : WordCounts) : Severity → WordCounts
  | .error => { c with error := c.error + 1 }
  | .warning => { c with warning := c.warning + 1 }
  | .info => { c with info := c.info + 1 }

def ofIssues (issues : List Issue) : WordCounts :=
  issues.foldl (fun c i => c.add i.severity) {}

/-- The numbers that the words stand for. -/
def counts (c : WordCounts) : SeverityCounts :=
  ⟨c.error.toNat, c.warning.toNat, c.info.toNat⟩

/-- Counts below the greatest word can be added to. -/
lemma counts_add {c : WordCounts} (h : ∀ s, c.counts.get s < Score.limit) (s : Severity) :
    (c.add s).counts = c.counts.add s := by
  have hnext {n : UInt64} (hn : n.toNat < Score.limit) : (n + 1).toNat = n.toNat + 1 := by
    rw [UInt64.toNat_add]
    exact Nat.mod_eq_of_lt (Nat.succ_lt_succ hn)
  cases s with
  | error => exact congrArg (SeverityCounts.mk · _ _) (hnext (h .error))
  | warning => exact congrArg (SeverityCounts.mk _ · _) (hnext (h .warning))
  | info => exact congrArg (SeverityCounts.mk _ _) (hnext (h .info))

/-- Issues that can be counted by a word are counted as they would be without words. -/
lemma counts_ofIssues {issues : List Issue} (h : issues.length ≤ Score.limit) :
    (ofIssues issues).counts = SeverityCounts.ofIssues issues := by
  induction issues using List.reverseRecOn with
  | nil => rfl
  | append_singleton front i ih =>
    rw [List.length_append, List.length_singleton] at h
    have hfront : (ofIssues front).counts = SeverityCounts.ofIssues front := ih (Nat.le_of_succ_le h)
    have hroom (s : Severity) : (ofIssues front).counts.get s < Score.limit := by
      rw [hfront, SeverityCounts.get_ofIssues]
      exact Nat.lt_of_le_of_lt List.countP_le_length h
    have hlast : ofIssues (front ++ [i]) = (ofIssues front).add i.severity := by
      rw [ofIssues, List.foldl_append]
      rfl
    rw [hlast, counts_add hroom, hfront, SeverityCounts.ofIssues_concat]

end WordCounts

namespace Score

namespace Word

/-- A product of words, or the greatest word if the product is none. -/
def times (m n : UInt64) : UInt64 :=
  if m.toNat * n.toNat ≤ limit then m * n else UInt64.ofNat limit

/-- A sum of words, or the greatest word if the sum is none. -/
def plus (m n : UInt64) : UInt64 :=
  if m.toNat + n.toNat ≤ limit then m + n else UInt64.ofNat limit

/-- A difference of words, or zero if the difference is none. -/
def minus (m n : UInt64) : UInt64 :=
  if n ≤ m then m - n else 0

def weighted (c : WordCounts) (error warning info : UInt64) : UInt64 :=
  plus (plus (times c.error error) (times c.warning warning)) (times c.info info)

/-- What the points leave of a hundred, cut to a word of 32 bits. -/
def score (c : WordCounts) (error warning info : UInt64) : UInt32 :=
  (minus 100 (weighted c error warning info)).toUInt32

def quality (c : WordCounts) : UInt32 :=
  score c 10 3 1

/-- The security score, with the counts of the issues that concern security. -/
def security (c : WordCounts) : UInt32 :=
  score c 25 10 5

/-- A number within the greatest word is not cut. -/
lemma toNat_of_le {n : Nat} (h : n ≤ limit) : n % 2 ^ 64 = n :=
  Nat.mod_eq_of_lt (Nat.lt_of_le_of_lt h (by decide))

/-- The greatest word stands for the greatest number. -/
lemma toNat_greatest : (UInt64.ofNat limit).toNat = limit := by
  decide +kernel

/-- A product of words is the product of their numbers. -/
lemma toNat_times (m n : UInt64) : (times m n).toNat = Score.times m.toNat n.toNat := by
  rw [times, Score.times]
  split
  · next h => rw [UInt64.toNat_mul, toNat_of_le h, min_eq_left h]
  · next h => rw [toNat_greatest, min_eq_right (Nat.le_of_not_le h)]

/-- A sum of words is the sum of their numbers. -/
lemma toNat_plus (m n : UInt64) : (plus m n).toNat = Score.plus m.toNat n.toNat := by
  rw [plus, Score.plus]
  split
  · next h => rw [UInt64.toNat_add, toNat_of_le h, min_eq_left h]
  · next h => rw [toNat_greatest, min_eq_right (Nat.le_of_not_le h)]

/-- A difference of words is the difference of their numbers. -/
lemma toNat_minus (m n : UInt64) : (minus m n).toNat = m.toNat - n.toNat := by
  rw [minus]
  split
  · next h => exact UInt64.toNat_sub_of_le m n h
  · next h =>
    rw [UInt64.le_iff_toNat_le] at h
    exact (Nat.sub_eq_zero_of_le (Nat.le_of_not_le h)).symm

/-- The points in words are the points. -/
lemma toNat_weighted (c : WordCounts) (error warning info : UInt64) :
    (weighted c error warning info).toNat
      = Score.weighted c.counts error.toNat warning.toNat info.toNat := by
  rw [weighted, toNat_plus, toNat_plus, toNat_times, toNat_times, toNat_times]
  rfl

/-- The lower 32 bits of a score are all of it. -/
lemma toNat_score (c : WordCounts) (error warning info : UInt64) :
    (score c error warning info).toNat
      = 100 - Score.weighted c.counts error.toNat warning.toNat info.toNat := by
  rw [score, UInt64.toNat_toUInt32, toNat_minus, toNat_weighted]
  exact Nat.mod_eq_of_lt (Nat.lt_of_le_of_lt (Nat.sub_le _ _) (by decide))

/-- The quality in words is the quality. -/
lemma toNat_quality (c : WordCounts) : (quality c).toNat = Score.quality c.counts :=
  toNat_score c 10 3 1

/-- The security score in words is the security score. -/
lemma toNat_security {issues : List Issue} (h : issues.length ≤ limit) :
    (security (.ofIssues (issues.filter Issue.isSecurityRelated))).toNat
      = (Score.security issues).score := by
  have htagged : (issues.filter Issue.isSecurityRelated).length ≤ limit :=
    Nat.le_trans (List.length_filter_le _ _) h
  rw [security, toNat_score, WordCounts.counts_ofIssues htagged]
  rfl

/-- More issues do not make a score in words greater. -/
lemma score_le_score {c d : WordCounts} (h : c.counts.AtMost d.counts)
    (error warning info : UInt64) : score d error warning info ≤ score c error warning info := by
  rw [UInt32.le_iff_toNat_le, toNat_score, toNat_score]
  exact Nat.sub_le_sub_left (weighted_le_weighted h _ _ _) 100

end Word

/-- Points that stop at the limit on the way stop there in the end. -/
lemma weighted_eq_min (c : SeverityCounts) (error warning info : Nat) :
    weighted c error warning info
      = min (c.error * error + c.warning * warning + c.info * info) limit := by
  simp only [weighted, plus, times]
  omega

/-- A score is what the points of all issues leave of a hundred, however many points that are. -/
lemma sub_weighted_eq (c : SeverityCounts) (error warning info : Nat) :
    ((100 - weighted c error warning info : Nat) : Int)
      = max 0 (100 - (error * c.error + warning * c.warning + info * c.info : Int)) := by
  have hlimit : 100 ≤ limit := by decide
  rw [weighted_eq_min, mul_comm c.error, mul_comm c.warning, mul_comm c.info]
  omega

/-- The scores are the exact ones, in words as without, and no score goes up with a count. -/
theorem scores_exact :
    (∀ c : WordCounts,
      let error : Int := c.error.toNat
      let warning : Int := c.warning.toNat
      let info : Int := c.info.toNat
      quality c.counts = (Word.quality c).toNat ∧
        (Word.quality c).toNat ≤ 100 ∧ (Word.security c).toNat ≤ 100 ∧
        ((Word.quality c).toNat : Int) = max 0 (100 - (10 * error + 3 * warning + info)) ∧
        ((Word.security c).toNat : Int) = max 0 (100 - (25 * error + 10 * warning + 5 * info))) ∧
    (∀ issues : List Issue,
      let tagged (s : Severity) : Int := issues.countP fun i => i.severity = s && i.isSecurityRelated
      (security issues).score ≤ 100 ∧
        ((security issues).score : Int)
          = max 0 (100 - (25 * tagged .error + 10 * tagged .warning + 5 * tagged .info)) ∧
        (issues.length ≤ limit → (security issues).score
          = (Word.security (.ofIssues (issues.filter Issue.isSecurityRelated))).toNat)) ∧
    ∀ c d : WordCounts, c.error ≤ d.error → c.warning ≤ d.warning → c.info ≤ d.info →
      Word.quality d ≤ Word.quality c ∧ Word.security d ≤ Word.security c := by
  refine ⟨?_, ?_, ?_⟩
  · intro c error warning info
    have hquality := sub_weighted_eq c.counts 10 3 1
    have hsecurity := sub_weighted_eq c.counts 25 10 5
    rw [Nat.cast_one, one_mul] at hquality
    rw [Word.toNat_quality, Word.security, Word.toNat_score]
    exact ⟨rfl, Nat.sub_le _ _, Nat.sub_le _ _, hquality, hsecurity⟩
  · intro issues tagged
    have hcount (s : Severity) :
        ((SeverityCounts.ofIssues (issues.filter Issue.isSecurityRelated)).get s : Int) = tagged s := by
      rw [SeverityCounts.get_ofIssues, List.countP_filter]
    refine ⟨Nat.sub_le _ _, ?_, fun h => (Word.toNat_security h).symm⟩
    rw [← hcount, ← hcount, ← hcount]
    exact sub_weighted_eq _ 25 10 5
  · intro c d herror hwarning hinfo
    have hmost : c.counts.AtMost d.counts := by
      intro s
      cases s with
      | error => exact UInt64.le_iff_toNat_le.1 herror
      | warning => exact UInt64.le_iff_toNat_le.1 hwarning
      | info => exact UInt64.le_iff_toNat_le.1 hinfo
    exact ⟨Word.score_le_score hmost 10 3 1, Word.score_le_score hmost 25 10 5⟩

/-- With the greatest word for a count, products and sums stop at the limit and the scores at zero. Of
two issues the one of a security rule has a part in the security score. -/
theorem scores_greatest :
    let few : WordCounts := ⟨1, 3, 4⟩
    let many : WordCounts := ⟨2, UInt64.ofNat limit, UInt64.ofNat limit⟩
    let issues : List Issue := [{ (default : Issue) with ruleId := "npm-Audit" }, default]
    few.error ≤ many.error ∧ few.warning ≤ many.warning ∧ few.info ≤ many.info ∧
      Word.quality many ≤ Word.quality few ∧ Word.security many ≤ Word.security few ∧
      (Word.quality few).toNat = 77 ∧ (Word.quality many).toNat = 0 ∧ issues.length ≤ limit ∧
      (Word.security (.ofIssues (issues.filter Issue.isSecurityRelated))).toNat = 75 := by
  intro few many issues
  obtain ⟨hexact, htagged, hantitone⟩ := scores_exact
  have herror : few.error ≤ many.error := by decide +kernel
  have hwarning : few.warning ≤ many.warning := by decide +kernel
  have hinfo : few.info ≤ many.info := by decide +kernel
  have hlength : issues.length ≤ limit := by decide +kernel
  obtain ⟨hquality, hsecurity⟩ := hantitone few many herror hwarning hinfo
  obtain ⟨-, -, -, hfew, -⟩ := hexact few
  obtain ⟨-, -, -, hmany, -⟩ := hexact many
  obtain ⟨-, hscore, hwords⟩ := htagged issues
  refine ⟨herror, hwarning, hinfo, hquality, hsecurity, Int.ofNat_inj.1 (hfew.trans ?_),
    Int.ofNat_inj.1 (hmany.trans ?_), hlength, ?_⟩
  · decide +kernel
  · decide +kernel
  · rw [← hwords hlength]
    refine Int.ofNat_inj.1 (hscore.trans ?_)
    decide +kernel

end Score

end CodeAudit
