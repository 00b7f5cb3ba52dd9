import CodeAudit.Proofs.Path
import CodeAudit.Run.Assembly
/-!
# Tallies of files

The tallies that the records of the files are made from are filled by the paths of issues and emptied
by the paths of files. A file finds the tally of all issues whose paths are the same as its own:
their number, and the analyzers they come from, each once and in the order of the executions.
-/
namespace CodeAudit

/-- The analyzers that found something in a file, each once, in the order of the executions. -/
def contributors (executions : List Execution) (file : Path) : List String :=
  ((executions.filter fun e => e.issues.any (·.location.file.same file)).map
    (·.result.name)).eraseDups

/-- The record that a file is to have. -/
def FileRecord.of (fs : FileSystem) (executions : List Execution) (issues : List Issue)
    (file : Path) : FileRecord where
  path := file
  size := fs.size file
  language := languageName file
  issueCount := (issues.filter (·.location.file.same file)).length
  analyzers := contributors executions file

namespace FileTally

/-- Some issues of one analyzer count one by one, and name it once. -/
lemma foldl_add (analyzer : String) (issues : List Issue) (tally : FileTally) :
    (issues.foldl (fun tally _ => tally.add analyzer) tally).issueCount
        = tally.issueCount + issues.length ∧
      (issues.foldl (fun tally _ => tally.add analyzer) tally).analyzers
        = if issues = [] then tally.analyzers else (tally.add analyzer).analyzers := by
  induction issues using List.reverseRecOn with
  | nil => exact ⟨rfl, rfl⟩
  | append_singleton front i ih =>
    obtain ⟨hcount, hanalyzers⟩ := ih
    rw [List.foldl_append, if_neg (List.append_ne_nil_of_right_ne_nil _ (List.cons_ne_nil _ _))]
    constructor
    · show (front.foldl _ tally).issueCount + 1 = _
      rw [hcount, List.length_append, List.length_singleton, Nat.add_assoc]
    · show (if analyzer ∈ (front.foldl _ tally).analyzers then (front.foldl _ tally).analyzers
        else (front.foldl _ tally).analyzers ++ [analyzer]) = _
      rw [hanalyzers]
      by_cases hfront : front = []
      · rw [if_pos hfront]
        rfl
      -- the analyzer has been named for the first of the issues
      · rw [if_neg hfront, if_pos]
        rw [add]
        split
        · assumption
        · exact List.mem_append_right _ (List.mem_singleton_self _)

end FileTally

namespace FileTallies

variable {p q : Path} {analyzer : String} {tallies : FileTallies}

/-- The tally of a file. -/
def tallyOf (p : Path) (tallies : FileTallies) : FileTally :=
  (withdraw p tallies).1

/-- The tally of a path is the first one that is of the same path. -/
lemma tallyOf_cons (p other : Path) (tally : FileTally) (rest : FileTallies) :
    tallyOf p ((other, tally) :: rest) = if other.same p then tally else tallyOf p rest := by
  rw [tallyOf, withdraw]
  split <;> rfl

/-- An issue counts for the file of its path and for no other. -/
lemma tallyOf_note (analyzer : String) (file p : Path) (tallies : FileTallies) :
    tallyOf p (note analyzer file tallies)
      = if file.same p then (tallyOf p tallies).add analyzer else tallyOf p tallies := by
  induction tallies with
  | nil => exact tallyOf_cons ..
  | cons head rest ih =>
    obtain ⟨other, tally⟩ := head
    rw [note, tallyOf_cons]
    by_cases hfile : other.same file = true
    · have hsame : other.same p = file.same p := by
        rw [Path.same, Path.same, Path.same_iff.1 hfile]
      rw [if_pos hfile, tallyOf_cons, hsame]
      split <;> rfl
    · rw [if_neg hfile, tallyOf_cons, ih]
      by_cases hp : other.same p = true
      · have hne : ¬ file.same p = true := fun hsame =>
          hfile (Path.same_trans hp ((Path.same_comm p file).trans hsame))
        rw [if_pos hp, if_neg hne, if_pos hp]
      · rw [if_neg hp, if_neg hp]

/-- Taking out the tally of one file leaves the tallies of the others. -/
lemma tallyOf_withdraw (h : p.same q = false) (tallies : FileTallies) :
    tallyOf q (withdraw p tallies).2 = tallyOf q tallies := by
  induction tallies with
  | nil => rfl
  | cons head rest ih =>
    obtain ⟨other, tally⟩ := head
    rw [withdraw, tallyOf_cons]
    by_cases hp : other.same p = true
    · have hq : ¬ other.same q = true := by
        intro hsame
        rw [Path.same_trans ((Path.same_comm p other).trans hp) hsame] at h
        exact Bool.noConfusion h
      rw [if_pos hp, if_neg hq]
    · rw [if_neg hp]
      show tallyOf q ((other, tally) :: (withdraw p rest).2) = _
      rw [tallyOf_cons, ih]

/-- Some issues of one analyzer count for the paths that they are about. -/
lemma tallyOf_foldl_note (issues : List Issue) (tallies : FileTallies) :
    tallyOf p (issues.foldl (fun tallies i => note analyzer i.location.file tallies) tallies)
      = (issues.filter (·.location.file.same p)).foldl (fun tally _ => tally.add analyzer)
        (tallyOf p tallies) := by
  induction issues using List.reverseRecOn with
  | nil => rfl
  | append_singleton front i ih =>
    rw [List.foldl_append, List.filter_append, List.foldl_append, ← ih]
    show tallyOf p (note analyzer i.location.file _) = _
    rw [tallyOf_note]
    by_cases hsame : i.location.file.same p = true
    · rw [if_pos hsame, List.filter_singleton, hsame]
      rfl
    · rw [if_neg hsame, List.filter_singleton, Bool.eq_false_iff.2 hsame]
      rfl

/-- The last of some executions is tallied last. -/
lemma ofExecutions_concat (files : List Path) (front : List Execution) (e : Execution) :
    ofExecutions files (front ++ [e]) = noteAll files (ofExecutions files front) e := by
  rw [ofExecutions, List.foldl_append]
  rfl

/-- The issues of an execution that are kept count for a file of the run if they are about it. -/
lemma filter_kept {files : List Path} (h : p ∈ files) (e : Execution) :
    (e.kept files).filter (·.location.file.same p)
      = e.issues.filter (·.location.file.same p) := by
  rw [Execution.kept, List.filter_filter]
  refine List.filter_congr fun i _ => ?_
  cases hsame : i.location.file.same p with
  | false => rfl
  | true => exact List.any_eq_true.2 ⟨p, h, hsame⟩

/-- The tally of a file of the run has the number of the issues about it and their analyzers. -/
lemma tallyOf_ofExecutions {files : List Path} (h : p ∈ files) (executions : List Execution) :
    (tallyOf p (ofExecutions files executions)).issueCount
        = ((executions.flatMap (·.kept files)).filter (·.location.file.same p)).length ∧
      (tallyOf p (ofExecutions files executions)).analyzers = contributors executions p := by
  induction executions using List.reverseRecOn with
  | nil => exact ⟨rfl, rfl⟩
  | append_singleton front e ih =>
    obtain ⟨hcount, hanalyzers⟩ := ih
    have hnoted : tallyOf p (noteAll files (ofExecutions files front) e)
        = (e.issues.filter (·.location.file.same p)).foldl
          (fun tally _ => tally.add e.result.name) (tallyOf p (ofExecutions files front)) := by
      rw [noteAll, tallyOf_foldl_note, filter_kept h]
    obtain ⟨hmore, hnames⟩ := FileTally.foldl_add e.result.name
      (e.issues.filter (·.location.file.same p)) (tallyOf p (ofExecutions files front))
    rw [ofExecutions_concat, hnoted]
    constructor
    · rw [hmore, hcount, List.flatMap_append, List.filter_append, List.length_append,
        List.flatMap_singleton, filter_kept h]
    · rw [hnames, contributors, List.filter_append, List.map_append]
      -- the execution names its analyzer if one of its issues is about the file
      cases hany : e.issues.any (·.location.file.same p) with
      | false =>
        have hnone : e.issues.filter (·.location.file.same p) = [] := by
          rw [List.filter_eq_nil_iff]
          exact List.any_eq_false.1 hany
        rw [if_pos hnone, List.filter_singleton, hany, hanalyzers]
        exact congrArg List.eraseDups (List.append_nil _).symm
      | true =>
        have hsome : e.issues.filter (·.location.file.same p) ≠ [] := by
          rw [ne_eq, List.filter_eq_nil_iff]
          obtain ⟨i, hi, hsame⟩ := List.any_eq_true.1 hany
          exact fun hnone => hnone i hi hsame
        rw [if_neg hsome, List.filter_singleton, hany, FileTally.add, hanalyzers]
        exact (eraseDups_concat _ _).symm

end FileTallies

/-- Each of some different files finds its own tally. -/
lemma FileRecord.list_eq_map (fs : FileSystem) {files : List Path}
    (hfiles : files.Pairwise fun p q => p.same q = false) (tallies : FileTallies) :
    FileRecord.list fs files tallies
      = files.map fun p => ⟨p, fs.size p, languageName p,
        (FileTallies.tallyOf p tallies).issueCount, (FileTallies.tallyOf p tallies).analyzers⟩ := by
  induction files generalizing tallies with
  | nil => rfl
  | cons file rest ih =>
    obtain ⟨hfile, hrest⟩ := List.pairwise_cons.1 hfiles
    have hothers : list fs rest (FileTallies.withdraw file tallies).2
        = rest.map fun p => ⟨p, fs.size p, languageName p,
          (FileTallies.tallyOf p tallies).issueCount,
          (FileTallies.tallyOf p tallies).analyzers⟩ := by
      rw [ih hrest]
      refine List.map_congr_left fun p hp => ?_
      rw [FileTallies.tallyOf_withdraw (hfile p hp)]
    exact congrArg (List.cons _) hothers

/-- The records of different files are the ones they are to have. -/
lemma FileRecord.list_ofExecutions (fs : FileSystem) {files : List Path}
    (hfiles : files.Pairwise fun p q => p.same q = false) (executions : List Execution) :
    FileRecord.list fs files (FileTallies.ofExecutions files executions)
      = files.map (FileRecord.of fs executions (executions.flatMap (·.kept files))) := by
  rw [list_eq_map fs hfiles]
  refine List.map_congr_left fun p hp => ?_
  obtain ⟨hcount, hanalyzers⟩ := FileTallies.tallyOf_ofExecutions hp executions
  rw [FileRecord.of, hcount, hanalyzers]

end CodeAudit
