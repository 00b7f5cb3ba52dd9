import CodeAudit.Config.Codec
import CodeAudit.FileSystem.Basic
import CodeAudit.Run.Recommend
import CodeAudit.Run.Schedule
import CodeAudit.Run.Score
import CodeAudit.Source.Language
/-!
# Assembling the report

The issues of all analyzers are put one after the other, in the order of the analyzers. An issue
about a file that is not one of the run's is dropped; whether it is one is decided by the components
of its path. The issues that are kept are tallied for each file on the way, and the records of the
files are made from the tallies in the end.
-/
namespace CodeAudit

/-- The issues of an execution that are about one of the files. -/
def Execution.kept (files : List Path) (e : Execution) : List Issue :=
  e.issues.filter fun i => files.any i.location.file.same

/-- The language a file record shows. -/
def languageName (p : Path) : String :=
  match Language.ofPath? p with
  | some language => language.name
  | none => "unknown"

/-- What the issues gone through so far say of one file. -/
structure FileTally where
  issueCount : Nat := 0
  /-- The analyzers that found an issue in the file. -/
  analyzers : List String := []
deriving DecidableEq, Repr, Inhabited

/-- The tally with one more issue; an analyzer that has found one before is not named again. -/
def FileTally.add (tally : FileTally) (analyzer : String) : FileTally where
  issueCount := tally.issueCount + 1
  analyzers :=
    if analyzer ∈ tally.analyzers then tally.analyzers else tally.analyzers ++ [analyzer]

/-- The tallies of some files, each file under the first spelling that an issue had for it. -/
abbrev FileTallies := List (Path × FileTally)

namespace FileTallies

/-- Counts an issue of an analyzer for a file. -/
def note (analyzer : String) (file : Path) : FileTallies → FileTallies
  | [] => [(file, FileTally.add {} analyzer)]
  | (other, tally) :: rest =>
    if other.same file then (other, tally.add analyzer) :: rest
    else (other, tally) :: note analyzer file rest

/-- Takes out the tally of a file; a file that no issue is about has an empty one. -/
def withdraw (file : Path) : FileTallies → FileTally × FileTallies
  | [] => ({}, [])
  | (other, tally) :: rest =>
    if other.same file then (tally, rest)
    else
      let (found, left) := withdraw file rest
      (found, (other, tally) :: left)

/-- The tallies after the issues of an execution that are about one of the files. -/
def noteAll (files : List Path) (tallies : FileTallies) (e : Execution) : FileTallies :=
  (e.kept files).foldl (fun tallies i => note e.result.name i.location.file tallies) tallies

/-- The tallies after the issues of some executions. -/
def ofExecutions (files : List Path) (executions : List Execution) : FileTallies :=
  executions.foldl (noteAll files) []

end FileTallies

/-- The records of some files; each takes its tally out. -/
def FileRecord.list (fs : FileSystem) : List Path → FileTallies → List FileRecord
  | [], _ => []
  | file :: rest, tallies =>
    let (tally, left) := FileTallies.withdraw file tallies
    { path := file
      size := fs.size file
      language := languageName file
      issueCount := tally.issueCount
      analyzers := tally.analyzers } :: list fs rest left

/-- The number of issues for each file, on average. -/
def averageIssues (issueCount fileCount : Nat) : Float :=
  if fileCount = 0 then 0 else floatOfCount issueCount / floatOfCount fileCount

/-- The report of a run over `files`, all of which are different. -/
def Report.assemble (config : RunConfig) (templates : List RecommendationTemplate)
    (fs : FileSystem) (now : Timestamp) (files : List Path) (executions : List Execution)
    (milliseconds : Nat) : Report :=
  let issues := executions.flatMap (·.kept files)
  let results := executions.map Execution.result
  let counts := SeverityCounts.ofIssues issues
  let failed := results.countP AnalyzerResult.isFailed
  let quality := Score.quality counts
  let security := Score.security issues
  { timestamp := now
    configuration := config.toJson
    summary :=
      { totalFiles := files.length
        totalIssues := issues.length
        bySeverity := counts
        fixableIssues := issues.countP Issue.fixable
        analyzersRun := results.length
        analyzersFailed := failed
        status := Score.runStatus (0 < failed) counts
        exitCode := Score.exitCode (0 < failed) counts }
    files := FileRecord.list fs files (FileTallies.ofExecutions files executions)
    issues := issues
    metrics :=
      { milliseconds
        analyzerTimes := NameMap.ofList (results.map fun r => (r.name, r.milliseconds))
        qualityScore := quality
        technicalDebtHours := Score.technicalDebtHours counts
        averageIssuesPerFile := averageIssues issues.length files.length
        security := security
        complexityDistribution := Score.complexityDistribution issues }
    analyzerResults := results
    recommendations :=
      if config.recommendations then recommend templates ⟨issues, quality, security⟩ else [] }

end CodeAudit
