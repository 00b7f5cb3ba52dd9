import CodeAudit.Issue.Basic
import CodeAudit.Json.Basic
import CodeAudit.Timestamp.Basic
/-!
# Reports

A report is what a run comes to: the issues that were found, a record for every file and every
analyzer, the measures derived from the issues, and recommendations. Everything in it is plain data.
-/
namespace CodeAudit

/-- How an analyzer ended. -/
inductive AnalyzerStatus where
  | success
  | failed
deriving DecidableEq, Repr, Inhabited

namespace AnalyzerStatus

def all : List AnalyzerStatus := [success, failed]

def name : AnalyzerStatus → String
  | success => "success"
  | failed => "failed"

end AnalyzerStatus

/-- What became of one analyzer in a run. -/
structure AnalyzerResult where
  name : String
  version : String
  milliseconds : Nat
  status : AnalyzerStatus
  issuesFound : Nat
  filesProcessed : Nat
  error : Option String
deriving DecidableEq, Repr, Inhabited

namespace AnalyzerResult

/-- The result of an analyzer that came to an end. -/
def succeeded (name version : String) (milliseconds issuesFound filesProcessed : Nat) :
    AnalyzerResult :=
  ⟨name, version, milliseconds, .success, issuesFound, filesProcessed, none⟩

/-- The result of an analyzer that failed: it has processed nothing. -/
def failed (name version : String) (milliseconds : Nat) (error : String) : AnalyzerResult :=
  ⟨name, version, milliseconds, .failed, 0, 0, some error⟩

def isFailed (r : AnalyzerResult) : Bool :=
  r.status == .failed

end AnalyzerResult

/-- The record of one file. -/
structure FileRecord where
  path : Path
  size : Nat
  language : String
  issueCount : Nat
  /-- The analyzers that found an issue in the file. -/
  analyzers : List String
deriving DecidableEq, Repr, Inhabited

/-- How a run ended as a whole. -/
inductive RunStatus where
  | success
  /-- An analyzer failed, or an issue is an error. -/
  | incomplete
deriving DecidableEq, Repr, Inhabited

namespace RunStatus

def all : List RunStatus := [success, incomplete]

def name : RunStatus → String
  | success => "success"
  | incomplete => "partial"

end RunStatus

/-- A run in numbers. -/
structure Summary where
  totalFiles : Nat
  totalIssues : Nat
  bySeverity : SeverityCounts
  fixableIssues : Nat
  analyzersRun : Nat
  analyzersFailed : Nat
  status : RunStatus
  exitCode : Int
deriving DecidableEq, Repr, Inhabited

/-- How much the security issues put at risk. -/
inductive RiskLevel where
  | low
  | medium
  | high
  | critical
deriving DecidableEq, Repr, Inhabited

namespace RiskLevel

/-- All levels, the least risk first. -/
def all : List RiskLevel := [low, medium, high, critical]

def name : RiskLevel → String
  | low => "low"
  | medium => "medium"
  | high => "high"
  | critical => "critical"

/-- The place of a level in the order from low to critical. -/
def rank : RiskLevel → Nat
  | low => 0
  | medium => 1
  | high => 2
  | critical => 3

end RiskLevel

/-- The measures of the issues that concern security. -/
structure SecurityMetrics where
  riskLevel : RiskLevel
  score : Nat
  issues : SeverityCounts
deriving DecidableEq, Repr, Inhabited

/-- The measures derived from the issues of a run. -/
structure ReportMetrics where
  milliseconds : Nat
  /-- The time of each analyzer, in the order of their names. -/
  analyzerTimes : List (String × Nat)
  qualityScore : Nat
  technicalDebtHours : Float
  averageIssuesPerFile : Float
  security : SecurityMetrics
  /-- The number of issues of each complexity rule, in the order of the rules. -/
  complexityDistribution : List (String × Nat)
deriving Repr, Inhabited

/-- How urgent a recommendation is. -/
inductive Priority where
  | high
  | medium
  | low
deriving DecidableEq, Repr, Inhabited

namespace Priority

def all : List Priority := [high, medium, low]

def name : Priority → String
  | high => "high"
  | medium => "medium"
  | low => "low"

end Priority

/-- What to do about some issues. -/
structure Recommendation where
  category : String
  priority : Priority
  title : String
  description : String
  issueIds : List String
deriving DecidableEq, Repr, Inhabited

/-- What a run comes to. -/
structure Report where
  timestamp : Timestamp
  /-- The configuration that the run had. -/
  configuration : Json
  summary : Summary
  files : List FileRecord
  issues : List Issue
  metrics : ReportMetrics
  analyzerResults : List AnalyzerResult
  recommendations : List Recommendation
deriving Inhabited

/-- The outcome of a run in one line. -/
def Report.summaryLine (r : Report) : String :=
  let s := r.summary
  let c := s.bySeverity
  s!"{s.totalIssues} issue(s) in {s.totalFiles} file(s) [{c.error} error, {c.warning} warning, "
    ++ s!"{c.info} info], status {s.status.name}, exit {s.exitCode}"

end CodeAudit
