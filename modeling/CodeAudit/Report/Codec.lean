import CodeAudit.Issue.Codec
import CodeAudit.Report.Basic
import CodeAudit.Timestamp.Text
/-!
# Reports in JSON

How reports are written and read. The error of an analyzer that succeeded is left out, and reading
restores it.
-/
namespace CodeAudit

open Json (Decoder)
open Json.Fields (required defaulted)

/-- A list of texts. -/
def Json.texts (items : List String) : Json :=
  .list (items.map .text)

/-- Counts by name. -/
def Json.counts (entries : List (String × Nat)) : Json :=
  .ofFields (entries.map fun (name, n) => (name, .count n))

namespace AnalyzerStatus

def toJson (s : AnalyzerStatus) : Json := .text s.name

def decode : Decoder AnalyzerStatus :=
  Decoder.variant (all.map fun s => (s.name, s))

end AnalyzerStatus

namespace AnalyzerResult

def toJson (r : AnalyzerResult) : Json :=
  .ofFields <|
    [("name", .text r.name), ("version", .text r.version),
      ("execution_time_ms", .count r.milliseconds), ("status", r.status.toJson),
      ("issues_found", .count r.issuesFound), ("files_processed", .count r.filesProcessed)]
    ++ match r.error with
      | some e => [("error", .text e)]
      | none => []

def decode : Decoder AnalyzerResult :=
  Decoder.record "PluginResult" <|
    AnalyzerResult.mk <$> required "name" Decoder.string <*> required "version" Decoder.string
      <*> required "execution_time_ms" Decoder.nat64 <*> required "status" AnalyzerStatus.decode
      <*> required "issues_found" Decoder.size <*> required "files_processed" Decoder.size
      <*> defaulted "error" (Decoder.optional Decoder.string) none

end AnalyzerResult

namespace FileRecord

def toJson (f : FileRecord) : Json :=
  .ofFields [("path", f.path.toJson), ("size", .count f.size), ("language", .text f.language),
    ("issue_count", .count f.issueCount), ("plugins", .texts f.analyzers)]

def decode : Decoder FileRecord :=
  Decoder.record "AnalyzedFile" <|
    FileRecord.mk <$> required "path" Path.decode <*> required "size" Decoder.nat64
      <*> required "language" Decoder.string <*> required "issue_count" Decoder.size
      <*> required "plugins" (Decoder.listOf Decoder.string)

end FileRecord

namespace RunStatus

def toJson (s : RunStatus) : Json := .text s.name

def decode : Decoder RunStatus :=
  Decoder.variant (all.map fun s => (s.name, s))

end RunStatus

namespace Summary

def toJson (s : Summary) : Json :=
  .ofFields [("total_files", .count s.totalFiles), ("total_issues", .count s.totalIssues),
    ("issues_by_level", s.bySeverity.toJson), ("fixable_issues", .count s.fixableIssues),
    ("plugins_run", .count s.analyzersRun), ("plugins_failed", .count s.analyzersFailed),
    ("status", s.status.toJson), ("exit_code", .int s.exitCode)]

def decode : Decoder Summary :=
  Decoder.record "AnalysisSummary" <|
    Summary.mk <$> required "total_files" Decoder.size <*> required "total_issues" Decoder.size
      <*> required "issues_by_level" SeverityCounts.decode
      <*> required "fixable_issues" Decoder.size <*> required "plugins_run" Decoder.size
      <*> required "plugins_failed" Decoder.size <*> required "status" RunStatus.decode
      <*> required "exit_code" Decoder.int32

end Summary

namespace RiskLevel

def toJson (r : RiskLevel) : Json := .text r.name

def decode : Decoder RiskLevel :=
  Decoder.variant (all.map fun r => (r.name, r))

end RiskLevel

namespace SecurityMetrics

def toJson (s : SecurityMetrics) : Json :=
  .ofFields [("risk_level", s.riskLevel.toJson), ("security_score", .count s.score),
    ("security_issues", s.issues.toJson)]

def decode : Decoder SecurityMetrics :=
  Decoder.record "SecurityMetrics" <|
    SecurityMetrics.mk <$> required "risk_level" RiskLevel.decode
      <*> required "security_score" Decoder.nat32
      <*> required "security_issues" SeverityCounts.decode

end SecurityMetrics

namespace ReportMetrics

def toJson (m : ReportMetrics) : Json :=
  .ofFields [("execution_time_ms", .count m.milliseconds),
    ("plugin_execution_times", .counts m.analyzerTimes),
    ("quality_score", .count m.qualityScore),
    ("technical_debt_hours", .ofFloat m.technicalDebtHours),
    ("average_issues_per_file", .ofFloat m.averageIssuesPerFile),
    ("security", m.security.toJson),
    ("complexity_distribution", .counts m.complexityDistribution)]

def decode : Decoder ReportMetrics :=
  Decoder.record "AnalysisMetrics" <|
    ReportMetrics.mk <$> required "execution_time_ms" Decoder.nat64
      <*> required "plugin_execution_times" (Decoder.mapOf Decoder.nat64)
      <*> required "quality_score" Decoder.nat32
      <*> required "technical_debt_hours" Decoder.float
      <*> required "average_issues_per_file" Decoder.float
      <*> required "security" SecurityMetrics.decode
      <*> required "complexity_distribution" (Decoder.mapOf Decoder.size)

end ReportMetrics

namespace Priority

def toJson (p : Priority) : Json := .text p.name

def decode : Decoder Priority :=
  Decoder.variant (all.map fun p => (p.name, p))

end Priority

namespace Recommendation

def toJson (r : Recommendation) : Json :=
  .ofFields [("category", .text r.category), ("priority", r.priority.toJson),
    ("title", .text r.title), ("description", .text r.description),
    ("issue_ids", .texts r.issueIds)]

def decode : Decoder Recommendation :=
  Decoder.record "Recommendation" <|
    Recommendation.mk <$> required "category" Decoder.string
      <*> required "priority" Priority.decode <*> required "title" Decoder.string
      <*> required "description" Decoder.string
      <*> required "issue_ids" (Decoder.listOf Decoder.string)

end Recommendation

namespace Timestamp

def toJson (t : Timestamp) : Json := .text t.text

def decode : Decoder Timestamp
  | .text s =>
    match parse s with
    | .ok t => .ok t
    | .error e => .error (.badFormat e.message)
  | other => .error (.wrongType other "an RFC 3339 formatted date and time string")

end Timestamp

namespace Report

def toJson (r : Report) : Json :=
  .ofFields [("timestamp", r.timestamp.toJson), ("configuration", r.configuration),
    ("summary", r.summary.toJson), ("files", .list (r.files.map FileRecord.toJson)),
    ("issues", .list (r.issues.map Issue.toJson)), ("metrics", r.metrics.toJson),
    ("plugin_results", .list (r.analyzerResults.map AnalyzerResult.toJson)),
    ("recommendations", .list (r.recommendations.map Recommendation.toJson))]

def decode : Decoder Report :=
  Decoder.record "AnalysisResultSchema" <|
    Report.mk <$> required "timestamp" Timestamp.decode
      <*> required "configuration" Decoder.value <*> required "summary" Summary.decode
      <*> required "files" (Decoder.listOf FileRecord.decode)
      <*> required "issues" (Decoder.listOf Issue.decode)
      <*> required "metrics" ReportMetrics.decode
      <*> required "plugin_results" (Decoder.listOf AnalyzerResult.decode)
      <*> defaulted "recommendations" (Decoder.listOf Recommendation.decode) []

end Report

end CodeAudit
