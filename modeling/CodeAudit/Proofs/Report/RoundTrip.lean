import CodeAudit.Proofs.Json.Reading
import CodeAudit.Report.Codec
/-!
# Reports are read as they were written

A report whose numbers fit their types is read from the JSON value that it is written as, also after
fields of other names have been put into any of its records. Of all fields of all its records only the
range and the suggestions of an issue and the error of an analyzer are ever left out, where they are
empty, and there reading restores them.
-/
namespace CodeAudit

open Json (Shape Reads Demands Decoder)

/-- A path is read back. -/
lemma Path.reads (p : Path) : Reads .whole Path.decode p.toJson p :=
  .whole rfl

/-- A severity is read back. -/
lemma Severity.reads (s : Severity) : Reads .whole Severity.decode s.toJson s := by
  apply Reads.variant
  cases s <;> rfl

/-- The status of an analyzer is read back. -/
lemma AnalyzerStatus.reads (s : AnalyzerStatus) : Reads .whole AnalyzerStatus.decode s.toJson s := by
  apply Reads.variant
  cases s <;> rfl

/-- The status of a run is read back. -/
lemma RunStatus.reads (s : RunStatus) : Reads .whole RunStatus.decode s.toJson s := by
  apply Reads.variant
  cases s <;> rfl

/-- A level of risk is read back. -/
lemma RiskLevel.reads (r : RiskLevel) : Reads .whole RiskLevel.decode r.toJson r := by
  apply Reads.variant
  cases r <;> rfl

/-- A priority is read back. -/
lemma Priority.reads (p : Priority) : Reads .whole Priority.decode p.toJson p := by
  apply Reads.variant
  cases p <;> rfl

/-- A time whose text stands for it is read back. -/
lemma Timestamp.reads {t : Timestamp} (h : parse t.text = .ok t) :
    Reads .whole decode t.toJson t := by
  apply Reads.whole
  rw [toJson, decode, h]

namespace Position

structure InRange (p : Position) : Prop where
  line : p.line < Nat.pow 2 64
  column : p.column < Nat.pow 2 64

def shape : Shape :=
  .record [("line", .whole), ("column", .whole)] [] []

/-- A position in range is read back, whatever it is widened by. -/
lemma reads {p : Position} (h : p.InRange) : Reads shape decode p.toJson p := by
  refine .fullRecord ?_ rfl rfl (by decide)
  exact .seq (.map (.present rfl (.natural h.line)) _) (.present rfl (.natural h.column))

/-- Neither number of a position may be left out. -/
lemma demands : Demands shape decode :=
  .record
    (.seq (.map (.required .whole) _)
      (.required .whole)) rfl

end Position

namespace Range

structure InRange (r : Range) : Prop where
  start : r.start.InRange
  stop : r.stop.InRange

def shape : Shape :=
  .record [("start", Position.shape), ("end", Position.shape)] [] []

/-- A range in range is read back, whatever it is widened by. -/
lemma reads {r : Range} (h : r.InRange) : Reads shape decode r.toJson r := by
  refine .fullRecord ?_ rfl rfl (by decide)
  exact .seq (.map (.present rfl (Position.reads h.start)) _) (.present rfl (Position.reads h.stop))

/-- Neither end of a range may be left out. -/
lemma demands : Demands shape decode :=
  .record
    (.seq (.map (.required Position.demands) _)
      (.required Position.demands)) rfl

end Range

namespace Location

structure InRange (l : Location) : Prop where
  line : l.line < Nat.pow 2 64
  column : l.column < Nat.pow 2 64

def shape : Shape :=
  .record [("file", .whole), ("line", .whole), ("column", .whole)] [] []

/-- A location in range is read back, whatever it is widened by. -/
lemma reads {l : Location} (h : l.InRange) : Reads shape decode l.toJson l := by
  obtain ⟨file, line, column⟩ := l
  exact .fullRecord
    (.seq (.seq (.map (.present rfl file.reads) _)
      (.present rfl (.natural h.line)))
      (.present rfl (.natural h.column))) rfl rfl (by decide)

/-- Nothing of a location may be left out. -/
lemma demands : Demands shape decode :=
  .record
    (.seq (.seq (.map (.required .whole) _)
      (.required .whole))
      (.required .whole)) rfl

end Location

namespace Issue

structure InRange (i : Issue) : Prop where
  location : i.location.InRange
  range : ∀ r ∈ i.range, r.InRange

def shape : Shape :=
  .record [("id", .whole), ("severity", .whole), ("message", .whole), ("rule_id", .whole),
    ("location", Location.shape), ("range", Range.shape), ("fixable", .whole),
    ("suggestions", .list .whole)] ["range", "suggestions"] ["fixable"]

/-- An issue in range is read back, whatever it is widened by. -/
lemma reads {i : Issue} (h : i.InRange) : Reads shape decode i.toJson i := by
  obtain ⟨id, severity, message, ruleId, location, range, fixable, suggestions⟩ := i
  obtain ⟨hlocation, hrange⟩ := h
  -- which fields there are to read depends on those that have been left out
  cases range <;> cases suggestions
  all_goals
    refine .record
      (.seq (.seq (.seq (.seq (.seq (.seq (.seq (.map (.present rfl (.string _)) _)
        (.present rfl severity.reads))
        (.present rfl (.string _)))
        (.present rfl (.string _)))
        (.present rfl (Location.reads hlocation)))
        (.option rfl (fun r hr => Range.reads (hrange r hr)) fun _ => nofun))
        (.present rfl (.boolean _)))
        (.list rfl fun text _ => .string text)) rfl ?_ ?_ ?_
    all_goals simp

/-- Of an issue nothing may be left out but its range, its suggestions, and that it cannot be fixed. -/
lemma demands : Demands shape decode :=
  .record
    (.seq (.seq (.seq (.seq (.seq (.seq (.seq (.map (.required .whole) _)
      (.required .whole))
      (.required .whole))
      (.required .whole))
      (.required Location.demands))
      (.defaulted Range.demands.optional (by decide)))
      (.defaulted .whole (by decide)))
      (.defaulted (.list .whole) (by decide))) rfl

end Issue

namespace SeverityCounts

structure InRange (c : SeverityCounts) : Prop where
  error : c.error < Nat.pow 2 64
  warning : c.warning < Nat.pow 2 64
  info : c.info < Nat.pow 2 64

def shape : Shape :=
  .record [("error", .whole), ("warning", .whole), ("info", .whole)] [] []

/-- Counts in range are read back, whatever they are widened by. -/
lemma reads {c : SeverityCounts} (h : c.InRange) : Reads shape decode c.toJson c := by
  obtain ⟨error, warning, info⟩ := c
  exact .fullRecord
    (.seq (.seq (.map (.present rfl (.natural h.error)) _)
      (.present rfl (.natural h.warning)))
      (.present rfl (.natural h.info))) rfl rfl (by decide)

/-- No count may be left out. -/
lemma demands : Demands shape decode :=
  .record
    (.seq (.seq (.map (.required .whole) _)
      (.required .whole))
      (.required .whole)) rfl

end SeverityCounts

namespace AnalyzerResult

structure InRange (r : AnalyzerResult) : Prop where
  milliseconds : r.milliseconds < Nat.pow 2 64
  issuesFound : r.issuesFound < Nat.pow 2 64
  filesProcessed : r.filesProcessed < Nat.pow 2 64

def shape : Shape :=
  .record [("name", .whole), ("version", .whole), ("execution_time_ms", .whole),
    ("status", .whole), ("issues_found", .whole), ("files_processed", .whole), ("error", .whole)]
    ["error"] []

/-- The result of an analyzer in range is read back, whatever it is widened by. -/
lemma reads {r : AnalyzerResult} (h : r.InRange) : Reads shape decode r.toJson r := by
  obtain ⟨name, version, milliseconds, status, issuesFound, filesProcessed, error⟩ := r
  cases error
  all_goals
    refine .record
      (.seq (.seq (.seq (.seq (.seq (.seq (.map (.present rfl (.string _)) _)
        (.present rfl (.string _)))
        (.present rfl (.natural h.milliseconds)))
        (.present rfl status.reads))
        (.present rfl (.natural h.issuesFound)))
        (.present rfl (.natural h.filesProcessed)))
        (.option rfl (fun text _ => .string text) fun _ => nofun)) rfl ?_ ?_ ?_
    all_goals simp

/-- Of a result nothing may be left out but its error. -/
lemma demands : Demands shape decode :=
  .record
    (.seq (.seq (.seq (.seq (.seq (.seq (.map (.required .whole) _)
      (.required .whole))
      (.required .whole))
      (.required .whole))
      (.required .whole))
      (.required .whole))
      (.defaulted .whole (by decide))) rfl

end AnalyzerResult

namespace FileRecord

structure InRange (f : FileRecord) : Prop where
  size : f.size < Nat.pow 2 64
  issueCount : f.issueCount < Nat.pow 2 64

def shape : Shape :=
  .record [("path", .whole), ("size", .whole), ("language", .whole), ("issue_count", .whole),
    ("plugins", .list .whole)] [] []

/-- The record of a file in range is read back, whatever it is widened by. -/
lemma reads {f : FileRecord} (h : f.InRange) : Reads shape decode f.toJson f := by
  obtain ⟨path, size, language, issueCount, analyzers⟩ := f
  exact .fullRecord
    (.seq (.seq (.seq (.seq (.map (.present rfl path.reads) _)
      (.present rfl (.natural h.size)))
      (.present rfl (.string _)))
      (.present rfl (.natural h.issueCount)))
      (.present rfl (.strings _))) rfl rfl (by decide)

/-- Nothing of the record of a file may be left out. -/
lemma demands : Demands shape decode :=
  .record
    (.seq (.seq (.seq (.seq (.map (.required .whole) _)
      (.required .whole))
      (.required .whole))
      (.required .whole))
      (.required (.list .whole))) rfl

end FileRecord

namespace Summary

structure InRange (s : Summary) : Prop where
  totalFiles : s.totalFiles < Nat.pow 2 64
  totalIssues : s.totalIssues < Nat.pow 2 64
  bySeverity : s.bySeverity.InRange
  fixableIssues : s.fixableIssues < Nat.pow 2 64
  analyzersRun : s.analyzersRun < Nat.pow 2 64
  analyzersFailed : s.analyzersFailed < Nat.pow 2 64
  least : -Int.pow 2 31 ≤ s.exitCode
  greatest : s.exitCode ≤ Int.pow 2 31 - 1

def shape : Shape :=
  .record [("total_files", .whole), ("total_issues", .whole),
    ("issues_by_level", SeverityCounts.shape), ("fixable_issues", .whole), ("plugins_run", .whole),
    ("plugins_failed", .whole), ("status", .whole), ("exit_code", .whole)] [] []

/-- A summary in range is read back, whatever it is widened by. -/
lemma reads {s : Summary} (h : s.InRange) : Reads shape decode s.toJson s := by
  obtain ⟨totalFiles, totalIssues, bySeverity, fixableIssues, run, failed, status, exitCode⟩ := s
  exact .fullRecord
    (.seq (.seq (.seq (.seq (.seq (.seq (.seq (.map (.present rfl (.natural h.totalFiles)) _)
      (.present rfl (.natural h.totalIssues)))
      (.present rfl (SeverityCounts.reads h.bySeverity)))
      (.present rfl (.natural h.fixableIssues)))
      (.present rfl (.natural h.analyzersRun)))
      (.present rfl (.natural h.analyzersFailed)))
      (.present rfl status.reads))
      (.present rfl (.integer h.least h.greatest))) rfl rfl (by decide)

/-- Nothing of a summary may be left out. -/
lemma demands : Demands shape decode :=
  .record
    (.seq (.seq (.seq (.seq (.seq (.seq (.seq (.map (.required .whole) _)
      (.required .whole))
      (.required SeverityCounts.demands))
      (.required .whole))
      (.required .whole))
      (.required .whole))
      (.required .whole))
      (.required .whole)) rfl

end Summary

namespace SecurityMetrics

structure InRange (s : SecurityMetrics) : Prop where
  score : s.score < Nat.pow 2 32
  issues : s.issues.InRange

def shape : Shape :=
  .record [("risk_level", .whole), ("security_score", .whole),
    ("security_issues", SeverityCounts.shape)] [] []

/-- Security measures in range are read back, whatever they are widened by. -/
lemma reads {s : SecurityMetrics} (h : s.InRange) : Reads shape decode s.toJson s := by
  obtain ⟨riskLevel, score, issues⟩ := s
  exact .fullRecord
    (.seq (.seq (.map (.present rfl riskLevel.reads) _)
      (.present rfl (.natural h.score)))
      (.present rfl (SeverityCounts.reads h.issues))) rfl rfl (by decide)

/-- No security measure may be left out. -/
lemma demands : Demands shape decode :=
  .record
    (.seq (.seq (.map (.required .whole) _)
      (.required .whole))
      (.required SeverityCounts.demands)) rfl

end SecurityMetrics

namespace ReportMetrics

structure InRange (m : ReportMetrics) : Prop where
  milliseconds : m.milliseconds < Nat.pow 2 64
  sorted_times : NameMap.Sorted m.analyzerTimes
  analyzerTimes : ∀ entry ∈ m.analyzerTimes, entry.2 < Nat.pow 2 64
  qualityScore : m.qualityScore < Nat.pow 2 32
  technicalDebtHours : m.technicalDebtHours.isFinite = true
  averageIssuesPerFile : m.averageIssuesPerFile.isFinite = true
  security : m.security.InRange
  sorted_distribution : NameMap.Sorted m.complexityDistribution
  complexityDistribution : ∀ entry ∈ m.complexityDistribution, entry.2 < Nat.pow 2 64

def shape : Shape :=
  .record [("execution_time_ms", .whole), ("plugin_execution_times", .whole),
    ("quality_score", .whole), ("technical_debt_hours", .whole),
    ("average_issues_per_file", .whole), ("security", SecurityMetrics.shape),
    ("complexity_distribution", .whole)] [] []

/-- Measures of a report in range are read back, whatever they are widened by. -/
lemma reads {m : ReportMetrics} (h : m.InRange) : Reads shape decode m.toJson m := by
  obtain ⟨milliseconds, analyzerTimes, qualityScore, debt, average, security, distribution⟩ := m
  exact .fullRecord
    (.seq (.seq (.seq (.seq (.seq (.seq (.map (.present rfl (.natural h.milliseconds)) _)
      (.present rfl (.counts h.sorted_times h.analyzerTimes)))
      (.present rfl (.natural h.qualityScore)))
      (.present rfl (.float h.technicalDebtHours)))
      (.present rfl (.float h.averageIssuesPerFile)))
      (.present rfl (SecurityMetrics.reads h.security)))
      (.present rfl (.counts h.sorted_distribution h.complexityDistribution))) rfl rfl (by decide)

/-- No measure of a report may be left out. -/
lemma demands : Demands shape decode :=
  .record
    (.seq (.seq (.seq (.seq (.seq (.seq (.map (.required .whole) _)
      (.required .whole))
      (.required .whole))
      (.required .whole))
      (.required .whole))
      (.required SecurityMetrics.demands))
      (.required .whole)) rfl

end ReportMetrics

namespace Recommendation

def shape : Shape :=
  .record [("category", .whole), ("priority", .whole), ("title", .whole), ("description", .whole),
    ("issue_ids", .list .whole)] [] []

/-- A recommendation is read back, whatever it is widened by. -/
lemma reads (r : Recommendation) : Reads shape decode r.toJson r := by
  obtain ⟨category, priority, title, description, issueIds⟩ := r
  exact .fullRecord
    (.seq (.seq (.seq (.seq (.map (.present rfl (.string _)) _)
      (.present rfl priority.reads))
      (.present rfl (.string _)))
      (.present rfl (.string _)))
      (.present rfl (.strings _))) rfl rfl (by decide)

/-- Nothing of a recommendation may be left out. -/
lemma demands : Demands shape decode :=
  .record
    (.seq (.seq (.seq (.seq (.map (.required .whole) _)
      (.required .whole))
      (.required .whole))
      (.required .whole))
      (.required (.list .whole))) rfl

end Recommendation

namespace Report

/-- The numbers of a report fit their types, its maps are in order, and its time is read as it is
written. -/
structure InRange (r : Report) : Prop where
  timestamp : Timestamp.parse r.timestamp.text = .ok r.timestamp
  summary : r.summary.InRange
  files : ∀ f ∈ r.files, f.InRange
  issues : ∀ i ∈ r.issues, i.InRange
  metrics : r.metrics.InRange
  analyzerResults : ∀ a ∈ r.analyzerResults, a.InRange

def shape : Shape :=
  .record [("timestamp", .whole), ("configuration", .whole), ("summary", Summary.shape),
    ("files", .list FileRecord.shape), ("issues", .list Issue.shape),
    ("metrics", ReportMetrics.shape), ("plugin_results", .list AnalyzerResult.shape),
    ("recommendations", .list Recommendation.shape)] [] ["recommendations"]

/-- A report in range is read back, whatever it is widened by. -/
lemma reads {r : Report} (h : r.InRange) : Reads shape decode r.toJson r := by
  obtain ⟨timestamp, configuration, summary, files, issues, metrics, results, recommendations⟩ := r
  exact .fullRecord
    (.seq (.seq (.seq (.seq (.seq (.seq (.seq (.map (.present rfl (Timestamp.reads h.timestamp)) _)
      (.present rfl (.value _)))
      (.present rfl (Summary.reads h.summary)))
      (.present rfl (.list fun f hf => FileRecord.reads (h.files f hf))))
      (.present rfl (.list fun i hi => Issue.reads (h.issues i hi))))
      (.present rfl (ReportMetrics.reads h.metrics)))
      (.present rfl (.list fun a ha => AnalyzerResult.reads (h.analyzerResults a ha))))
      (.present rfl (.list fun a _ => a.reads))) rfl rfl (by decide)

/-- Of a report nothing may be left out but its recommendations. -/
lemma demands : Demands shape decode :=
  .record
    (.seq (.seq (.seq (.seq (.seq (.seq (.seq (.map (.required .whole) _)
      (.required .whole))
      (.required Summary.demands))
      (.required (.list FileRecord.demands)))
      (.required (.list Issue.demands)))
      (.required ReportMetrics.demands))
      (.required (.list AnalyzerResult.demands)))
      (.defaulted (.list Recommendation.demands) (by decide))) rfl

/-- What the JSON value of a report says and leaves out. -/
structure Written (r : Report) : Prop where
  /-- Only the fields that may be left out are, and there are no others. -/
  fits : shape.Fits r.toJson
  range : ∀ i ∈ r.issues, i.toJson.field? "range" = none ↔ i.range = none
  suggestions : ∀ i ∈ r.issues, i.toJson.field? "suggestions" = none ↔ i.suggestions = []
  error : ∀ a ∈ r.analyzerResults, a.toJson.field? "error" = none ↔ a.error = none

end Report

/-- An issue is written with its range and its suggestions if it has any. -/
lemma Issue.field?_toJson (i : Issue) :
    i.toJson.field? "range" = i.range.map Range.toJson ∧
      i.toJson.field? "suggestions"
        = if i.suggestions.isEmpty then none else some (.list (i.suggestions.map .text)) := by
  obtain ⟨id, severity, message, ruleId, location, range, fixable, suggestions⟩ := i
  cases range <;> cases suggestions <;> exact ⟨rfl, rfl⟩

/-- A result is written with its error if it has one. -/
lemma AnalyzerResult.field?_toJson (r : AnalyzerResult) :
    r.toJson.field? "error" = r.error.map .text := by
  obtain ⟨name, version, milliseconds, status, issuesFound, filesProcessed, error⟩ := r
  cases error <;> rfl

/-- What an issue is read without is empty. -/
lemma Issue.restored {given : NameMap Json} {i : Issue} (h : decode (.object given) = .ok i) :
    (NameMap.get? "range" given = none → i.range = none) ∧
      (NameMap.get? "suggestions" given = none → i.suggestions = []) := by
  obtain ⟨_, suggestions, hfixable, hsuggestions, rfl⟩ :=
    Json.Outcome.seq_eq_value (Decoder.ofObject_of_record h)
  obtain ⟨_, fixable, hrest, -, rfl⟩ := Json.Outcome.seq_eq_value hfixable
  obtain ⟨_, range, hlocation, hrange, rfl⟩ := Json.Outcome.seq_eq_value hrest
  obtain ⟨_, location, hrule, -, rfl⟩ := Json.Outcome.seq_eq_value hlocation
  obtain ⟨_, ruleId, hmessage, -, rfl⟩ := Json.Outcome.seq_eq_value hrule
  obtain ⟨_, message, hseverity, -, rfl⟩ := Json.Outcome.seq_eq_value hmessage
  obtain ⟨_, severity, hid, -, rfl⟩ := Json.Outcome.seq_eq_value hseverity
  obtain ⟨_, id, hmk, -, rfl⟩ := Json.Outcome.seq_eq_value hid
  obtain rfl := Json.Outcome.value.inj hmk
  exact ⟨fun hnone => Json.Fields.eq_of_field_absent hnone hrange,
    fun hnone => Json.Fields.eq_of_field_absent hnone hsuggestions⟩

/-- A result that is written without an error has none. -/
lemma AnalyzerResult.restored {given : NameMap Json} {r : AnalyzerResult}
    (h : decode (.object given) = .ok r) (hnone : NameMap.get? "error" given = none) :
    r.error = none := by
  obtain ⟨_, error, hfiles, herror, rfl⟩ :=
    Json.Outcome.seq_eq_value (Decoder.ofObject_of_record h)
  obtain ⟨_, filesProcessed, hissues, -, rfl⟩ := Json.Outcome.seq_eq_value hfiles
  obtain ⟨_, issuesFound, hstatus, -, rfl⟩ := Json.Outcome.seq_eq_value hissues
  obtain ⟨_, status, htime, -, rfl⟩ := Json.Outcome.seq_eq_value hstatus
  obtain ⟨_, milliseconds, hversion, -, rfl⟩ := Json.Outcome.seq_eq_value htime
  obtain ⟨_, version, hname, -, rfl⟩ := Json.Outcome.seq_eq_value hversion
  obtain ⟨_, name, hmk, -, rfl⟩ := Json.Outcome.seq_eq_value hname
  obtain rfl := Json.Outcome.value.inj hmk
  exact Json.Fields.eq_of_field_absent hnone herror

namespace Report

/-- The JSON value of a report in range says what it is to say and leaves out what it may. -/
lemma written {r : Report} (h : r.InRange) : r.Written where
  fits := (reads h).fits
  range i _ := by rw [i.field?_toJson.1, Option.map_eq_none_iff]
  suggestions i _ := by
    rw [i.field?_toJson.2]
    cases i.suggestions <;> simp
  error a _ := by rw [a.field?_toJson, Option.map_eq_none_iff]

/-- A report is read as it was written, also after more fields have been put into its records. What is
left out of a record is what reading restores; the other fields are always written, and a value without
one of them is not read unless it is a flag or the recommendations. -/
theorem decode_of_widens {r : Report} (h : r.InRange) :
    decode r.toJson = .ok r ∧
    (∀ j, shape.Widens r.toJson j → decode j = .ok r) ∧
    r.Written ∧
    (∀ given i, Issue.decode (.object given) = .ok i →
      (NameMap.get? "range" given = none → i.range = none) ∧
      (NameMap.get? "suggestions" given = none → i.suggestions = [])) ∧
    (∀ given a, AnalyzerResult.decode (.object given) = .ok a →
      NameMap.get? "error" given = none → a.error = none) ∧
    ∀ j r', decode j = .ok r' → shape.Complete j :=
  ⟨(reads h).self, (reads h).widened, written h, fun _ _ hi => Issue.restored hi,
    fun _ _ ha => AnalyzerResult.restored ha, demands⟩

/-- A report with an issue that has no range and a result that has no error. -/
def modestReport : Report where
  timestamp := ⟨86399, 500000000⟩
  configuration := .object [("a", .int (-1)), ("b", .float 0.5)]
  summary := ⟨1, 1, ⟨0, 1, 0⟩, 0, 2, 1, .incomplete, 2⟩
  files := [⟨⟨"a.ts"⟩, 7, "typescript", 1, ["lint"]⟩]
  issues := [⟨"i", .warning, "m", "r", ⟨⟨"a.ts"⟩, 1, 1⟩, none, false, ["mend it"]⟩]
  metrics := ⟨3, [("lint", 1), ("stuck", 2)], 98, 0.25, 1.0, ⟨.low, 100, {}⟩, []⟩
  analyzerResults := [.succeeded "lint" "1" 1 1 1, .failed "stuck" "1" 2 "late"]
  recommendations := []

/-- The report is in range. -/
lemma modestReport_inRange : modestReport.InRange where
  timestamp := by decide +kernel
  summary :=
    ⟨by decide, by decide, ⟨by decide, by decide, by decide⟩, by decide, by decide, by decide,
      by decide, by decide⟩
  files := List.forall_mem_singleton.2 ⟨by decide, by decide⟩
  issues := List.forall_mem_singleton.2 ⟨⟨by decide, by decide⟩, nofun⟩
  metrics :=
    ⟨by decide, List.pairwise_pair.2 (by decide), by decide, by decide, by decide +kernel,
      by decide +kernel, ⟨by decide, by decide, by decide, by decide⟩, List.Pairwise.nil, nofun⟩
  analyzerResults :=
    List.forall_mem_cons.2 ⟨⟨by decide, by decide, by decide⟩,
      List.forall_mem_singleton.2 ⟨by decide, by decide, by decide⟩⟩

/-- The issue of the report with a note in it. -/
def notedIssueJson : Json :=
  .ofFields
    [("id", .text "i"), ("severity", .text "warning"), ("message", .text "m"), ("rule_id", .text "r"),
      ("location", .ofFields [("file", .text "a.ts"), ("line", .count 1), ("column", .count 1)]),
      ("fixable", .bool false), ("suggestions", .list [.text "mend it"]), ("note", .null)]

/-- The report with notes in it and in its issue. -/
def notedJson : Json :=
  .ofFields
    [("note", .bool true), ("timestamp", modestReport.timestamp.toJson),
      ("configuration", modestReport.configuration), ("summary", modestReport.summary.toJson),
      ("files", .list (modestReport.files.map FileRecord.toJson)), ("issues", .list [notedIssueJson]),
      ("metrics", modestReport.metrics.toJson),
      ("plugin_results", .list (modestReport.analyzerResults.map AnalyzerResult.toJson)),
      ("recommendations", .list [])]

/-- The note widens the issue. -/
lemma widens_notedIssueJson :
    List.Forall₂ Issue.shape.Widens (modestReport.issues.map Issue.toJson) [notedIssueJson] := by
  refine .cons (Shape.widens_record_iff.2 ⟨_, rfl, ?_⟩) .nil
  simp only [List.forall_mem_cons]
  have hlocation := (Location.reads (l := ⟨⟨"a.ts"⟩, 1, 1⟩) ⟨by decide, by decide⟩).fits.widens_refl
  have hsuggestions := (Reads.strings ["mend it"]).fits.widens_refl
  exact ⟨.some rfl, .some rfl, .some rfl, .some rfl, .some hlocation, .none, .some rfl,
    .some hsuggestions, nofun⟩

/-- The notes are passed over when the report is read. -/
theorem decode_notedJson :
    modestReport.InRange ∧ shape.Widens modestReport.toJson notedJson ∧
      decode notedJson = .ok modestReport := by
  have h := modestReport_inRange
  have hwider : shape.Widens modestReport.toJson notedJson := by
    refine Shape.widens_record_iff.2 ⟨_, rfl, ?_⟩
    simp only [List.forall_mem_cons]
    have hsummary := (Summary.reads h.summary).fits.widens_refl
    have hfiles := (Reads.list fun f hf => FileRecord.reads (h.files f hf)).fits.widens_refl
    have hissues := Shape.widens_list_iff.2 ⟨_, rfl, widens_notedIssueJson⟩
    have hmetrics := (ReportMetrics.reads h.metrics).fits.widens_refl
    have hresults :=
      (Reads.list fun a ha => AnalyzerResult.reads (h.analyzerResults a ha)).fits.widens_refl
    exact ⟨.some rfl, .some rfl, .some hsummary, .some hfiles, .some hissues, .some hmetrics,
      .some hresults, .some List.Forall₂.nil, nofun⟩
  exact ⟨h, hwider, (decode_of_widens h).2.1 notedJson hwider⟩

end Report

end CodeAudit
