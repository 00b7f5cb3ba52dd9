import CodeAudit.Analyzer.Fault
import CodeAudit.Json.Decode
/-!
# Thresholds

The thresholds of the metrics analyzer. Each one has a default, so a configuration may give any of
them, or none.
-/
namespace CodeAudit

open Json (Decoder)
open Json.Fields (defaulted)

/-- What the metrics analyzer takes for too much or too little. -/
structure MetricsConfig where
  /-- The greatest cyclomatic complexity of a file or a function. -/
  cyclomatic : Nat := 10
  /-- The greatest cognitive complexity of a file. -/
  cognitive : Nat := 15
  /-- The least maintainability index. -/
  maintainability : Float := 20
  /-- The greatest number of lines of code. -/
  linesOfCode : Nat := 300
  /-- The number of lines of the windows that are searched for duplicates. -/
  duplicateWindow : Nat := 6
  detectDuplicates : Bool := true
deriving Repr, Inhabited

namespace MetricsConfig

def toJson (c : MetricsConfig) : Json :=
  .ofFields [("cyclomatic_threshold", .count c.cyclomatic),
    ("cognitive_threshold", .count c.cognitive),
    ("maintainability_threshold", .ofFloat c.maintainability),
    ("max_lines_of_code", .count c.linesOfCode),
    ("duplicate_threshold", .count c.duplicateWindow),
    ("detect_duplicates", .bool c.detectDuplicates)]

def decode : Decoder MetricsConfig :=
  let given : MetricsConfig := {}
  Decoder.record "MetricsConfig" <|
    MetricsConfig.mk <$> defaulted "cyclomatic_threshold" Decoder.nat32 given.cyclomatic
      <*> defaulted "cognitive_threshold" Decoder.nat32 given.cognitive
      <*> defaulted "maintainability_threshold" Decoder.float given.maintainability
      <*> defaulted "max_lines_of_code" Decoder.size given.linesOfCode
      <*> defaulted "duplicate_threshold" Decoder.size given.duplicateWindow
      <*> defaulted "detect_duplicates" Decoder.boolean given.detectDuplicates

/-- The thresholds of a configuration value; null stands for the defaults. -/
def ofJson (value : Json) : Except Fault MetricsConfig :=
  match value with
  | .null => .ok {}
  | value =>
    match decode value with
    | .ok c => .ok c
    | .error e => .error (.configuration ("invalid metrics config: " ++ e.message))

/-- What can be wrong with thresholds. -/
inductive Problem where
  | emptyWindow
  | maintainabilityRange (given : Float)

/-- The text of a problem. -/
def Problem.message : Problem → String
  | emptyWindow => "duplicate_threshold must be > 0"
  | maintainabilityRange given =>
    "maintainability_threshold must be in [0, 100], got " ++ Decimal.plain given

/-- What is wrong with the thresholds, if anything is. -/
def problem? (c : MetricsConfig) : Option Problem :=
  if c.duplicateWindow = 0 then some .emptyWindow
  else if 0 ≤ c.maintainability ∧ c.maintainability ≤ 100 then none
  else some (.maintainabilityRange c.maintainability)

end MetricsConfig

end CodeAudit
