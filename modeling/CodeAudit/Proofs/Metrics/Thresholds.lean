import CodeAudit.Metrics.Config
import CodeAudit.Proofs.Json.Reading
/-!
# Thresholds that are given in part

An object may give any of the fields of a configuration as the configuration writes them, next to fields
of other names. What is read from it are the defaults, with the given fields in their places.
-/
namespace CodeAudit.MetricsConfig

open Json (Reads FieldsRead Decoder)

/-- The thresholds fit the numbers that they are held in. -/
structure InRange (c : MetricsConfig) : Prop where
  cyclomatic : c.cyclomatic < Nat.pow 2 32
  cognitive : c.cognitive < Nat.pow 2 32
  linesOfCode : c.linesOfCode < Nat.pow 2 64
  duplicateWindow : c.duplicateWindow < Nat.pow 2 64

/-- The fields of a configuration. -/
inductive Field where
  | cyclomatic
  | cognitive
  | maintainability
  | linesOfCode
  | duplicateWindow
  | detectDuplicates
deriving DecidableEq, Repr

/-- The name that a field is written under. -/
def Field.name : Field → String
  | cyclomatic => "cyclomatic_threshold"
  | cognitive => "cognitive_threshold"
  | maintainability => "maintainability_threshold"
  | linesOfCode => "max_lines_of_code"
  | duplicateWindow => "duplicate_threshold"
  | detectDuplicates => "detect_duplicates"

/-- The value that a configuration writes for a field. -/
def Field.value (c : MetricsConfig) : Field → Json
  | cyclomatic => .count c.cyclomatic
  | cognitive => .count c.cognitive
  | maintainability => .ofFloat c.maintainability
  | linesOfCode => .count c.linesOfCode
  | duplicateWindow => .count c.duplicateWindow
  | detectDuplicates => .bool c.detectDuplicates

variable {c : MetricsConfig} {chosen : Finset Field} {given : NameMap Json}

/-- The configuration with the chosen fields of another one. -/
def overriddenBy (base c : MetricsConfig) (chosen : Finset Field) : MetricsConfig where
  cyclomatic := if .cyclomatic ∈ chosen then c.cyclomatic else base.cyclomatic
  cognitive := if .cognitive ∈ chosen then c.cognitive else base.cognitive
  maintainability := if .maintainability ∈ chosen then c.maintainability else base.maintainability
  linesOfCode := if .linesOfCode ∈ chosen then c.linesOfCode else base.linesOfCode
  duplicateWindow := if .duplicateWindow ∈ chosen then c.duplicateWindow else base.duplicateWindow
  detectDuplicates :=
    if .detectDuplicates ∈ chosen then c.detectDuplicates else base.detectDuplicates

/-- If all fields are chosen, nothing is left of the configuration that they override. -/
lemma overriddenBy_of_forall_mem (base : MetricsConfig) (h : ∀ field, field ∈ chosen) :
    base.overriddenBy c chosen = c := by
  simp only [overriddenBy, h, if_true]

/-- Of the fields of a configuration an object has the chosen ones, as the configuration writes them. -/
def Holds (c : MetricsConfig) (chosen : Finset Field) (given : NameMap Json) : Prop :=
  ∀ field : Field, NameMap.get? field.name given
    = if field ∈ chosen then c.toJson.field? field.name else none

/-- Each field is written under its name with its value. -/
lemma field?_toJson (c : MetricsConfig) (field : Field) :
    c.toJson.field? field.name = some (field.value c) := by
  cases field <;> rfl

/-- What a configuration writes holds all of its fields. -/
lemma holds_toJson (c : MetricsConfig) (h : ∀ field, field ∈ chosen) :
    ∃ given, c.toJson = .object given ∧ c.Holds chosen given := by
  refine ⟨_, rfl, fun field => ?_⟩
  rw [if_pos (h field)]
  rfl

/-- A field of an object, as the decoder finds it. -/
lemma Holds.get? (h : c.Holds chosen given) (field : Field) :
    NameMap.get? field.name given = if field ∈ chosen then some (field.value c) else none := by
  rw [h, field?_toJson]

/-- The fields that an object does not give are those of the defaults. -/
lemma ofJson_of_holds (hrange : c.InRange) (hfinite : c.maintainability.isFinite = true)
    (h : c.Holds chosen given) : ofJson (.object given) = .ok (overriddenBy {} c chosen) := by
  have hread : decode (.object given) = .ok (overriddenBy {} c chosen) := by
    apply FieldsRead.record_eq_ok
    exact .seq (.seq (.seq (.seq (.seq (.map
      (.kept (h.get? .cyclomatic) (.natural hrange.cyclomatic)) _)
      (.kept (h.get? .cognitive) (.natural hrange.cognitive)))
      (.kept (h.get? .maintainability) (.float hfinite)))
      (.kept (h.get? .linesOfCode) (.natural hrange.linesOfCode)))
      (.kept (h.get? .duplicateWindow) (.natural hrange.duplicateWindow)))
      (.kept (h.get? .detectDuplicates) (.boolean _))
  simp only [ofJson, hread]

/-- A configuration is read as it was written. -/
lemma ofJson_toJson (hrange : c.InRange) (hfinite : c.maintainability.isFinite = true) :
    ofJson c.toJson = .ok c := by
  let all : Finset Field :=
    {.cyclomatic, .cognitive, .maintainability, .linesOfCode, .duplicateWindow, .detectDuplicates}
  have hall : ∀ field, field ∈ all := by
    intro field
    cases field <;> decide
  obtain ⟨given, hgiven, hholds⟩ := holds_toJson c hall
  rw [hgiven, ofJson_of_holds hrange hfinite hholds, overriddenBy_of_forall_mem _ hall]

/-- Thresholds of which each is another one than the default, and which are not in order. -/
def odd : MetricsConfig where
  cyclomatic := 4294967295
  cognitive := 0
  maintainability := -0.5
  linesOfCode := 18446744073709551615
  duplicateWindow := 0
  detectDuplicates := false

/-- The odd thresholds fit their numbers. -/
lemma odd_inRange : odd.InRange :=
  ⟨by decide, by decide, by decide, by decide⟩

/-- The least maintainability of the odd thresholds is finite. -/
lemma isFinite_maintainability_odd : odd.maintainability.isFinite = true := by
  decide +kernel

end CodeAudit.MetricsConfig
