import CodeAudit.Duplicate.Block
import CodeAudit.Issue.Basic
import CodeAudit.Metrics.Config
import CodeAudit.Metrics.File
/-!
# Findings of the metrics analyzer

Measures that go beyond a threshold and blocks that are duplicated become issues. Findings are made
without identifiers; a list of findings is numbered as a whole.
-/
namespace CodeAudit

/-- Numbers issues from one. -/
def Issue.numbered (label : Nat → String) (issues : List Issue) : List Issue :=
  issues.zipIdx.map fun (issue, index) => { issue with id := label (index + 1) }

namespace Finding

/-- A finding about a file as a whole. -/
def ofFile (severity : Severity) (rule message : String) (path : Path) : Issue where
  id := ""
  severity := severity
  message := message
  ruleId := rule
  location := ⟨path, 1, 1⟩

/-- A finding about some lines of a file. -/
def ofLines (rule message : String) (path : Path) (first last : Nat) : Issue where
  id := ""
  severity := .warning
  message := message
  ruleId := rule
  location := ⟨path, first, 1⟩
  range := some ⟨⟨first, 1⟩, ⟨last, 1⟩⟩

/-- The finding if the condition holds. -/
def when (condition : Bool) (issue : Issue) : List Issue :=
  if condition then [issue] else []

variable (c : MetricsConfig) (m : FileMetrics)

def cyclomatic : List Issue :=
  when (c.cyclomatic < m.cyclomatic) <|
    (ofFile .warning "complexity/cyclomatic"
      s!"Cyclomatic complexity {m.cyclomatic} exceeds threshold {c.cyclomatic}" m.path).suggest
      "Split branching logic into smaller functions"

def cognitive : List Issue :=
  when (c.cognitive < m.cognitive) <|
    (ofFile .warning "complexity/cognitive"
      s!"Cognitive complexity {m.cognitive} exceeds threshold {c.cognitive}" m.path).suggest
      "Flatten nested conditions and extract boolean expressions"

def maintainability : List Issue :=
  when (m.maintainability < c.maintainability) <|
    ofFile .warning "complexity/maintainability-index"
      ("Maintainability index " ++ Decimal.fixed 1 m.maintainability ++ " is below "
        ++ Decimal.fixed 1 c.maintainability) m.path

def linesOfCode : List Issue :=
  when (c.linesOfCode < m.linesOfCode) <|
    (ofFile .info "complexity/lines-of-code"
      s!"File has {m.linesOfCode} lines of code (limit {c.linesOfCode})" m.path).suggest
      "Consider splitting this file into focused modules"

def function (f : FunctionMetrics) : List Issue :=
  when (c.cyclomatic < f.cyclomatic) <|
    ofLines "complexity/function"
      ("Function '" ++ f.name
        ++ s!"' has cyclomatic complexity {f.cyclomatic} (threshold {c.cyclomatic})")
      m.path f.startLine f.endLine

/-- The findings about the measures of a source: those about the file, then those about functions. -/
def ofMetrics : List Issue :=
  cyclomatic c m ++ cognitive c m ++ maintainability c m ++ linesOfCode c m
    ++ m.functions.flatMap (function c m)

/-- The places of a block as a message lists them. -/
def describe (locations : List Duplicate.Location) : String :=
  ", ".intercalate <| locations.map fun l =>
    l.file.text ++ ":" ++ toString l.startLine ++ "-" ++ toString l.endLine

/-- A finding about a block, which stands at its first place. -/
def ofBlock (rule message : String) (b : Duplicate.Block) : List Issue :=
  match b.locations with
  | [] => []
  | first :: _ =>
    [(ofLines rule message first.file first.startLine first.endLine).suggest
      "Extract the duplicated block into a shared function"]

/-- The findings about a block that is duplicated in one file. -/
def ofBlockWithin (b : Duplicate.Block) : List Issue :=
  ofBlock "duplication/intra-file"
    (s!"Block of {b.lines} lines is duplicated within the file at " ++ describe b.locations) b

/-- The findings about a block that is duplicated in several files. -/
def ofBlockAcross (b : Duplicate.Block) : List Issue :=
  ofBlock "duplication/cross-file"
    (s!"Block of {b.lines} lines is duplicated across {b.distinctFiles} files: "
      ++ describe b.locations) b

end Finding

end CodeAudit
