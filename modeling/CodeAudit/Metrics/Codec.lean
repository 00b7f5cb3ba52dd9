import CodeAudit.Issue.Codec
import CodeAudit.Metrics.File
/-!
# Measures in JSON

How the measures of a source are written and read.
-/
namespace CodeAudit

open Json (Decoder)
open Json.Fields (required)

namespace Language

def toJson (l : Language) : Json := .text l.name

def decode : Decoder Language :=
  Decoder.variant (all.map fun l => (l.name, l))

end Language

/-- The set of some names. -/
def NameSet.ofList (names : List String) : NameSet :=
  names.foldl (fun set name => set.insert name) []

namespace FunctionMetrics

def toJson (f : FunctionMetrics) : Json :=
  .ofFields [("name", .text f.name), ("start_line", .count f.startLine),
    ("end_line", .count f.endLine), ("cyclomatic_complexity", .count f.cyclomatic),
    ("cognitive_complexity", .count f.cognitive), ("parameter_count", .count f.parameterCount),
    ("called_identifiers", .list (f.calls.map .text))]

def decode : Decoder FunctionMetrics :=
  Decoder.record "FunctionMetrics" <|
    FunctionMetrics.mk <$> required "name" Decoder.string <*> required "start_line" Decoder.size
      <*> required "end_line" Decoder.size <*> required "cyclomatic_complexity" Decoder.nat32
      <*> required "cognitive_complexity" Decoder.nat32
      <*> required "parameter_count" Decoder.size
      <*> required "called_identifiers"
        (fun v => (Decoder.listOf Decoder.string v).map NameSet.ofList)

end FunctionMetrics

namespace ClassMetrics

def toJson (c : ClassMetrics) : Json :=
  .ofFields [("name", .text c.name), ("start_line", .count c.startLine),
    ("end_line", .count c.endLine), ("complexity", .count c.complexity),
    ("member_count", .count c.memberCount)]

def decode : Decoder ClassMetrics :=
  Decoder.record "ClassMetrics" <|
    ClassMetrics.mk <$> required "name" Decoder.string <*> required "start_line" Decoder.size
      <*> required "end_line" Decoder.size <*> required "complexity" Decoder.nat32
      <*> required "member_count" Decoder.size

end ClassMetrics

namespace FileMetrics

def toJson (m : FileMetrics) : Json :=
  .ofFields [("path", m.path.toJson), ("language", m.language.toJson),
    ("lines_of_code", .count m.linesOfCode), ("comment_lines", .count m.commentLines),
    ("blank_lines", .count m.blankLines), ("cyclomatic_complexity", .count m.cyclomatic),
    ("cognitive_complexity", .count m.cognitive),
    ("maintainability_index", .ofFloat m.maintainability),
    ("functions", .list (m.functions.map FunctionMetrics.toJson)),
    ("classes", .list (m.classes.map ClassMetrics.toJson))]

def decode : Decoder FileMetrics :=
  Decoder.record "FileMetrics" <|
    FileMetrics.mk <$> required "path" Path.decode <*> required "language" Language.decode
      <*> required "lines_of_code" Decoder.size <*> required "comment_lines" Decoder.size
      <*> required "blank_lines" Decoder.size <*> required "cyclomatic_complexity" Decoder.nat32
      <*> required "cognitive_complexity" Decoder.nat32
      <*> required "maintainability_index" Decoder.float
      <*> required "functions" (Decoder.listOf FunctionMetrics.decode)
      <*> required "classes" (Decoder.listOf ClassMetrics.decode)

end FileMetrics

end CodeAudit
