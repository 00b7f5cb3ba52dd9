import CodeAudit.Issue.Basic
import CodeAudit.Json.Decode
/-!
# Issues in JSON

How issues are written and read. A range that is not given and an empty list of suggestions are left
out, and reading restores them.
-/
namespace CodeAudit

open Json (Decoder)
open Json.Fields (required defaulted)

/-- Paths are texts. -/
def Path.toJson (p : Path) : Json := .text p.text

def Path.decode : Decoder Path
  | .text s => .ok ⟨s⟩
  | other => .error (.wrongType other "path string")

namespace Severity

def toJson (s : Severity) : Json := .text s.name

def decode : Decoder Severity :=
  Decoder.variant (all.map fun s => (s.name, s))

end Severity

namespace Position

def toJson (p : Position) : Json :=
  .ofFields [("line", .count p.line), ("column", .count p.column)]

def decode : Decoder Position :=
  Decoder.record "Position" <|
    Position.mk <$> required "line" Decoder.size <*> required "column" Decoder.size

end Position

namespace Range

def toJson (r : Range) : Json :=
  .ofFields [("start", r.start.toJson), ("end", r.stop.toJson)]

def decode : Decoder Range :=
  Decoder.record "Range" <|
    Range.mk <$> required "start" Position.decode <*> required "end" Position.decode

end Range

namespace Location

def toJson (l : Location) : Json :=
  .ofFields [("file", l.file.toJson), ("line", .count l.line), ("column", .count l.column)]

def decode : Decoder Location :=
  Decoder.record "Location" <|
    Location.mk <$> required "file" Path.decode <*> required "line" Decoder.size
      <*> required "column" Decoder.size

end Location

namespace Issue

def toJson (i : Issue) : Json :=
  .ofFields <|
    [("id", .text i.id), ("severity", i.severity.toJson), ("message", .text i.message),
      ("rule_id", .text i.ruleId), ("location", i.location.toJson)]
    ++ (match i.range with
      | some r => [("range", r.toJson)]
      | none => [])
    ++ [("fixable", .bool i.fixable)]
    ++ (if i.suggestions.isEmpty then []
      else [("suggestions", .list (i.suggestions.map .text))])

def decode : Decoder Issue :=
  Decoder.record "CodeIssue" <|
    Issue.mk <$> required "id" Decoder.string <*> required "severity" Severity.decode
      <*> required "message" Decoder.string <*> required "rule_id" Decoder.string
      <*> required "location" Location.decode
      <*> defaulted "range" (Decoder.optional Range.decode) none
      <*> defaulted "fixable" Decoder.boolean false
      <*> defaulted "suggestions" (Decoder.listOf Decoder.string) []

end Issue

namespace SeverityCounts

def toJson (c : SeverityCounts) : Json :=
  .ofFields [("error", .count c.error), ("warning", .count c.warning), ("info", .count c.info)]

def decode : Decoder SeverityCounts :=
  Decoder.record "IssuesByLevel" <|
    SeverityCounts.mk <$> required "error" Decoder.size <*> required "warning" Decoder.size
      <*> required "info" Decoder.size

end SeverityCounts

end CodeAudit
