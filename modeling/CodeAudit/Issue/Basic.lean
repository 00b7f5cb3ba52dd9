import CodeAudit.Path
import CodeAudit.Text.Search
/-!
# Issues

An issue is one finding of an analyzer: how severe it is, what it says, the rule that it comes from
and the place that it is about.
-/
namespace CodeAudit

/-- How severe an issue is. -/
inductive Severity where
  | error
  | warning
  | info
deriving DecidableEq, Repr, Inhabited

namespace Severity

/-- All severities, the most severe first. -/
def all : List Severity := [error, warning, info]

def name : Severity → String
  | error => "error"
  | warning => "warning"
  | info => "info"

/-- The place of a severity in the order from errors down to infos. -/
def rank : Severity → Nat
  | error => 0
  | warning => 1
  | info => 2

end Severity

/-- A place in a text; lines and columns are counted from one. -/
structure Position where
  line : Nat
  column : Nat
deriving DecidableEq, Repr, Inhabited

/-- A stretch of a text. -/
structure Range where
  start : Position
  stop : Position
deriving DecidableEq, Repr, Inhabited

/-- A place in a file. -/
structure Location where
  file : Path
  line : Nat
  column : Nat
deriving DecidableEq, Repr, Inhabited

/-- A finding. -/
structure Issue where
  id : String
  severity : Severity
  message : String
  ruleId : String
  location : Location
  range : Option Range := none
  /-- Whether a tool could mend it. -/
  fixable : Bool := false
  suggestions : List String := []
deriving DecidableEq, Repr, Inhabited

namespace Issue

/-- The words in a rule's name that mark its issues as concerning security. -/
def securityWords : List String := ["vulnerability", "security", "audit"]

/-- Whether the rule of an issue has one of those words in its name, in any case of its letters. -/
def isSecurityRelated (i : Issue) : Bool :=
  securityWords.any fun word => Text.occursIn word.toList (Text.lower i.ruleId.toList)

/-- The issue with one more suggestion. -/
def suggest (i : Issue) (suggestion : String) : Issue :=
  { i with suggestions := i.suggestions ++ [suggestion] }

end Issue

/-- How many issues there are of each severity. -/
structure SeverityCounts where
  error : Nat := 0
  warning : Nat := 0
  info : Nat := 0
deriving DecidableEq, Repr, Inhabited

namespace SeverityCounts

/-- The counts with one more of a severity. -/
def add (c : SeverityCounts) : Severity → SeverityCounts
  | .error => { c with error := c.error + 1 }
  | .warning => { c with warning := c.warning + 1 }
  | .info => { c with info := c.info + 1 }

/-- The count of a severity. -/
def get (c : SeverityCounts) : Severity → Nat
  | .error => c.error
  | .warning => c.warning
  | .info => c.info

def total (c : SeverityCounts) : Nat :=
  c.error + c.warning + c.info

/-- The counts of some issues. -/
def ofIssues (issues : List Issue) : SeverityCounts :=
  issues.foldl (fun c i => c.add i.severity) {}

end SeverityCounts

end CodeAudit
