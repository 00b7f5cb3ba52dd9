import CodeAudit.Source.Language
/-!
# Measures of a source

What is measured of a source: its lines, its complexity as a whole, and the complexity of each
function and each class.
-/
namespace CodeAudit

/-- A set of names, held as a list in strictly increasing order. -/
abbrev NameSet := List String

/-- Adds a name to a set. -/
def NameSet.insert (name : String) : NameSet → NameSet
  | [] => [name]
  | other :: rest =>
    if name < other then name :: other :: rest
    else if name = other then other :: rest
    else other :: NameSet.insert name rest

/-- The measures of a function, a method or an anonymous function. -/
structure FunctionMetrics where
  name : String
  /-- The first line, counted from one. -/
  startLine : Nat
  /-- The last line. -/
  endLine : Nat
  /-- One, and one for every decision that no function inside of this one owns. -/
  cyclomatic : Nat
  /-- One for every branch and every logical operator that no function inside of this one owns. -/
  cognitive : Nat
  parameterCount : Nat
  /-- The names of what the function calls. -/
  calls : NameSet
deriving DecidableEq, Repr, Inhabited

/-- The measures of a class or of what is like one. -/
structure ClassMetrics where
  name : String
  startLine : Nat
  endLine : Nat
  /-- One, and one for every decision that no class inside of this one owns. -/
  complexity : Nat
  memberCount : Nat
deriving DecidableEq, Repr, Inhabited

/-- The measures of a source. -/
structure FileMetrics where
  path : Path
  language : Language
  linesOfCode : Nat
  commentLines : Nat
  blankLines : Nat
  cyclomatic : Nat
  cognitive : Nat
  maintainability : Float
  functions : List FunctionMetrics
  classes : List ClassMetrics
deriving Repr, Inhabited

end CodeAudit
