import CodeAudit.Json.Basic
/-!
# Configuration of a run

Which analyzers run and with what configuration of their own, how many at a time and for how long,
and what becomes of failures.
-/
namespace CodeAudit

/-- The settings of one analyzer. -/
structure AnalyzerSettings where
  enabled : Bool := true
  /-- What the analyzer is built from. -/
  config : Json := .null
deriving Inhabited

/-- The configuration of a run. -/
structure RunConfig where
  /-- The settings of analyzers; one that is not listed runs with the defaults. -/
  analyzers : NameMap AnalyzerSettings := []
  /-- Whether the analyzers of a batch run at the same time; if not, batches have one analyzer. -/
  parallel : Bool := true
  /-- The number of analyzers in a batch. -/
  maxConcurrent : Nat := 4
  /-- The time that each analyzer has. -/
  timeoutMs : Nat := 300000
  /-- Whether the first failure ends the run. -/
  failFast : Bool := false
  recommendations : Bool := true
deriving Inhabited

namespace RunConfig

/-- What can be wrong with a configuration. -/
inductive Problem where
  | noConcurrency
  | noTime
deriving DecidableEq, Repr

/-- The text of a problem. -/
def Problem.message : Problem → String
  | noConcurrency => "max_concurrent_plugins must be > 0"
  | noTime => "timeout_ms must be > 0"

/-- What is wrong with a configuration, if anything is. -/
def problem? (c : RunConfig) : Option Problem :=
  if c.maxConcurrent = 0 then some .noConcurrency
  else if c.timeoutMs = 0 then some .noTime
  else none

/-- The number of analyzers that run at the same time. -/
def batchSize (c : RunConfig) : Nat :=
  if c.parallel then max c.maxConcurrent 1 else 1

/-- The settings of an analyzer. -/
def settingsFor (c : RunConfig) (analyzer : String) : AnalyzerSettings :=
  (c.analyzers.get? analyzer).getD {}

/-- The configuration with other settings for an analyzer. -/
def withAnalyzer (c : RunConfig) (analyzer : String) (settings : AnalyzerSettings) : RunConfig :=
  { c with analyzers := c.analyzers.insert analyzer settings }

end RunConfig

end CodeAudit
