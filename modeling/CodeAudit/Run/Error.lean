import CodeAudit.Analyzer.Fault
/-!
# Errors of runs

A run ends in an error only if its configuration is bad, or if it is to end at the first failure and
an analyzer has failed.
-/
namespace CodeAudit

/-- Why there is no report. -/
inductive RunError where
  | configuration (message : String)
  /-- An analyzer failed in a run that was to end then. -/
  | analyzer (name : String) (fault : Fault)
  /-- Anything else. -/
  | unexpected (message : String)
deriving DecidableEq, Repr, Inhabited

namespace RunError

/-- The text of an error. -/
def text : RunError → String
  | configuration message => "Configuration error: " ++ message
  | analyzer name fault => "Plugin '" ++ name ++ "' failed: " ++ fault.text
  | unexpected message => "Internal error: " ++ message

/-- The analyzer that ended the run. -/
def failedAnalyzer? : RunError → Option String
  | analyzer name _ => some name
  | _ => none

/-- The kind of the fault that ended the run. -/
def faultKind? : RunError → Option FaultKind
  | analyzer _ fault => some fault.kind
  | _ => none

end RunError

end CodeAudit
