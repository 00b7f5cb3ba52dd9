import CodeAudit.Path
/-!
# Faults of analyzers

Every way in which an analyzer can fail, sorted into four kinds. Faults of configuration arise before
an analysis; those of the other kinds arise from it.
-/
namespace CodeAudit

/-- The kind of a fault. -/
inductive FaultKind where
  | configuration
  | execution
  | timeout
  | cancelled
deriving DecidableEq, Repr, Inhabited

namespace FaultKind

def name : FaultKind → String
  | configuration => "configuration"
  | execution => "execution"
  | timeout => "timeout"
  | cancelled => "cancelled"

/-- Whether faults of the kind arise from an analysis and not from its preparation. -/
def fromAnalysis (k : FaultKind) : Bool :=
  k != configuration

end FaultKind

/-- A fault of an analyzer. -/
inductive Fault where
  | configuration (message : String)
  | execution (message : String)
  | timeout
  | cancelled (message : String)
  /-- A file could not be read. -/
  | io (path : Path) (message : String)
  /-- Something else; only the outermost description is shown. -/
  | unexpected (message : String) (context : Option String)
deriving DecidableEq, Repr, Inhabited

namespace Fault

def kind : Fault → FaultKind
  | configuration _ => .configuration
  | execution _ | io _ _ | unexpected _ _ => .execution
  | timeout => .timeout
  | cancelled _ => .cancelled

/-- The text of a fault. -/
def text : Fault → String
  | configuration message => "Configuration error: " ++ message
  | execution message => "Plugin execution failed: " ++ message
  | timeout => "Plugin timeout"
  | cancelled message => "Cancelled: " ++ message
  | io path message => "I/O error on " ++ path.text ++ ": " ++ message
  | unexpected message context => "Internal error: " ++ context.getD message

end Fault

end CodeAudit
