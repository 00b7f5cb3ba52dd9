import CodeAudit.Analyzer.Fault
/-!
# Cancellation

A token tells an analyzer to stop. A token may have a parent; it counts as cancelled when it or one
above it has been cancelled, and cancelling it leaves those above it alone.
-/
namespace CodeAudit

/-- A token, with the tokens above it. -/
inductive CancelToken where
  | root (requested : Bool)
  | child (requested : Bool) (parent : CancelToken)
deriving DecidableEq, Repr, Inhabited

namespace CancelToken

/-- A token that nobody has cancelled and that has no parent. -/
def fresh : CancelToken := root false

/-- A token below another one. -/
def subordinate (parent : CancelToken) : CancelToken := child false parent

def isCancelled : CancelToken → Bool
  | root requested => requested
  | child requested parent => requested || parent.isCancelled

/-- Cancels a token. -/
def cancel : CancelToken → CancelToken
  | root _ => root true
  | child _ parent => child true parent

/-- Cancels the token above, if there is one. -/
def cancelParent : CancelToken → CancelToken
  | root requested => root requested
  | child requested parent => child requested parent.cancel

/-- The token above. -/
def parent? : CancelToken → Option CancelToken
  | root _ => none
  | child _ parent => some parent

end CancelToken

/-- What an analyzer is told about its analysis: the name it goes by, and its token. -/
structure AnalysisContext where
  analyzer : String
  token : CancelToken
deriving DecidableEq, Repr, Inhabited

/-- The fault of an analyzer that has seen its cancellation. -/
def cancelledFault (analyzer : String) : Fault :=
  .cancelled (analyzer ++ " observed cancellation")

/-- Refuses to go on once the token is cancelled. -/
def AnalysisContext.check (c : AnalysisContext) : Except Fault Unit :=
  if c.token.isCancelled then .error (cancelledFault c.analyzer) else .ok ()

end CodeAudit
