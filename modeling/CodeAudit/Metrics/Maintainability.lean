/-!
# Maintainability index

A score from 0 to 100 for a source, from its lines of code and its cyclomatic complexity.
-/
namespace CodeAudit

/-- A count as a floating-point number, rounded to the nearest one. -/
def floatOfCount (n : Nat) : Float :=
  n.toUInt64.toFloat

/--
The score is `171 − 5.2 · ln V − 0.23 · CC − 16.2 · ln LOC`, where `V = LOC · log₂ (LOC + 1)` is the
volume of the source, cut off below 0 and above 100. A source without code scores 100.
-/
def maintainabilityIndex (linesOfCode cyclomatic : Nat) : Float :=
  if linesOfCode = 0 then 100
  else
    let loc := floatOfCount linesOfCode
    let volume := (loc + 1).log2 * loc
    let raw := 171 - 5.2 * volume.log - 0.23 * floatOfCount cyclomatic - 16.2 * loc.log
    if raw.isFinite then
      if raw < 0 then 0 else if 100 < raw then 100 else raw
    else 0

end CodeAudit
