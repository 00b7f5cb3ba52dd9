import CodeAudit.Analyzer.Cancellation
import CodeAudit.FileSystem.Basic
import CodeAudit.Metrics.Complexity
import CodeAudit.Metrics.Finding
/-!
# The metrics analyzer

The analyzer that finds issues in the sources themselves. It reads every listed file of a known
language, measures each source, and searches for duplicated blocks within the files and across them.
What the grammar of a language makes of a source is a parameter.

The analysis asks at certain points whether it has been cancelled: before it looks at a listed path,
before it measures a source, and before it searches across files. The answers are a parameter too,
one for each time it asks.
-/
namespace CodeAudit

/-- The syntax tree of a source, if its grammar can be had. -/
abbrev Grammar := Language → String → Option Node

/-- The grammar that knows the trees of some sources, and of no others. -/
def Grammar.ofList (trees : List (Language × String × Node)) : Grammar :=
  fun language source => trees.findSome? fun (other, text, root) =>
    if other = language ∧ text = source then some root else none

/-- The answers to the questions whether an analysis has been cancelled, in the order it asks. -/
abbrev CancelAnswers := Nat → Bool

/-- The answers of a token that stays as it is. -/
def CancelToken.answers (t : CancelToken) : CancelAnswers :=
  fun _ => t.isCancelled

/-- The metrics analyzer: the configuration that it was given, and the thresholds in force. -/
structure MetricsAnalyzer where
  given : Json
  config : MetricsConfig

namespace MetricsAnalyzer

/-- The name the analyzer goes by. -/
def name : String := "metrics"

def version : String := "0.1.0"

/-- An analyzer with a configuration that is still to be read. -/
def ofJson (given : Json) : MetricsAnalyzer :=
  ⟨given, {}⟩

/-- An analyzer with the given thresholds. -/
def ofConfig (config : MetricsConfig) : MetricsAnalyzer :=
  ⟨config.toJson, config⟩

/-- The thresholds of a configuration value that are in order. -/
def thresholds (given : Json) : Except Fault MetricsConfig := do
  let config ← MetricsConfig.ofJson given
  match config.problem? with
  | some problem => throw (.configuration problem.message)
  | none => return config

/-- Reads the configuration; if it is bad the thresholds stay as they are. -/
def prepare (a : MetricsAnalyzer) : Except Fault Unit × MetricsAnalyzer :=
  match thresholds a.given with
  | .ok config => (.ok (), { a with config })
  | .error fault => (.error fault, a)

/-- A source that has been read. -/
structure SourceFile where
  path : Path
  language : Language
  source : String
deriving Repr, Inhabited

/-- What has been read so far. -/
structure Gathered where
  sources : List SourceFile := []
  /-- The paths that have been looked at. -/
  seen : List Path := []
  /-- The first path that could not be read, and why. -/
  failure : Option (Path × ReadError) := none

/-- Goes on only if the analysis has not been cancelled. -/
def proceed (analyzer : String) (cancelled : Bool) : Except Fault Unit :=
  if cancelled then .error (cancelledFault analyzer) else .ok ()

/-- Looks at one more path: one of a known language, and not the same as an earlier one, is read. -/
def Gathered.add (fs : FileSystem) (g : Gathered) (path : Path) : Gathered :=
  if g.seen.any path.same then g
  else
    let g := { g with seen := g.seen ++ [path] }
    match Language.ofPath? path with
    | none => g
    | some language =>
      match fs.read path with
      | .ok source => { g with sources := g.sources ++ [⟨path, language, source⟩] }
      | .error e => { g with failure := g.failure <|> some (path, e) }

/-- Reads the listed files. -/
def gather (fs : FileSystem) (analyzer : String) (answers : CancelAnswers) (paths : List Path) :
    Except Fault Gathered :=
  paths.zipIdx.foldlM (fun g (path, index) => do
    proceed analyzer (answers index)
    return g.add fs path) {}

/-- The sources; if there are none because the files could not be read, the first failure. -/
def Gathered.result (g : Gathered) : Except Fault (List SourceFile) :=
  match g.sources, g.failure with
  | [], some (path, e) => .error (.io path e.message)
  | sources, _ => .ok sources

/-- The findings about one source, without the search across files. -/
def sourceFindings (grammar : Grammar) (c : MetricsConfig) (s : SourceFile) : List Issue :=
  let measured :=
    match grammar s.language s.source with
    | some root => Finding.ofMetrics c (FileMetrics.ofTree s.path s.language s.source root)
    | none => []
  let repeated :=
    if c.detectDuplicates then
      (Duplicate.withinFile ⟨s.path, s.source⟩ c.duplicateWindow).flatMap Finding.ofBlockWithin
    else []
  measured ++ repeated

/-- Whether there is a search across files. -/
def searchesAcross (c : MetricsConfig) (sources : List SourceFile) : Bool :=
  c.detectDuplicates && 1 < sources.length

/-- The findings about blocks in several files. -/
def crossFindings (c : MetricsConfig) (sources : List SourceFile) : List Issue :=
  if searchesAcross c sources then
    (Duplicate.acrossFiles (sources.map fun s => ⟨s.path, s.source⟩) c.duplicateWindow).flatMap
      Finding.ofBlockAcross
  else []

/-- The findings about all sources. -/
def findings (grammar : Grammar) (c : MetricsConfig) (analyzer : String) (answers : CancelAnswers)
    (sources : List SourceFile) : Except Fault (List Issue) := do
  let found ← sources.zipIdx.foldlM (fun found (source, index) => do
    proceed analyzer (answers index)
    return found ++ sourceFindings grammar c source) []
  if searchesAcross c sources then
    proceed analyzer (answers sources.length)
  return found ++ crossFindings c sources

/-- The identifier of the issue with the given number. -/
def issueLabel (n : Nat) : String :=
  name ++ "-" ++ String.ofList (Decimal.padLeft 4 (Nat.toDigits 10 n))

/-- The issues of the listed files, for an analysis that goes by the name `analyzer`. -/
def analyze (fs : FileSystem) (grammar : Grammar) (a : MetricsAnalyzer) (analyzer : String)
    (answers : CancelAnswers) (paths : List Path) : Except Fault (List Issue) := do
  let gathered ← gather fs analyzer answers paths
  let sources ← gathered.result
  let found ← findings grammar a.config analyzer (fun k => answers (paths.length + k)) sources
  return Issue.numbered issueLabel found

end MetricsAnalyzer

end CodeAudit
