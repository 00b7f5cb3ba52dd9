import CodeAudit.Proofs.Duplicate.Draining
import CodeAudit.Proofs.Metrics.Decomposition
/-!
# Repeated analyses find the same

The blocks that an analysis finds do not depend on the order in which the tables of its searches are
drained, and neither do its issues: two analyses of the same files number the same findings
alike, with the same messages.
-/
namespace CodeAudit.MetricsAnalyzer

open Duplicate (SourceText Group Block DrainedAcross DrainedWithin Reproducible blocksOf distinctFiles
  groups)

/-- The text in which blocks are looked for. -/
def SourceFile.text (s : SourceFile) : SourceText :=
  ⟨s.path, s.source⟩

/-- The findings about the measures of a source. -/
def measuredFindings (grammar : Grammar) (c : MetricsConfig) (s : SourceFile) : List Issue :=
  (grammar s.language s.source).elim [] fun root =>
    Finding.ofMetrics c (FileMetrics.ofTree s.path s.language s.source root)

/-- The issues of some sources, if the searches within them and across them give certain blocks. -/
def issuesFrom (grammar : Grammar) (c : MetricsConfig) (sources : List SourceFile)
    (within : SourceFile → List Block) (across : List Block) : List Issue :=
  let own := sources.flatMap fun s => measuredFindings grammar c s
    ++ if c.detectDuplicates then (within s).flatMap Finding.ofBlockWithin else []
  let shared := if searchesAcross c sources then across.flatMap Finding.ofBlockAcross else []
  Issue.numbered issueLabel (own ++ shared)

/-- The findings about a source are those about its measures and those about its blocks. -/
lemma sourceFindings_eq (grammar : Grammar) (c : MetricsConfig) (s : SourceFile) :
    sourceFindings grammar c s = measuredFindings grammar c s
      ++ if c.detectDuplicates then
          (Duplicate.withinFile s.text c.duplicateWindow).flatMap Finding.ofBlockWithin
        else [] := by
  rw [sourceFindings, measuredFindings]
  cases grammar s.language s.source with
  | none => rfl
  | some root => rfl

/-- The issues of an analysis come from the blocks that are found in its sources. -/
lemma analyze_eq_issuesFrom {fs : FileSystem} {grammar : Grammar} {a : MetricsAnalyzer}
    {analyzer : String} {answers : CancelAnswers} {paths : List Path} {found : List Issue}
    (h : a.analyze fs grammar analyzer answers paths = .ok found) :
    found = issuesFrom grammar a.config (sourcesOf fs paths)
      (fun s => Duplicate.withinFile s.text a.config.duplicateWindow)
      (Duplicate.acrossFiles ((sourcesOf fs paths).map SourceFile.text)
        a.config.duplicateWindow) := by
  have hown : sourceFindings grammar a.config = fun s => measuredFindings grammar a.config s
      ++ if a.config.detectDuplicates then
          (Duplicate.withinFile s.text a.config.duplicateWindow).flatMap Finding.ofBlockWithin
        else [] := funext (sourceFindings_eq grammar a.config)
  rw [analyze_eq h, ← crossFindings_sourcesOf, hown]
  rfl

/-- In either pass the blocks are the same in whatever order the table of the groups is drained, and they
stand in the order of their first locations. So an analysis comes to the same issues, with the same
identifiers, whatever the orders are in which the tables of its searches are drained. -/
theorem analyze_reproducible :
    (∀ f size, Reproducible [f] [f] size (fun g => 2 ≤ g.starts.length)
      (Duplicate.withinFile f size)) ∧
    (∀ files size, Reproducible files (distinctFiles files) size (fun g => 2 ≤ g.fileCount)
      (Duplicate.acrossFiles files size)) ∧
    ∀ (fs : FileSystem) (grammar : Grammar) (a : MetricsAnalyzer) (analyzer : String)
      (answers : CancelAnswers) (paths : List Path) (found : List Issue),
      a.analyze fs grammar analyzer answers paths = .ok found →
      ∀ (within : SourceFile → List Group) (across : List Group),
        (∀ s ∈ sourcesOf fs paths,
          DrainedWithin s.text a.config.duplicateWindow (within s)) →
        DrainedAcross ((sourcesOf fs paths).map SourceFile.text) a.config.duplicateWindow across →
        found = issuesFrom grammar a.config (sourcesOf fs paths)
          (fun s => blocksOf [s.text] a.config.duplicateWindow (within s))
          (blocksOf (distinctFiles ((sourcesOf fs paths).map SourceFile.text))
            a.config.duplicateWindow across) := by
  refine ⟨Duplicate.reproducible_withinFile, Duplicate.reproducible_acrossFiles, ?_⟩
  intro fs grammar a analyzer answers paths found h within across hwithin hacross
  have hown : (sourcesOf fs paths).flatMap (fun s => measuredFindings grammar a.config s
        ++ if a.config.detectDuplicates then
            (Duplicate.withinFile s.text a.config.duplicateWindow).flatMap Finding.ofBlockWithin
          else [])
      = (sourcesOf fs paths).flatMap fun s => measuredFindings grammar a.config s
        ++ if a.config.detectDuplicates then
            (blocksOf [s.text] a.config.duplicateWindow (within s)).flatMap Finding.ofBlockWithin
          else [] := by
    apply List.flatMap_congr
    intro s hs
    rw [(Duplicate.reproducible_withinFile s.text _).drained _ (hwithin s hs)]
  rw [analyze_eq_issuesFrom h, issuesFrom, issuesFrom, hown,
    (Duplicate.reproducible_acrossFiles _ _).drained _ hacross]

/-- The periodic source has two groups of windows, which may be drained either way round. -/
theorem mixedListing_reproducible :
    let grammar : Grammar := fun _ source => some (.mk 0 true "program" none 0 source.utf8ByteSize [])
    let a : MetricsAnalyzer := .ofConfig { duplicateWindow := 2 }
    let answers : CancelAnswers := CancelToken.fresh.answers
    let sources := sourcesOf mixedFiles mixedListing
    let within : SourceFile → List Group := fun s =>
      ((groups [s.text] 2).filter fun g => 2 ≤ g.starts.length).reverse
    let files := distinctFiles (sources.map SourceFile.text)
    let across := ((groups files 2).filter fun g => 2 ≤ g.fileCount).reverse
    ∃ found, a.analyze mixedFiles grammar name answers mixedListing = .ok found ∧
      (∀ s ∈ sources, DrainedWithin s.text 2 (within s)) ∧
      DrainedAcross (sources.map SourceFile.text) 2 across ∧
      found = issuesFrom grammar a.config sources (fun s => blocksOf [s.text] 2 (within s))
        (blocksOf files 2 across) := by
  intro grammar a answers sources within files across
  have hcalm : ∀ k, answers k = false := fun _ => rfl
  have hanalyzed : analyzed mixedFiles mixedListing = [⟨"src/a.ts"⟩, ⟨"b.py"⟩] := by
    decide +kernel
  have hne : analyzed mixedFiles mixedListing ≠ [] := by
    rw [hanalyzed]
    exact List.cons_ne_nil _ _
  obtain ⟨found, hfound⟩ := exists_analyze_eq_ok grammar a name hcalm hne
  have hwithin : ∀ s ∈ sources, DrainedWithin s.text 2 (within s) := fun s _ => List.reverse_perm _
  have hacross : DrainedAcross (sources.map SourceFile.text) 2 across := List.reverse_perm _
  obtain ⟨-, -, hissues⟩ := analyze_reproducible
  exact ⟨found, hfound, hwithin, hacross,
    hissues mixedFiles grammar a name answers mixedListing found hfound within across hwithin hacross⟩

end CodeAudit.MetricsAnalyzer
