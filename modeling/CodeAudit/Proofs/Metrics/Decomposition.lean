import CodeAudit.Proofs.Metrics.Findings
/-!
# An analysis file by file

What the metrics analyzer finds in some files is what it finds in each of them by itself, file after
file, and then the blocks that are duplicated across the files. The identifiers of the issues are all
that one file has from another.
-/
namespace CodeAudit

/-- The issue without its identifier. -/
def Issue.unnumbered (i : Issue) : Issue :=
  { i with id := "" }

/-- Numbers are all that numbering adds to issues. -/
lemma Issue.map_unnumbered_numbered (label : Nat → String) (issues : List Issue) :
    (numbered label issues).map unnumbered = issues.map unnumbered := by
  have hfst : (numbered label issues).map unnumbered
      = (issues.zipIdx.map Prod.fst).map unnumbered := by
    rw [numbered, List.map_map, List.map_map]
    rfl
  rw [hfst, List.zipIdx_map_fst]

/-- Of lists that belong to different items only one is left if the others are dropped. -/
lemma flatMap_ite_eq_of_nodup {α β : Type} [DecidableEq α] {items : List α} (h : items.Nodup) {a : α}
    (ha : a ∈ items) (f : α → List β) : (items.flatMap fun b => if b = a then f b else []) = f a := by
  have hnone {rest : List α} (hrest : a ∉ rest) :
      (rest.flatMap fun b => if b = a then f b else []) = [] := by
    rw [List.flatMap_eq_nil_iff]
    intro b hb
    apply if_neg
    rintro rfl
    exact hrest hb
  induction items with
  | nil => exact absurd ha List.not_mem_nil
  | cons b rest ih =>
    obtain ⟨hb, hrest⟩ := List.nodup_cons.1 h
    rw [List.flatMap_cons]
    cases List.mem_cons.1 ha with
    | inl heq =>
      subst heq
      rw [if_pos rfl, hnone hb, List.append_nil]
    | inr hmem =>
      have hne : b ≠ a := by
        rintro rfl
        exact hb hmem
      rw [if_neg hne, List.nil_append]
      exact ih hrest hmem

namespace Finding

/-- The rule of the blocks that are duplicated across files. -/
def acrossRule : String := "duplication/cross-file"

variable {c : MetricsConfig} {m : FileMetrics} {rule message : String} {i : Issue}

/-- An issue that is made on a condition has its rule. -/
lemma ruleId_of_mem_when {condition : Bool} {issue : Issue} (h : i ∈ when condition issue) :
    i.ruleId = issue.ruleId := by
  rw [when] at h
  split at h
  · rw [List.mem_singleton.1 h]
  · exact absurd h List.not_mem_nil

/-- An issue about a block has the rule of its kind. -/
lemma ruleId_of_mem_ofBlock {b : Duplicate.Block} (h : i ∈ ofBlock rule message b) :
    i.ruleId = rule := by
  rw [ofBlock] at h
  split at h
  · exact absurd h List.not_mem_nil
  · rw [List.mem_singleton.1 h]
    rfl

/-- What is measured of a file concerns that file alone. -/
lemma ruleId_ne_of_mem_ofMetrics (h : i ∈ ofMetrics c m) : i.ruleId ≠ acrossRule := by
  simp only [ofMetrics, List.mem_append, List.mem_flatMap] at h
  obtain (((h | h) | h) | h) | ⟨f, -, h⟩ := h
  all_goals
    rw [ruleId_of_mem_when h]
    simp [ofFile, ofLines, Issue.suggest, acrossRule]

end Finding

namespace MetricsAnalyzer

open Finding (acrossRule)

/-- The files that are analyzed: of paths that are the same the first one counts, and it is analyzed if
it is of a known language and can be read. -/
def analyzed (fs : FileSystem) (paths : List Path) : List Path :=
  (Path.distinct paths).filter fun p => (Language.ofPath? p).isSome && (fs.read p).isOk

/-- The texts of some files. -/
def textsOf (fs : FileSystem) (paths : List Path) : List Duplicate.SourceText :=
  paths.filterMap fun p => (fs.read p).toOption.map fun source => ⟨p, source⟩

/-- The issues about blocks that are duplicated across some files. -/
def acrossIssues (fs : FileSystem) (c : MetricsConfig) (files : List Path) : List Issue :=
  if c.detectDuplicates = true ∧ 2 ≤ files.length then
    (Duplicate.acrossFiles (textsOf fs files) c.duplicateWindow).flatMap Finding.ofBlockAcross
  else []

/-- The issues that concern a file alone, without their identifiers. -/
def ownIssues (file : Path) (issues : List Issue) : List Issue :=
  (issues.map Issue.unnumbered).filter fun i => i.location.file = file ∧ i.ruleId ≠ acrossRule

/-- The source at a path that is of a known language and can be read. -/
def source? (fs : FileSystem) (path : Path) : Option SourceFile :=
  match Language.ofPath? path, fs.read path with
  | some language, .ok source => some ⟨path, language, source⟩
  | _, _ => none

/-- The sources of an analysis. -/
def sourcesOf (fs : FileSystem) (paths : List Path) : List SourceFile :=
  (Path.distinct paths).filterMap (source? fs)

/-- What is found in a source by itself concerns its file alone. -/
lemma ruleId_ne_of_mem_sourceFindings {grammar : Grammar} {c : MetricsConfig} {s : SourceFile}
    {i : Issue} (h : i ∈ sourceFindings grammar c s) : i.ruleId ≠ acrossRule := by
  rw [sourceFindings, List.mem_append] at h
  cases h with
  | inl hmeasured =>
    split at hmeasured
    · exact Finding.ruleId_ne_of_mem_ofMetrics hmeasured
    · exact absurd hmeasured List.not_mem_nil
  | inr hrepeated =>
    split at hrepeated
    · obtain ⟨b, -, hi⟩ := List.mem_flatMap.1 hrepeated
      rw [Finding.ruleId_of_mem_ofBlock hi]
      decide +kernel
    · exact absurd hrepeated List.not_mem_nil

section Sources

variable {fs : FileSystem} {paths : List Path} {path : Path} {s : SourceFile}

/-- A source has the path that it was asked for. -/
lemma path_of_source? (h : source? fs path = some s) : s.path = path := by
  rw [source?] at h
  split at h
  · cases h
    rfl
  · cases h

/-- A source has the text of its file. -/
lemma read_of_source? (h : source? fs path = some s) : fs.read path = .ok s.source := by
  rw [source?] at h
  split at h
  · next hread =>
    cases h
    exact hread
  · cases h

/-- The sources of one path. -/
lemma filterMap_source?_singleton (fs : FileSystem) (path : Path) :
    [path].filterMap (source? fs) = (source? fs path).toList := by
  cases hsource : source? fs path with
  | none => rw [List.filterMap_cons_none hsource]; rfl
  | some s => rw [List.filterMap_cons_some hsource]; rfl

/-- The sources of an analysis have the paths that are analyzed. -/
lemma map_path_sourcesOf (fs : FileSystem) (paths : List Path) :
    (sourcesOf fs paths).map SourceFile.path = analyzed fs paths := by
  rw [sourcesOf, analyzed]
  induction Path.distinct paths with
  | nil => rfl
  | cons p rest ih =>
    rw [List.filterMap_cons, List.filter_cons, source?]
    cases Language.ofPath? p with
    | none => exact ih
    | some language =>
      cases fs.read p with
      | error e => exact ih
      | ok source => exact congrArg (p :: ·) ih

/-- A path is looked at unless one that is the same has been. -/
lemma seen_add (fs : FileSystem) (g : Gathered) (p : Path) :
    (g.add fs p).seen = Path.keepNew id g.seen p := by
  rw [Gathered.add, Path.keepNew]
  show Gathered.seen (if g.seen.any p.same then _ else _) = if g.seen.any p.same then _ else _
  split
  · rfl
  · dsimp only
    split
    · rfl
    · split
      · rfl
      · rfl

/-- A path adds its source unless the same path was there before. -/
lemma sources_add (fs : FileSystem) (g : Gathered) (p : Path) :
    (g.add fs p).sources
      = if g.seen.any p.same then g.sources else g.sources ++ (source? fs p).toList := by
  rw [Gathered.add, source?]
  split
  · rfl
  · dsimp only
    cases Language.ofPath? p with
    | none => exact (List.append_nil _).symm
    | some language =>
      cases fs.read p with
      | error e => exact (List.append_nil _).symm
      | ok source => rfl

/-- The loop over the listed paths reads the sources of the analysis. -/
lemma foldl_add_eq (fs : FileSystem) (paths : List Path) :
    (paths.foldl (Gathered.add fs) {}).seen = Path.distinct paths ∧
      (paths.foldl (Gathered.add fs) {}).sources = sourcesOf fs paths := by
  induction paths using List.reverseRecOn with
  | nil => exact ⟨rfl, rfl⟩
  | append_singleton front p ih =>
    obtain ⟨hseen, hsources⟩ := ih
    have hfirsts : Path.distinct (front ++ [p]) = Path.keepNew id (Path.distinct front) p :=
      Path.firsts_concat id front p
    rw [List.foldl_append, List.foldl_cons, List.foldl_nil, seen_add, sources_add, hseen, hsources,
      sourcesOf, sourcesOf, hfirsts]
    refine ⟨rfl, ?_⟩
    rw [Path.keepNew]
    show _ = (if (Path.distinct front).any p.same then _ else _ : List Path).filterMap _
    split
    · rfl
    · rw [List.filterMap_append, filterMap_source?_singleton]

/-- The sources of an analysis are those of the different paths. -/
lemma mem_sourcesOf_iff :
    s ∈ sourcesOf fs paths ↔ s.path ∈ Path.distinct paths ∧ source? fs s.path = some s := by
  rw [sourcesOf, List.mem_filterMap]
  constructor
  · rintro ⟨p, hp, hsource⟩
    obtain rfl := path_of_source? hsource
    exact ⟨hp, hsource⟩
  · rintro ⟨hp, hsource⟩
    exact ⟨s.path, hp, hsource⟩

/-- The texts that are analyzed are those of the sources. -/
lemma textsOf_analyzed (fs : FileSystem) (paths : List Path) :
    textsOf fs (analyzed fs paths) = (sourcesOf fs paths).map fun s => ⟨s.path, s.source⟩ := by
  rw [← map_path_sourcesOf, textsOf, List.filterMap_map, ← List.filterMap_eq_map]
  apply List.filterMap_congr
  intro s hs
  have hread : fs.read s.path = .ok s.source := read_of_source? (mem_sourcesOf_iff.1 hs).2
  rw [Function.comp_apply, hread]
  rfl

/-- A path is analyzed if it is one of the different ones and has a source. -/
lemma mem_analyzed_iff :
    path ∈ analyzed fs paths ↔ path ∈ Path.distinct paths ∧ ∃ s, source? fs path = some s := by
  rw [← map_path_sourcesOf, List.mem_map]
  constructor
  · rintro ⟨s, hs, rfl⟩
    obtain ⟨hp, hsource⟩ := mem_sourcesOf_iff.1 hs
    exact ⟨hp, s, hsource⟩
  · rintro ⟨hp, s, hsource⟩
    obtain rfl := path_of_source? hsource
    exact ⟨s, mem_sourcesOf_iff.2 ⟨hp, hsource⟩, rfl⟩

/-- No path is analyzed twice. -/
lemma analyzed_nodup (fs : FileSystem) (paths : List Path) : (analyzed fs paths).Nodup := by
  have hpairs : (Path.distinct paths).Nodup :=
    (Path.firsts_pairwise id paths).imp Path.ne_of_same_eq_false
  exact hpairs.filter _

end Sources

section Analysis

variable {fs : FileSystem} {grammar : Grammar} {a : MetricsAnalyzer} {analyzer : String}
  {answers : CancelAnswers} {paths : List Path} {found : List Issue}

/-- The findings across the sources are those across the files that are analyzed. -/
lemma crossFindings_sourcesOf (fs : FileSystem) (c : MetricsConfig) (paths : List Path) :
    crossFindings c (sourcesOf fs paths) = acrossIssues fs c (analyzed fs paths) := by
  rw [crossFindings, acrossIssues, searchesAcross, textsOf_analyzed, ← map_path_sourcesOf,
    List.length_map]
  simp only [Bool.and_eq_true, decide_eq_true_eq]
  rfl

/-- What an analysis comes to that is not cancelled. -/
lemma analyze_eq (h : a.analyze fs grammar analyzer answers paths = .ok found) :
    found = Issue.numbered issueLabel
      ((sourcesOf fs paths).flatMap (sourceFindings grammar a.config)
        ++ acrossIssues fs a.config (analyzed fs paths)) := by
  obtain ⟨g, hg, h⟩ := exists_of_bind_eq_ok h
  obtain ⟨sources, hsources, h⟩ := exists_of_bind_eq_ok h
  obtain ⟨raw, hraw, h⟩ := exists_of_bind_eq_ok h
  rw [← Except.ok.inj h, findings_eq hraw, sources_of_result hsources, gather_eq hg,
    (foldl_add_eq fs paths).2, crossFindings_sourcesOf]

/-- If no question is answered yes, all files are gathered. -/
lemma gather_of_calm (hcalm : ∀ k, answers k = false) :
    gather fs analyzer answers paths = .ok (paths.foldl (Gathered.add fs) {}) := by
  apply foldlM_zipIdx_eq_ok
  intro g path index
  dsimp only
  rw [hcalm]
  rfl

/-- If no question is answered yes, there are findings. -/
lemma exists_findings_eq_ok (grammar : Grammar) (analyzer : String) (hcalm : ∀ k, answers k = false)
    (c : MetricsConfig) (sources : List SourceFile) :
    ∃ raw, findings grammar c analyzer answers sources = .ok raw := by
  rw [findings,
    foldlM_zipIdx_eq_ok (g := fun found source => found ++ sourceFindings grammar c source)]
  · show ∃ raw, (if searchesAcross c sources = true then _ else _ : Except Fault _) = .ok raw
    split
    · rw [hcalm]
      exact ⟨_, rfl⟩
    · exact ⟨_, rfl⟩
  · intro found source index
    dsimp only
    rw [hcalm]
    rfl

/-- An analysis that is not cancelled comes to an end if a file can be analyzed. -/
lemma exists_analyze_eq_ok (grammar : Grammar) (a : MetricsAnalyzer) (analyzer : String)
    (hcalm : ∀ k, answers k = false) (hne : analyzed fs paths ≠ []) :
    ∃ found, a.analyze fs grammar analyzer answers paths = .ok found := by
  have hlater : ∀ k, answers (paths.length + k) = false := fun k => hcalm _
  obtain ⟨raw, hraw⟩ := exists_findings_eq_ok grammar analyzer hlater a.config (sourcesOf fs paths)
  have hresult : (paths.foldl (Gathered.add fs) {}).result = .ok (sourcesOf fs paths) := by
    rw [← map_path_sourcesOf, ne_eq, List.map_eq_nil_iff] at hne
    rw [Gathered.result, (foldl_add_eq fs paths).2]
    split
    · next hnil _ => exact absurd hnil hne
    · rfl
  rw [analyze, gather_of_calm hcalm]
  show ∃ found, (Gathered.result _ >>= _ : Except Fault _) = .ok found
  rw [hresult]
  show ∃ found, (findings grammar a.config analyzer _ _ >>= _ : Except Fault _) = .ok found
  rw [hraw]
  exact ⟨_, rfl⟩

/-- What is found in a file by itself. -/
def ownFindings (fs : FileSystem) (grammar : Grammar) (c : MetricsConfig) (file : Path) :
    List Issue :=
  (source? fs file).toList.flatMap (sourceFindings grammar c)

/-- What is found in some files is what is found in each of them, and what is found across them. -/
lemma map_unnumbered_analyze (h : a.analyze fs grammar analyzer answers paths = .ok found) :
    found.map Issue.unnumbered
      = (analyzed fs paths).flatMap
          (fun file => (ownFindings fs grammar a.config file).map Issue.unnumbered)
        ++ (acrossIssues fs a.config (analyzed fs paths)).map Issue.unnumbered := by
  rw [analyze_eq h, Issue.map_unnumbered_numbered, List.map_append, List.map_flatMap]
  congr 1
  rw [← map_path_sourcesOf, List.flatMap_map]
  apply List.flatMap_congr
  intro s hs
  rw [ownFindings, (mem_sourcesOf_iff.1 hs).2]
  show _ = ((sourceFindings grammar a.config s) ++ []).map Issue.unnumbered
  rw [List.append_nil]

/-- No issue across files concerns a file alone. -/
lemma ownIssues_acrossIssues (c : MetricsConfig) (files : List Path) (file : Path) :
    ((acrossIssues fs c files).map Issue.unnumbered).filter
      (fun i => i.location.file = file ∧ i.ruleId ≠ acrossRule) = [] := by
  rw [List.filter_eq_nil_iff]
  intro i hi
  obtain ⟨j, hj, rfl⟩ := List.mem_map.1 hi
  have hrule : j.ruleId = acrossRule := by
    rw [acrossIssues] at hj
    split at hj
    · obtain ⟨b, -, hj⟩ := List.mem_flatMap.1 hj
      exact Finding.ruleId_of_mem_ofBlock hj
    · exact absurd hj List.not_mem_nil
  rw [decide_eq_true_iff, not_and_not_right]
  exact fun _ => hrule

/-- What is found in a file by itself is its own, and no other file's. -/
lemma ownIssues_ownFindings (c : MetricsConfig) (file other : Path) :
    ((ownFindings fs grammar c other).map Issue.unnumbered).filter
        (fun i => i.location.file = file ∧ i.ruleId ≠ acrossRule)
      = if other = file then (ownFindings fs grammar c other).map Issue.unnumbered else [] := by
  have hown : ∀ i ∈ (ownFindings fs grammar c other).map Issue.unnumbered,
      i.location.file = other ∧ i.ruleId ≠ acrossRule := by
    intro i hi
    obtain ⟨j, hj, rfl⟩ := List.mem_map.1 hi
    obtain ⟨s, hs, hj⟩ := List.mem_flatMap.1 hj
    have hpath : s.path = other := path_of_source? (Option.mem_toList.1 hs)
    have habout : Finding.About s.path j := about_of_mem_sourceFindings hj
    have hrule : j.ruleId ≠ acrossRule := ruleId_ne_of_mem_sourceFindings hj
    exact ⟨habout.file.trans hpath, hrule⟩
  split
  · next heq =>
    rw [List.filter_eq_self]
    intro i hi
    rw [decide_eq_true_iff, ← heq]
    exact hown i hi
  · next hne =>
    rw [List.filter_eq_nil_iff]
    intro i hi hmem
    rw [decide_eq_true_iff] at hmem
    exact hne ((hown i hi).1.symm.trans hmem.1)

/-- The issues of an analysis that are a file's own are those that are found in it by itself. -/
lemma ownIssues_analyze (h : a.analyze fs grammar analyzer answers paths = .ok found) {file : Path}
    (hfile : file ∈ analyzed fs paths) :
    ownIssues file found = (ownFindings fs grammar a.config file).map Issue.unnumbered := by
  rw [ownIssues, map_unnumbered_analyze h, List.filter_append, List.filter_flatMap,
    ownIssues_acrossIssues, List.append_nil]
  simp only [ownIssues_ownFindings]
  exact flatMap_ite_eq_of_nodup (analyzed_nodup fs paths) hfile _

/-- The analysis of a single file finds what is found in it by itself. -/
lemma analyze_singleton (hcalm : ∀ k, answers k = false) {file : Path}
    (hfile : file ∈ analyzed fs paths) :
    a.analyze fs grammar analyzer answers [file]
      = .ok (Issue.numbered issueLabel (ownFindings fs grammar a.config file)) := by
  obtain ⟨-, s, hsource⟩ := mem_analyzed_iff.1 hfile
  have hsources : sourcesOf fs [file] = (source? fs file).toList :=
    filterMap_source?_singleton fs file
  have hsingle : analyzed fs [file] = [file] := by
    rw [← map_path_sourcesOf, hsources, hsource]
    exact congrArg ([·]) (path_of_source? hsource)
  have hne : analyzed fs [file] ≠ [] := by
    rw [hsingle]
    exact List.cons_ne_nil _ _
  obtain ⟨found, hfound⟩ := exists_analyze_eq_ok grammar a analyzer hcalm hne
  have hacross : acrossIssues fs a.config [file] = [] := if_neg fun h => by simpa using h.2
  rw [hfound, analyze_eq hfound, hsingle, hacross, List.append_nil, hsources]
  rfl

end Analysis

/-- The issues of an analysis, identifiers apart: those of each file that is analyzed, as the analysis
of this file alone would find them, and those about blocks across the files. Whatever else is listed,
the issues that concern one file alone stay the same. -/
structure MadeOf (fs : FileSystem) (grammar : Grammar) (a : MetricsAnalyzer) (analyzer : String)
    (answers : CancelAnswers) (paths : List Path) (found : List Issue) (own : Path → List Issue) :
    Prop where
  single : ∀ file ∈ analyzed fs paths,
    a.analyze fs grammar analyzer answers [file] = .ok (own file)
  parts : found.map Issue.unnumbered
    = (analyzed fs paths).flatMap (fun file => (own file).map Issue.unnumbered)
      ++ (acrossIssues fs a.config (analyzed fs paths)).map Issue.unnumbered
  owned : ∀ file ∈ analyzed fs paths,
    ownIssues file found = (own file).map Issue.unnumbered
  kept : ∀ file ∈ analyzed fs paths, ∀ others, file ∈ Path.distinct others →
    ∃ found', a.analyze fs grammar analyzer answers others = .ok found' ∧
      ownIssues file found' = ownIssues file found

/-- An analysis that is not cancelled and comes to an end is made of the analyses of its files. -/
theorem analyze_madeOf (fs : FileSystem) (grammar : Grammar) (a : MetricsAnalyzer)
    (analyzer : String) (answers : CancelAnswers) (hcalm : ∀ k, answers k = false)
    (paths : List Path) (found : List Issue)
    (h : a.analyze fs grammar analyzer answers paths = .ok found) :
    ∃ own, MadeOf fs grammar a analyzer answers paths found own := by
  refine ⟨fun file => Issue.numbered issueLabel (ownFindings fs grammar a.config file), ?_⟩
  constructor
  case single =>
    intro file hfile
    exact analyze_singleton hcalm hfile
  case parts =>
    simp only [Issue.map_unnumbered_numbered]
    exact map_unnumbered_analyze h
  case owned =>
    intro file hfile
    rw [Issue.map_unnumbered_numbered]
    exact ownIssues_analyze h hfile
  case kept =>
    intro file hfile others hothers
    have hother : file ∈ analyzed fs others :=
      mem_analyzed_iff.2 ⟨hothers, (mem_analyzed_iff.1 hfile).2⟩
    obtain ⟨found', hfound'⟩ := exists_analyze_eq_ok grammar a analyzer hcalm
      (List.ne_nil_of_mem hother)
    refine ⟨found', hfound', ?_⟩
    rw [ownIssues_analyze hfound' hother, ownIssues_analyze h hfile]

/-- Two sources with a common block, one of them under two spellings, and a text of no known language. -/
def mixedFiles : FileSystem :=
  .ofList [(⟨"src/a.ts"⟩, ⟨.ok "x\ny\nx\ny\n", 8⟩), (⟨"src//a.ts"⟩, ⟨.ok "x\ny\nx\ny\n", 8⟩),
    (⟨"notes.md"⟩, ⟨.ok "x\ny\n", 4⟩), (⟨"b.py"⟩, ⟨.ok "x\ny\n", 4⟩)]

/-- A list with the other spelling of a file, a file of no known language and one that is missing. -/
def mixedListing : List Path :=
  [⟨"gone.ts"⟩, ⟨"src/a.ts"⟩, ⟨"notes.md"⟩, ⟨"src//a.ts"⟩, ⟨"b.py"⟩]

/-- Two of the five files are analyzed, and the issues are made of theirs. -/
theorem mixedListing_madeOf :
    let grammar : Grammar := fun _ source => some (.mk 0 true "program" none 0 source.utf8ByteSize [])
    let a : MetricsAnalyzer := .ofConfig { duplicateWindow := 2 }
    let answers : CancelAnswers := CancelToken.fresh.answers
    (∀ k, answers k = false) ∧
      analyzed mixedFiles mixedListing = [⟨"src/a.ts"⟩, ⟨"b.py"⟩] ∧
      ∃ found, a.analyze mixedFiles grammar name answers mixedListing = .ok found ∧
        ∃ own, MadeOf mixedFiles grammar a name answers mixedListing found own := by
  intro grammar a answers
  have hcalm : ∀ k, answers k = false := fun _ => rfl
  have hanalyzed : analyzed mixedFiles mixedListing = [⟨"src/a.ts"⟩, ⟨"b.py"⟩] := by
    decide +kernel
  have hne : analyzed mixedFiles mixedListing ≠ [] := by
    rw [hanalyzed]
    exact List.cons_ne_nil _ _
  obtain ⟨found, hfound⟩ := exists_analyze_eq_ok grammar a name hcalm hne
  refine ⟨hcalm, hanalyzed, found, hfound, ?_⟩
  exact analyze_madeOf mixedFiles grammar a name answers hcalm mixedListing found hfound

end MetricsAnalyzer

end CodeAudit
