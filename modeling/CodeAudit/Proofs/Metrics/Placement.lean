import CodeAudit.Proofs.Metrics.Decomposition
import CodeAudit.Proofs.Metrics.Preorder
/-!
# Where findings point

Every issue of the metrics analyzer points into a file that it has read, in the spelling that the list
has first. A finding about the file as a whole stands on its first line, one about a function on the
lines of a node of its tree, and one about a block on the lines of the block's first place; so the
lines of an issue are lines of its file, and its range starts where the issue stands.
-/
namespace CodeAudit

/-- No node of a tree ends before it starts. -/
def Node.Forward (root : Node) : Prop :=
  ∀ n ∈ root.preorder, n.start ≤ n.stop

section Lines

variable {source : List UInt8} {first last offset : Nat}

/-- Lines are counted from one. -/
lemma lineOf_pos (source : List UInt8) (offset : Nat) : 1 ≤ lineOf source offset :=
  Nat.succ_pos _

/-- Lines are counted on from the first byte. -/
lemma lineOf_mono (h : first ≤ last) : lineOf source first ≤ lineOf source last :=
  Nat.succ_le_succ ((List.take_sublist_take_left h).count_le 10)

/-- No line comes after the last one. -/
lemma lineOf_le (source : List UInt8) (offset : Nat) : lineOf source offset ≤ 1 + source.count 10 := by
  rw [lineOf, Nat.add_comm 1]
  exact Nat.succ_le_succ ((List.take_sublist _ _).count_le 10)

end Lines

/-- The lines of a function are those of a node of the tree. -/
lemma FileMetrics.exists_node_of_mem_functions {path : Path} {language : Language} {source : String}
    {root : Node} {f : FunctionMetrics} (h : f ∈ (ofTree path language source root).functions) :
    ∃ n ∈ root.preorder, f.startLine = lineOf source.toUTF8.toList n.start ∧
      f.endLine = lineOf source.toUTF8.toList n.stop := by
  let r : Reading := ⟨language.profile, source.toUTF8.toList⟩
  have hlists : Tally.Lists r root.lineages root.lineages (Tally.ofTree r root) :=
    Tally.lists_ofTree language.separate_profile root
  have hheader : f.header ∈ (Tally.ofTree r root).functions.toList.map FunctionMetrics.header :=
    List.mem_map_of_mem h
  rw [hlists.functions] at hheader
  obtain ⟨l, hl, heq⟩ := List.mem_map.1 hheader
  have hnode : l.node ∈ root.preorder := by
    rw [← Node.map_node_lineagesBelow [] root]
    exact List.mem_map_of_mem (List.mem_of_mem_filter hl)
  exact ⟨l.node, hnode, (congrArg FunctionMetrics.startLine heq).symm,
    (congrArg FunctionMetrics.endLine heq).symm⟩

/-- The places of a detected block are stretches of lines of the files. -/
lemma Duplicate.exists_lines_of_mem_detect {files : List SourceText} {size : Nat}
    {keep : Group → Bool} {b : Block} (hb : b ∈ detect files size keep) {l : Location}
    (hl : l ∈ b.locations) :
    ∃ f ∈ files, l.file = f.path ∧ 1 ≤ l.startLine ∧ l.startLine ≤ l.endLine ∧
      l.endLine ≤ f.lines.length := by
  obtain rfl | hsize := Nat.eq_zero_or_pos size
  · exact absurd hb List.not_mem_nil
  rw [detect_eq_map_runsOf hsize] at hb
  obtain ⟨r, hr, rfl⟩ := List.mem_map.1 hb
  rw [Run.locations_toBlock] at hl
  obtain ⟨o, ho, rfl⟩ := List.mem_map.1 hl
  obtain ⟨f, hf⟩ := getElem?_file_of_mem_starts hr ho
  have hfits : o.start + r.extension + size ≤ f.lines.length :=
    (hasWindow_of_mem_run hr ho hf (le_refl _)).fits
  refine ⟨f, List.mem_of_getElem? hf, file_locationAt hf, Nat.succ_pos _, ?_, ?_⟩
  · show o.start + 1 ≤ o.start + size + r.extension
    omega
  · show o.start + size + r.extension ≤ f.lines.length
    omega

namespace Finding

variable {c : MetricsConfig} {m : FileMetrics} {rule message : String} {i : Issue}

/-- An issue that is made on a condition is the one that was to be made. -/
lemma eq_of_mem_when {condition : Bool} {issue : Issue} (h : i ∈ when condition issue) : i = issue := by
  rw [when] at h
  split at h
  · exact List.mem_singleton.1 h
  · exact absurd h List.not_mem_nil

/-- A finding about measures stands on the first line of the file or on the lines of a function. -/
lemma place_of_mem_ofMetrics (h : i ∈ ofMetrics c m) :
    (i.location = ⟨m.path, 1, 1⟩ ∧ i.range = none) ∨
      ∃ f ∈ m.functions, i.location = ⟨m.path, f.startLine, 1⟩ ∧
        i.range = some ⟨⟨f.startLine, 1⟩, ⟨f.endLine, 1⟩⟩ := by
  simp only [ofMetrics, List.mem_append, List.mem_flatMap] at h
  obtain (((h | h) | h) | h) | ⟨f, hf, h⟩ := h
  case inr =>
    right
    rw [eq_of_mem_when h]
    exact ⟨f, hf, rfl, rfl⟩
  all_goals
    left
    rw [eq_of_mem_when h]
    exact ⟨rfl, rfl⟩

/-- There is a finding about every function that is too complex. -/
lemma exists_mem_ofMetrics {f : FunctionMetrics} (hf : f ∈ m.functions)
    (h : c.cyclomatic < f.cyclomatic) :
    ∃ i ∈ ofMetrics c m, i.ruleId = "complexity/function" ∧
      i.location = ⟨m.path, f.startLine, 1⟩ ∧
      i.range = some ⟨⟨f.startLine, 1⟩, ⟨f.endLine, 1⟩⟩ := by
  have hfunction : function c m f
      = [ofLines "complexity/function" _ m.path f.startLine f.endLine] :=
    if_pos (decide_eq_true h)
  have hmem : _ ∈ function c m f := hfunction ▸ List.mem_singleton_self _
  exact ⟨_, List.mem_append_right _ (List.mem_flatMap.2 ⟨f, hf, hmem⟩), rfl, rfl, rfl⟩

/-- A finding about a block stands on the lines of one of its places. -/
lemma place_of_mem_ofBlock {b : Duplicate.Block} (h : i ∈ ofBlock rule message b) :
    ∃ l ∈ b.locations, i.location = ⟨l.file, l.startLine, 1⟩ ∧
      i.range = some ⟨⟨l.startLine, 1⟩, ⟨l.endLine, 1⟩⟩ := by
  rw [ofBlock] at h
  split at h
  · exact absurd h List.not_mem_nil
  · next first rest hlocations =>
    rw [List.mem_singleton.1 h, hlocations]
    exact ⟨first, List.mem_cons_self, rfl, rfl⟩

end Finding

namespace MetricsAnalyzer

variable {fs : FileSystem} {grammar : Grammar} {c : MetricsConfig} {sources : List SourceFile}
  {paths : List Path} {i : Issue}

/-- An issue stands on lines of a source, the last of which ends with it. -/
structure SourceFile.HasPlace (s : SourceFile) (i : Issue) : Prop where
  file : i.location.file = s.path
  line : 1 ≤ i.location.line
  range : ∀ r, i.range = some r → r.start.line = i.location.line ∧ i.location.line ≤ r.stop.line ∧
    r.stop.line ≤ 1 + s.source.toUTF8.toList.count 10

/-- Lines in order and within the source are a place in it. -/
lemma SourceFile.hasPlace_of_lines {s : SourceFile} {first last : Nat}
    (hlocation : i.location = ⟨s.path, first, 1⟩) (hrange : i.range = some ⟨⟨first, 1⟩, ⟨last, 1⟩⟩)
    (hfirst : 1 ≤ first) (hlast : first ≤ last)
    (hend : last ≤ 1 + s.source.toUTF8.toList.count 10) : s.HasPlace i := by
  constructor
  case file => rw [hlocation]
  case line =>
    rw [hlocation]
    exact hfirst
  case range =>
    intro r hr
    obtain rfl := Option.some.inj (hrange.symm.trans hr)
    rw [hlocation]
    exact ⟨rfl, hlast, hend⟩

/-- A source has no more lines than its line feeds make. -/
lemma SourceFile.length_lines_le (s : SourceFile) :
    (Duplicate.SourceText.mk s.path s.source).lines.length
      ≤ 1 + s.source.toUTF8.toList.count 10 := by
  rw [Nat.add_comm]
  exact (Text.length_lines_le _).trans (Nat.succ_le_succ (Text.count_feed_le _))

/-- A finding about a block has its place in the source of that place. -/
lemma hasPlace_of_mem_ofBlock {files : List Duplicate.SourceText} {size : Nat}
    {keep : Duplicate.Group → Bool} {b : Duplicate.Block} {rule message : String}
    (hfiles : files ⊆ sources.map fun s => ⟨s.path, s.source⟩)
    (hb : b ∈ Duplicate.detect files size keep) (h : i ∈ Finding.ofBlock rule message b) :
    ∃ s ∈ sources, s.HasPlace i := by
  obtain ⟨l, hl, hlocation, hrange⟩ := Finding.place_of_mem_ofBlock h
  obtain ⟨f, hf, hfile, hfirst, hlast, hend⟩ := Duplicate.exists_lines_of_mem_detect hb hl
  obtain ⟨s, hs, rfl⟩ := List.mem_map.1 (hfiles hf)
  rw [hfile] at hlocation
  exact ⟨s, hs, s.hasPlace_of_lines hlocation hrange hfirst hlast (hend.trans s.length_lines_le)⟩

/-- A finding about a source has a place in it if the tree of the source runs forward. -/
lemma hasPlace_of_mem_sourceFindings {s : SourceFile}
    (htree : ∀ root, grammar s.language s.source = some root → root.Forward)
    (h : i ∈ sourceFindings grammar c s) : s.HasPlace i := by
  rw [sourceFindings, List.mem_append] at h
  cases h with
  | inl hmeasured =>
    split at hmeasured
    · next root hroot =>
      obtain ⟨hlocation, hrange⟩ | ⟨f, hf, hlocation, hrange⟩ :=
        Finding.place_of_mem_ofMetrics hmeasured
      · constructor
        case file => rw [hlocation]; rfl
        case line => rw [hlocation]
        case range =>
          intro r hr
          exact absurd (hrange.symm.trans hr) (Option.some_ne_none r).symm
      · obtain ⟨n, hn, hstart, hstop⟩ := FileMetrics.exists_node_of_mem_functions hf
        apply s.hasPlace_of_lines hlocation hrange
        · rw [hstart]
          exact lineOf_pos _ _
        · rw [hstart, hstop]
          exact lineOf_mono (htree root hroot n hn)
        · rw [hstop]
          exact lineOf_le _ _
    · exact absurd hmeasured List.not_mem_nil
  | inr hrepeated =>
    split at hrepeated
    · obtain ⟨b, hb, hi⟩ := List.mem_flatMap.1 hrepeated
      have hplace : ∃ s' ∈ [s], s'.HasPlace i :=
        hasPlace_of_mem_ofBlock (List.Subset.refl _) hb hi
      obtain ⟨s', hs', hplace⟩ := hplace
      rwa [List.mem_singleton.1 hs'] at hplace
    · exact absurd hrepeated List.not_mem_nil

/-- A finding across sources has a place in one of them. -/
lemma exists_hasPlace_of_mem_crossFindings (h : i ∈ crossFindings c sources) :
    ∃ s ∈ sources, s.HasPlace i := by
  rw [crossFindings] at h
  split at h
  · obtain ⟨b, hb, hi⟩ := List.mem_flatMap.1 h
    exact hasPlace_of_mem_ofBlock (Path.firsts_subset Duplicate.SourceText.path _) hb hi
  · exact absurd h List.not_mem_nil

/-- An issue points into a file that is listed, in the spelling that is listed first, and can be
read: it stands on a line of the file, where its range starts, and the range ends in the file. -/
structure PointsInside (fs : FileSystem) (paths : List Path) (i : Issue) : Prop where
  first : ∃ before after, paths = before ++ i.location.file :: after ∧
    ∀ p ∈ before, i.location.file.same p = false
  supported : (Language.ofPath? i.location.file).isSome = true
  line : 1 ≤ i.location.line
  inside : ∃ source, fs.read i.location.file = .ok source ∧ ∀ r, i.range = some r →
    r.start.line = i.location.line ∧ i.location.line ≤ r.stop.line ∧
      r.stop.line ≤ 1 + source.toUTF8.toList.count 10

/-- What has a place in a source of an analysis points into its file. -/
lemma pointsInside_of_hasPlace {s : SourceFile} (hs : s ∈ sourcesOf fs paths) (h : s.HasPlace i) :
    PointsInside fs paths i := by
  obtain ⟨hfirst, hsource⟩ := mem_sourcesOf_iff.1 hs
  have hlisted : s.Listed fs paths := by
    apply listed_of_mem_sources
    rwa [(foldl_add_eq fs paths).2]
  constructor
  case first =>
    rw [h.file]
    exact (Path.mem_firsts_iff id).1 hfirst
  case supported =>
    rw [h.file, hlisted.language]
    rfl
  case line => exact h.line
  case inside =>
    rw [h.file]
    exact ⟨s.source, hlisted.content, h.range⟩

/-- What is found in a file by itself is among the issues. -/
lemma exists_mem_of_ownFindings {a : MetricsAnalyzer} {analyzer : String} {answers : CancelAnswers}
    {found : List Issue} (h : a.analyze fs grammar analyzer answers paths = .ok found) {file : Path}
    (hfile : file ∈ analyzed fs paths) (hi : i ∈ ownFindings fs grammar a.config file) :
    ∃ j ∈ found, j.unnumbered = i.unnumbered := by
  rw [← List.mem_map, map_unnumbered_analyze h]
  exact List.mem_append_left _ (List.mem_flatMap.2 ⟨file, hfile, List.mem_map_of_mem hi⟩)

/-- If no node of the trees ends before it starts, every issue points into a listed file. -/
theorem analyze_pointsInside (fs : FileSystem) (grammar : Grammar) (a : MetricsAnalyzer)
    (analyzer : String) (answers : CancelAnswers) (paths : List Path)
    (htrees : ∀ s ∈ sourcesOf fs paths, ∀ root,
      grammar s.language s.source = some root → root.Forward)
    (found : List Issue) (h : a.analyze fs grammar analyzer answers paths = .ok found) :
    ∀ i ∈ found, PointsInside fs paths i := by
  intro i hi
  rw [analyze_eq h, ← crossFindings_sourcesOf] at hi
  obtain ⟨⟨j, index⟩, hj, rfl⟩ := List.mem_map.1 hi
  have hplace : ∃ s ∈ sourcesOf fs paths, s.HasPlace j := by
    obtain hown | hcross := List.mem_append.1 (List.fst_mem_of_mem_zipIdx hj)
    · obtain ⟨s, hs, hj⟩ := List.mem_flatMap.1 hown
      exact ⟨s, hs, hasPlace_of_mem_sourceFindings (htrees s hs) hj⟩
    · exact exists_hasPlace_of_mem_crossFindings hcross
  obtain ⟨s, hs, hplace⟩ := hplace
  exact pointsInside_of_hasPlace hs ⟨hplace.file, hplace.line, hplace.range⟩

/-- A function on two lines. -/
def functionTree : Node :=
  .mk 0 true "program" none 0 17 [
    .mk 1 true "function_declaration" none 0 16 [
      .mk 2 true "identifier" (some "name") 9 10 []]]

/-- A source with a function in it. -/
def functionFile : FileSystem :=
  .ofList [(⟨"a.ts"⟩, ⟨.ok "function f() \x7b\n\x7d\n", 17⟩)]

/-- The issue about the function has a range of two lines. -/
theorem functionFile_pointsInside :
    let grammar : Grammar := fun _ _ => some functionTree
    let a : MetricsAnalyzer := .ofConfig { cyclomatic := 0 }
    let paths : List Path := [⟨"gone.ts"⟩, ⟨"a.ts"⟩]
    (∀ s ∈ sourcesOf functionFile paths, ∀ root,
      grammar s.language s.source = some root → root.Forward) ∧
      ∃ found, a.analyze functionFile grammar name CancelToken.fresh.answers paths = .ok found ∧
        (∀ i ∈ found, PointsInside functionFile paths i) ∧
        ∃ i ∈ found, i.location = ⟨⟨"a.ts"⟩, 1, 1⟩ ∧ i.range = some ⟨⟨1, 1⟩, ⟨2, 1⟩⟩ := by
  intro grammar a paths
  have htrees : ∀ s ∈ sourcesOf functionFile paths, ∀ root,
      grammar s.language s.source = some root → root.Forward := by
    intro s _ root hroot
    obtain rfl := Option.some.inj hroot
    show ∀ n ∈ functionTree.preorder, n.start ≤ n.stop
    decide +kernel
  have hne : analyzed functionFile paths ≠ [] := by
    decide +kernel
  obtain ⟨found, hfound⟩ := exists_analyze_eq_ok grammar a name (fun _ => rfl) hne
  refine ⟨htrees, found, hfound, ?_, ?_⟩
  · exact analyze_pointsInside functionFile grammar a name _ paths htrees found hfound
  · have hfunction : ∃ f ∈ (FileMetrics.ofTree ⟨"a.ts"⟩ .typescript "function f() \x7b\n\x7d\n"
        functionTree).functions, 0 < f.cyclomatic ∧ f.startLine = 1 ∧ f.endLine = 2 := by
      decide +kernel
    obtain ⟨f, hf, hcyclomatic, hstart, hend⟩ := hfunction
    obtain ⟨j, hj, -, hlocation, hrange⟩ :=
      Finding.exists_mem_ofMetrics (c := a.config) hf hcyclomatic
    have hown : j ∈ ownFindings functionFile grammar a.config ⟨"a.ts"⟩ :=
      List.mem_append_left _ (List.mem_append_left _ hj)
    have hfile : ⟨"a.ts"⟩ ∈ analyzed functionFile paths := by
      decide +kernel
    obtain ⟨i, hi, heq⟩ := exists_mem_of_ownFindings hfound hfile hown
    rw [hstart] at hlocation hrange
    rw [hend] at hrange
    exact ⟨i, hi, (congrArg Issue.location heq).trans hlocation,
      (congrArg Issue.range heq).trans hrange⟩

end MetricsAnalyzer

end CodeAudit
