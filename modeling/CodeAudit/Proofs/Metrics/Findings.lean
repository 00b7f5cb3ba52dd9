import CodeAudit.Metrics.Analyzer
import CodeAudit.Proofs.Duplicate.Copies
import CodeAudit.Proofs.Except
/-!
# What the metrics analyzer finds

Whatever its thresholds are and whatever the files hold, each issue of the metrics analyzer is about a
listed file of a known language. It is no error, and it comes from one of seven rules.
-/
namespace CodeAudit

/-- The language of a path is told by its components. -/
lemma Language.ofPath?_congr {p q : Path} (h : p.same q = true) : ofPath? p = ofPath? q := by
  rw [ofPath?, ofPath?, Path.extension?, Path.extension?, Path.same_iff.1 h]

namespace Duplicate

/-- A detected block has its places in the files that it was looked for in. -/
lemma exists_path_eq_of_mem_detect {files : List SourceText} {size : Nat} {keep : Group → Bool}
    {b : Block} (hb : b ∈ detect files size keep) {l : Location} (hl : l ∈ b.locations) :
    ∃ f ∈ files, f.path = l.file := by
  rw [detect] at hb
  split at hb
  · exact absurd hb List.not_mem_nil
  · obtain ⟨r, hr, rfl⟩ := List.mem_map.1 hb
    rw [Run.locations_toBlock] at hl
    obtain ⟨o, ho, rfl⟩ := List.mem_map.1 hl
    obtain ⟨f, hf⟩ := getElem?_file_of_mem_starts hr ho
    exact ⟨f, List.mem_of_getElem? hf, (file_locationAt hf).symm⟩

end Duplicate

namespace Finding

/-- The rules that findings come from. -/
def rules : List String :=
  ["complexity/cyclomatic", "complexity/cognitive", "complexity/maintainability-index",
    "complexity/lines-of-code", "complexity/function", "duplication/intra-file",
    "duplication/cross-file"]

/-- The issue is one that a finding about the file can be. -/
structure About (path : Path) (i : Issue) : Prop where
  file : i.location.file = path
  severity : i.severity ≠ .error
  rule : i.ruleId ∈ rules

variable {c : MetricsConfig} {m : FileMetrics} {path : Path} {rule message : String} {i : Issue}

/-- A finding about a file as a whole is about the file. -/
lemma about_ofFile {severity : Severity} (hseverity : severity ≠ .error) (hrule : rule ∈ rules) :
    About path (ofFile severity rule message path) :=
  ⟨rfl, hseverity, hrule⟩

/-- A finding about some lines is about their file. -/
lemma about_ofLines {first last : Nat} (hrule : rule ∈ rules) :
    About path (ofLines rule message path first last) :=
  ⟨rfl, nofun, hrule⟩

/-- A suggestion leaves an issue about its file. -/
lemma About.suggest (h : About path i) (suggestion : String) : About path (i.suggest suggestion) :=
  ⟨h.file, h.severity, h.rule⟩

/-- An issue that is made on a condition is about its file. -/
lemma About.of_mem_when {condition : Bool} {issue : Issue} (hissue : About path issue)
    (h : i ∈ when condition issue) : About path i := by
  rw [when] at h
  split at h
  · rwa [List.mem_singleton.1 h]
  · exact absurd h List.not_mem_nil

/-- What is found in the measures is about the file that is measured. -/
lemma about_of_mem_ofMetrics (h : i ∈ ofMetrics c m) : About m.path i := by
  simp only [ofMetrics, List.mem_append, List.mem_flatMap] at h
  obtain (((h | h) | h) | h) | ⟨f, -, h⟩ := h
  case inl.inl.inl.inl =>
    refine .of_mem_when (.suggest ?_ _) h
    exact about_ofFile nofun (by simp [rules])
  case inl.inl.inl.inr =>
    refine .of_mem_when (.suggest ?_ _) h
    exact about_ofFile nofun (by simp [rules])
  case inl.inl.inr =>
    refine .of_mem_when ?_ h
    exact about_ofFile nofun (by simp [rules])
  case inl.inr =>
    refine .of_mem_when (.suggest ?_ _) h
    exact about_ofFile nofun (by simp [rules])
  case inr =>
    refine .of_mem_when ?_ h
    exact about_ofLines (by simp [rules])

/-- A finding about a block is about the file of one of its places. -/
lemma exists_about_of_mem_ofBlock {b : Duplicate.Block} (hrule : rule ∈ rules)
    (h : i ∈ ofBlock rule message b) : ∃ l ∈ b.locations, About l.file i := by
  rw [ofBlock] at h
  split at h
  · exact absurd h List.not_mem_nil
  · next first rest hlocations =>
    rw [List.mem_singleton.1 h, hlocations]
    exact ⟨first, List.mem_cons_self, (about_ofLines hrule).suggest _⟩

end Finding

namespace MetricsAnalyzer

open Finding (About)

variable {fs : FileSystem} {grammar : Grammar} {c : MetricsConfig} {analyzer : String}
  {answers : CancelAnswers} {sources : List SourceFile} {paths : List Path} {i : Issue}

/-- What is found in a source is about its path. -/
lemma about_of_mem_sourceFindings {s : SourceFile} (h : i ∈ sourceFindings grammar c s) :
    About s.path i := by
  rw [sourceFindings, List.mem_append] at h
  obtain hmeasured | hrepeated := h
  · split at hmeasured
    · exact Finding.about_of_mem_ofMetrics hmeasured
    · exact absurd hmeasured List.not_mem_nil
  · split at hrepeated
    · obtain ⟨b, hb, hi⟩ := List.mem_flatMap.1 hrepeated
      obtain ⟨l, hl, habout⟩ := Finding.exists_about_of_mem_ofBlock (by simp [Finding.rules]) hi
      obtain ⟨f, hf, hpath⟩ := Duplicate.exists_path_eq_of_mem_detect hb hl
      obtain rfl := List.mem_singleton.1 hf
      rwa [← hpath] at habout
    · exact absurd hrepeated List.not_mem_nil

/-- What is found across sources is about one of them. -/
lemma exists_about_of_mem_crossFindings (h : i ∈ crossFindings c sources) :
    ∃ s ∈ sources, About s.path i := by
  rw [crossFindings] at h
  split at h
  · obtain ⟨b, hb, hi⟩ := List.mem_flatMap.1 h
    obtain ⟨l, hl, habout⟩ := Finding.exists_about_of_mem_ofBlock (by simp [Finding.rules]) hi
    obtain ⟨f, hf, hpath⟩ := Duplicate.exists_path_eq_of_mem_detect hb hl
    obtain ⟨s, hs, rfl⟩ := List.mem_map.1 (Path.firsts_subset Duplicate.SourceText.path _ hf)
    rw [← hpath] at habout
    exact ⟨s, hs, habout⟩
  · exact absurd h List.not_mem_nil

/-- An analysis that goes on does so without a trace. -/
lemma eq_of_proceed_bind {α : Type} {cancelled : Bool} {a b : α}
    (h : (do proceed analyzer cancelled; return a) = Except.ok b) : b = a := by
  obtain ⟨-, -, h⟩ := exists_of_bind_eq_ok h
  exact (Except.ok.inj h).symm

/-- What is read by an analysis that is not cancelled. -/
lemma gather_eq {g : Gathered} (h : gather fs analyzer answers paths = .ok g) :
    g = paths.foldl (Gathered.add fs) {} :=
  foldlM_zipIdx_eq_foldl (fun _ _ _ _ hstep => eq_of_proceed_bind hstep) h

/-- What is found by an analysis that is not cancelled. -/
lemma findings_eq {found : List Issue}
    (h : findings grammar c analyzer answers sources = .ok found) :
    found = sources.flatMap (sourceFindings grammar c) ++ crossFindings c sources := by
  obtain ⟨own, hown, hrest⟩ := exists_of_bind_eq_ok h
  rw [List.flatMap_eq_foldl,
    ← foldlM_zipIdx_eq_foldl (fun _ _ _ _ hstep => eq_of_proceed_bind hstep) hown]
  cases hacross : searchesAcross c sources with
  | false =>
    rw [if_neg (Bool.eq_false_iff.1 hacross)] at hrest
    exact (Except.ok.inj hrest).symm
  | true =>
    rw [if_pos hacross] at hrest
    exact eq_of_proceed_bind hrest

/-- What is known of a source that has been read. -/
structure SourceFile.Listed (fs : FileSystem) (paths : List Path) (s : SourceFile) : Prop where
  listed : s.path ∈ paths
  language : Language.ofPath? s.path = some s.language
  content : fs.read s.path = .ok s.source

/-- A source that is there after one more path was there before or belongs to the path. -/
lemma Gathered.mem_sources_add {g : Gathered} {path : Path} {s : SourceFile}
    (h : s ∈ (g.add fs path).sources) : s ∈ g.sources ∨ s.Listed fs [path] := by
  rw [add] at h
  split at h
  · exact .inl h
  · dsimp only at h
    split at h
    · exact .inl h
    · next language hlanguage =>
      split at h
      · next source hsource =>
        obtain h | h := List.mem_append.1 h
        · exact .inl h
        · obtain rfl := List.mem_singleton.1 h
          exact .inr ⟨List.mem_singleton_self _, hlanguage, hsource⟩
      · exact .inl h

/-- Every source that has been read is listed. -/
lemma listed_of_mem_sources {s : SourceFile}
    (h : s ∈ (paths.foldl (Gathered.add fs) {}).sources) : s.Listed fs paths := by
  induction paths using List.reverseRecOn with
  | nil => exact absurd h List.not_mem_nil
  | append_singleton front path ih =>
    rw [List.foldl_append] at h
    obtain h | h := Gathered.mem_sources_add h
    · exact ⟨List.mem_append_left _ (ih h).listed, (ih h).language, (ih h).content⟩
    · exact ⟨List.mem_append_right _ h.listed, h.language, h.content⟩

/-- What has been gathered are the sources. -/
lemma sources_of_result {g : Gathered} (h : g.result = .ok sources) : sources = g.sources := by
  rw [Gathered.result] at h
  split at h
  · exact absurd h nofun
  · exact (Except.ok.inj h).symm

/-- Every finding is about one of the sources. -/
lemma exists_about_of_mem_findings {found : List Issue}
    (h : findings grammar c analyzer answers sources = .ok found) (hi : i ∈ found) :
    ∃ s ∈ sources, About s.path i := by
  rw [findings_eq h, List.mem_append, List.mem_flatMap] at hi
  obtain ⟨s, hs, hi⟩ | hi := hi
  · exact ⟨s, hs, about_of_mem_sourceFindings hi⟩
  · exact exists_about_of_mem_crossFindings hi

/-- An issue of an analysis that comes to an end is about a listed file of a known language. -/
lemma exists_about_of_mem_analyze {a : MetricsAnalyzer} {found : List Issue}
    (h : a.analyze fs grammar analyzer answers paths = .ok found) (hi : i ∈ found) :
    ∃ s : SourceFile, s.Listed fs paths ∧ About s.path i := by
  obtain ⟨g, hg, h⟩ := exists_of_bind_eq_ok h
  obtain ⟨sources, hsources, h⟩ := exists_of_bind_eq_ok h
  obtain ⟨raw, hraw, h⟩ := exists_of_bind_eq_ok h
  obtain rfl := Except.ok.inj h
  obtain ⟨⟨j, index⟩, hj, rfl⟩ := List.mem_map.1 hi
  obtain ⟨s, hs, habout⟩ := exists_about_of_mem_findings hraw (List.fst_mem_of_mem_zipIdx hj)
  rw [sources_of_result hsources, gather_eq hg] at hs
  exact ⟨s, listed_of_mem_sources hs, habout.file, habout.severity, habout.rule⟩

end MetricsAnalyzer

end CodeAudit
