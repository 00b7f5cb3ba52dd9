import CodeAudit.FileSystem.Disk
import CodeAudit.Proofs.Metrics.Cancellation
/-!
# When an analysis fails

An analysis that is not cancelled passes over files that cannot be read, and fails only if there is
such a file and none that can be read. Paths that are the same count as one file, and it is read in the
spelling that is listed first: where the spellings of a file lead to different places, it depends on
the order of the list whether the analysis fails.
-/
namespace CodeAudit

/-- A test that an item's first spelling passes if the item does finds the same path with the other
spellings and without them. -/
lemma Path.find?_distinct {paths : List Path} {test : Path → Bool}
    (h : ∀ p ∈ paths, test p = true → ∀ first ∈ distinct paths, p.same first = true →
      test first = true) :
    (distinct paths).find? test = paths.find? test := by
  induction paths using List.reverseRecOn with
  | nil => rfl
  | append_singleton front last ih =>
    have hconcat : distinct (front ++ [last]) = keepNew id (distinct front) last :=
      firsts_concat id front last
    have hkept : distinct front ⊆ distinct (front ++ [last]) := by
      rw [hconcat]
      exact subset_keepNew id _ _
    have hfront : (distinct front).find? test = front.find? test := by
      apply ih
      intro p hp htest first hfirst hsame
      exact h p (List.mem_append_left _ hp) htest first (hkept hfirst) hsame
    rw [List.find?_append, ← hfront, hconcat, keepNew]
    split
    · next hany =>
      -- if a path that is passed over passes the test, its first spelling has been found
      obtain ⟨first, hfirst, hsame⟩ := List.any_eq_true.1 hany
      cases hlast : test last with
      | false =>
        rw [List.find?_cons_of_neg (Bool.eq_false_iff.1 hlast)]
        exact (Option.or_none).symm
      | true =>
        have htest : test first = true :=
          h last (List.mem_append_right _ (List.mem_singleton_self _)) hlast first (hkept hfirst) hsame
        have hfound : ((distinct front).find? test).isSome = true :=
          List.find?_isSome.2 ⟨first, hfirst, htest⟩
        exact (Option.or_of_isSome hfound).symm
    · exact List.find?_append

namespace MetricsAnalyzer

/-- A path of a known language at which there is a text. -/
def isReadable (fs : FileSystem) (p : Path) : Bool :=
  (Language.ofPath? p).isSome && (fs.read p).isOk

/-- A path of a known language at which there is none. -/
def isUnreadable (fs : FileSystem) (p : Path) : Bool :=
  (Language.ofPath? p).isSome && !(fs.read p).isOk

/-- Some of the files cannot be read, and none can be. -/
def NoneReadable (fs : FileSystem) (paths : List Path) : Prop :=
  (∃ p ∈ paths, isUnreadable fs p = true) ∧ ∀ p ∈ paths, isReadable fs p = false

/-- What is noted of a path that cannot be read. -/
def failure? (fs : FileSystem) (path : Path) : Option (Path × ReadError) :=
  match Language.ofPath? path, fs.read path with
  | some _, .error e => some (path, e)
  | _, _ => none

section Failure

variable {fs : FileSystem} {grammar : Grammar} {a : MetricsAnalyzer} {analyzer : String}
  {answers : CancelAnswers} {paths : List Path} {p q : Path} {found : List Issue} {fault : Fault}

/-- A path is readable if it has a source. -/
lemma isReadable_iff : isReadable fs p = true ↔ ∃ s, source? fs p = some s := by
  rw [isReadable, source?]
  cases Language.ofPath? p with
  | none => simp
  | some language =>
    cases fs.read p with
    | ok source => simp [Except.isOk, Except.toBool]
    | error e => simp [Except.isOk, Except.toBool]

/-- What is noted of a path is that it cannot be read, and why. -/
lemma failure?_eq_some_iff {e : ReadError} :
    failure? fs p = some (q, e) ↔ isUnreadable fs p = true ∧ p = q ∧ fs.read p = .error e := by
  rw [failure?, isUnreadable]
  cases Language.ofPath? p with
  | none => simp
  | some language =>
    cases fs.read p with
    | ok source => simp [Except.isOk, Except.toBool]
    | error e => simp [Except.isOk, Except.toBool]

/-- Something is noted of a path if it cannot be read. -/
lemma isSome_failure? (fs : FileSystem) (p : Path) : (failure? fs p).isSome = isUnreadable fs p := by
  rw [failure?, isUnreadable]
  cases Language.ofPath? p with
  | none => rfl
  | some language => cases fs.read p <;> rfl

/-- The first failure that is noted stays. -/
lemma failure_add (fs : FileSystem) (g : Gathered) (p : Path) :
    (g.add fs p).failure = if g.seen.any p.same then g.failure else g.failure.or (failure? fs p) := by
  rw [Gathered.add, failure?]
  split
  · rfl
  · dsimp only
    cases Language.ofPath? p with
    | none => exact Option.or_none.symm
    | some language =>
      cases fs.read p with
      | error e => exact Option.or_eq_orElse.symm
      | ok source => exact Option.or_none.symm

/-- The failure that is kept is that of the first path that cannot be read. -/
lemma failure_foldl_add (fs : FileSystem) (paths : List Path) :
    (paths.foldl (Gathered.add fs) {}).failure = (Path.distinct paths).findSome? (failure? fs) := by
  induction paths using List.reverseRecOn with
  | nil => rfl
  | append_singleton front p ih =>
    have hconcat : Path.distinct (front ++ [p]) = Path.keepNew id (Path.distinct front) p :=
      Path.firsts_concat id front p
    rw [List.foldl_append, List.foldl_cons, List.foldl_nil, failure_add, (foldl_add_eq fs front).1,
      ih, hconcat, Path.keepNew]
    show _ = (if (Path.distinct front).any p.same then _ else _ : List Path).findSome? _
    split
    · rfl
    · have hlast : [p].findSome? (failure? fs) = failure? fs p := by
        cases h : failure? fs p with
        | none => rw [List.findSome?_cons, h, List.findSome?_nil]
        | some noted => rw [List.findSome?_cons, h]
      rw [List.findSome?_append, hlast]

/-- There are no sources exactly if none of the different paths can be read. -/
lemma sourcesOf_eq_nil_iff :
    sourcesOf fs paths = [] ↔ ∀ p ∈ Path.distinct paths, isReadable fs p = false := by
  simp only [sourcesOf, List.filterMap_eq_nil_iff, Bool.eq_false_iff, ne_eq, isReadable_iff,
    Option.eq_none_iff_forall_ne_some, not_exists]

/-- An analysis fails if it has no sources and could not read a file, by the first such file. -/
lemma unasked_eq_error_iff :
    unasked fs grammar a paths = .error fault ↔ sourcesOf fs paths = [] ∧
      ∃ p e, (Path.distinct paths).findSome? (failure? fs) = some (p, e) ∧ fault = .io p e.message := by
  rw [unasked, Gathered.result, (foldl_add_eq fs paths).2, failure_foldl_add]
  split
  · next p e hsources hfailure =>
    rw [hsources, hfailure]
    constructor
    · intro h
      exact ⟨rfl, p, e, rfl, (Except.error.inj h).symm⟩
    · rintro ⟨-, p', e', heq, rfl⟩
      cases heq
      rfl
  · next hresult =>
    constructor
    · intro h
      cases h
    · rintro ⟨hnil, p, e, hfailure, -⟩
      exact absurd hfailure (hresult p e hnil)

/-- An analysis that succeeds numbers the findings of its sources. -/
lemma unasked_eq_ok (h : unasked fs grammar a paths = .ok found) :
    found = Issue.numbered issueLabel ((sourcesOf fs paths).flatMap (sourceFindings grammar a.config)
      ++ crossFindings a.config (sourcesOf fs paths)) := by
  obtain ⟨sources, hresult, rfl⟩ := exists_of_map_eq_ok h
  rw [sources_of_result hresult, (foldl_add_eq fs paths).2]

/-- A path of a known language that cannot be read is unreadable. -/
lemma isUnreadable_iff : isUnreadable fs p = true ↔
    (Language.ofPath? p).isSome = true ∧ isReadable fs p = false := by
  rw [isUnreadable, isReadable]
  cases (Language.ofPath? p).isSome with
  | false => simp
  | true => simp

/-- An analysis fails if some files cannot be read and none can be. -/
lemma exists_fault_iff (fs : FileSystem) (grammar : Grammar) (a : MetricsAnalyzer)
    (paths : List Path) :
    (∃ fault, unasked fs grammar a paths = .error fault) ↔ NoneReadable fs (Path.distinct paths) := by
  have hfailure : (∃ p e, (Path.distinct paths).findSome? (failure? fs) = some (p, e)) ↔
      ∃ p ∈ Path.distinct paths, isUnreadable fs p = true := by
    simp only [← isSome_failure?]
    rw [← List.findSome?_isSome_iff, Option.isSome_iff_exists, Prod.exists]
  simp only [unasked_eq_error_iff, sourcesOf_eq_nil_iff, NoneReadable, ← hfailure]
  constructor
  · rintro ⟨fault, hnone, p, e, h, -⟩
    exact ⟨⟨p, e, h⟩, hnone⟩
  · rintro ⟨⟨p, e, h⟩, hnone⟩
    exact ⟨_, hnone, p, e, h, rfl⟩

/-- If no file can be read, the failure that is kept is that of the first listed one. -/
lemma find?_isUnreadable (hnone : ∀ p ∈ Path.distinct paths, isReadable fs p = false) {e : ReadError}
    (h : (Path.distinct paths).findSome? (failure? fs) = some (p, e)) :
    paths.find? (isUnreadable fs) = some p ∧ fs.read p = .error e := by
  obtain ⟨before, q, after, hsplit, hnoted, hbefore⟩ := List.findSome?_eq_some_iff.1 h
  obtain ⟨hunreadable, rfl, hread⟩ := failure?_eq_some_iff.1 hnoted
  have hfound : (Path.distinct paths).find? (isUnreadable fs) = some q := by
    rw [List.find?_eq_some_iff_append]
    refine ⟨hunreadable, before, after, hsplit, fun p hp => ?_⟩
    rw [← isSome_failure?, hbefore p hp]
    rfl
  refine ⟨?_, hread⟩
  rw [← hfound, Path.find?_distinct]
  intro p _ htest first hfirst hsame
  rw [isUnreadable_iff] at htest ⊢
  rw [← Language.ofPath?_congr hsame]
  exact ⟨htest.1, hnone first hfirst⟩

/-- The files that can be read are the sources of an analysis by themselves. -/
lemma sourcesOf_analyzed (fs : FileSystem) (paths : List Path) :
    sourcesOf fs (analyzed fs paths) = sourcesOf fs paths := by
  have hdistinct : Path.distinct (analyzed fs paths) = analyzed fs paths :=
    Path.firsts_eq_self id ((Path.firsts_pairwise id paths).filter _)
  rw [sourcesOf, hdistinct, sourcesOf, analyzed, List.filterMap_filter]
  apply List.filterMap_congr
  intro p _
  show (if isReadable fs p = true then source? fs p else none) = source? fs p
  rw [ite_eq_left_iff, isReadable_iff, not_exists]
  exact fun hnone => (Option.eq_none_iff_forall_ne_some.2 hnone).symm

/-- An analysis that succeeds finds the same in the files that it has read alone. -/
lemma unasked_analyzed (h : unasked fs grammar a paths = .ok found) :
    unasked fs grammar a (analyzed fs paths) = .ok found := by
  cases hresult : unasked fs grammar a (analyzed fs paths) with
  | error fault =>
    obtain ⟨p, hp, hunreadable⟩ := ((exists_fault_iff fs grammar a _).1 ⟨fault, hresult⟩).1
    have hreadable : isReadable fs p = true :=
      isReadable_iff.2 (mem_analyzed_iff.1 (Path.firsts_subset id _ hp)).2
    rw [isUnreadable_iff, hreadable] at hunreadable
    exact absurd hunreadable.2.symm Bool.false_ne_true
  | ok found' => rw [unasked_eq_ok hresult, sourcesOf_analyzed, ← unasked_eq_ok h]

/-- If all spellings of a file lead to a text or none does, the first ones tell what can be read. -/
lemma noneReadable_distinct_iff
    (halike : ∀ p ∈ paths, ∀ q ∈ paths, p.same q = true → (fs.read p).isOk = (fs.read q).isOk) :
    NoneReadable fs (Path.distinct paths) ↔ NoneReadable fs paths := by
  have hsub : Path.distinct paths ⊆ paths := Path.firsts_subset id paths
  have hfirst {p : Path} (hp : p ∈ paths) : ∃ first ∈ Path.distinct paths,
      isReadable fs first = isReadable fs p ∧ isUnreadable fs first = isUnreadable fs p := by
    obtain ⟨first, hfirst, hsame⟩ := Path.exists_mem_firsts id hp
    have hread : (fs.read p).isOk = (fs.read first).isOk := halike p hp first (hsub hfirst) hsame
    have hlanguage : Language.ofPath? p = Language.ofPath? first := Language.ofPath?_congr hsame
    refine ⟨first, hfirst, ?_, ?_⟩
    · rw [isReadable, isReadable, hread, hlanguage]
    · rw [isUnreadable, isUnreadable, hread, hlanguage]
  constructor
  · rintro ⟨⟨p, hp, hunreadable⟩, hnone⟩
    refine ⟨⟨p, hsub hp, hunreadable⟩, fun q hq => ?_⟩
    obtain ⟨first, hmem, hreadable, -⟩ := hfirst hq
    rw [← hreadable]
    exact hnone first hmem
  · rintro ⟨⟨p, hp, hunreadable⟩, hnone⟩
    obtain ⟨first, hmem, -, heq⟩ := hfirst hp
    exact ⟨⟨first, hmem, heq.trans hunreadable⟩, fun q hq => hnone q (hsub hq)⟩

end Failure

/-- When an analysis of some files fails and of what. Paths that are the same are one file, which is
read in the spelling that is listed first. -/
structure FailsIfNoneReadable (fs : FileSystem) (analyze : List Path → Except Fault (List Issue))
    (paths : List Path) : Prop where
  fails_iff : (∃ fault, analyze paths = .error fault) ↔ NoneReadable fs (Path.distinct paths)
  /-- The fault is about the first listed path that cannot be read. -/
  fault : ∀ fault, analyze paths = .error fault → ∃ p e,
    paths.find? (isUnreadable fs) = some p ∧ fs.read p = .error e ∧ fault = .io p e.message
  /-- All that cannot be read is passed over if something can be. -/
  skips : ∀ found, analyze paths = .ok found → analyze (analyzed fs paths) = .ok found
  /-- Other spellings count only where they lead to a text and the first one does not, or the other
  way round. -/
  alike : (∀ p ∈ paths, ∀ q ∈ paths, p.same q = true → (fs.read p).isOk = (fs.read q).isOk) →
    ((∃ fault, analyze paths = .error fault) ↔ NoneReadable fs paths)

/-- An analysis that is not cancelled fails if no file can be read and one should have been. -/
theorem analyze_failsIfNoneReadable (fs : FileSystem) (grammar : Grammar) (a : MetricsAnalyzer)
    (analyzer : String) (answers : CancelAnswers) (hcalm : ∀ k, answers k = false)
    (paths : List Path) :
    FailsIfNoneReadable fs (a.analyze fs grammar analyzer answers) paths := by
  have hanalyze (paths : List Path) :
      a.analyze fs grammar analyzer answers paths = unasked fs grammar a paths :=
    analyze_of_calm grammar a analyzer hcalm
  constructor
  case fails_iff =>
    rw [hanalyze]
    exact exists_fault_iff fs grammar a paths
  case fault =>
    intro fault h
    rw [hanalyze, unasked_eq_error_iff, sourcesOf_eq_nil_iff] at h
    obtain ⟨hnone, p, e, hfailure, rfl⟩ := h
    obtain ⟨hfind, hread⟩ := find?_isUnreadable hnone hfailure
    exact ⟨p, e, hfind, hread, rfl⟩
  case skips =>
    intro found h
    rw [hanalyze] at h ⊢
    exact unasked_analyzed h
  case alike =>
    intro halike
    rw [hanalyze, exists_fault_iff, noneReadable_distinct_iff halike]

/-- A directory with one file in it, which is empty. -/
def singleFile : FileSystem :=
  ((Disk.empty ⟨"/w"⟩).addFile ⟨"a.ts"⟩ ByteArray.empty).fileSystem

/-- Of a text, a directory, a missing source and a file with a slash after its name the missing source
is the first that should have been read. -/
theorem unreadableListing_fails :
    let a : MetricsAnalyzer := .ofJson .null
    let grammar : Grammar := fun _ _ => none
    let answers : CancelAnswers := CancelToken.fresh.answers
    let paths : List Path := [⟨"notes.md"⟩, ⟨"."⟩, ⟨"gone.ts"⟩, ⟨"a.ts/"⟩, ⟨"a.ts/."⟩]
    (∀ k, answers k = false) ∧
      FailsIfNoneReadable singleFile (a.analyze singleFile grammar name answers) paths ∧
      a.analyze singleFile grammar name answers paths
        = .error (.io ⟨"gone.ts"⟩ "No such file or directory (os error 2)") := by
  intro a grammar answers paths
  have hcalm : ∀ k, answers k = false := fun _ => rfl
  have hfails : FailsIfNoneReadable singleFile (a.analyze singleFile grammar name answers) paths :=
    analyze_failsIfNoneReadable singleFile grammar a name answers hcalm paths
  refine ⟨hcalm, hfails, ?_⟩
  have hnone : NoneReadable singleFile (Path.distinct paths) :=
    ⟨⟨⟨"gone.ts"⟩, by decide +kernel⟩, by decide +kernel⟩
  obtain ⟨fault, hfault⟩ := hfails.fails_iff.2 hnone
  obtain ⟨p, e, hfind, hread, rfl⟩ := hfails.fault fault hfault
  have hfirst : paths.find? (isUnreadable singleFile) = some ⟨"gone.ts"⟩ := by decide +kernel
  obtain rfl := Option.some.inj (hfind.symm.trans hfirst)
  have hmissing : singleFile.read ⟨"gone.ts"⟩ = .error .notFound := by decide +kernel
  obtain rfl := Except.error.inj (hread.symm.trans hmissing)
  exact hfault

/-- A file that can be read is passed over if it is listed with a slash after its name before. -/
theorem readable_behind_slash_fails :
    let a : MetricsAnalyzer := .ofJson .null
    let grammar : Grammar := fun _ _ => none
    let answers : CancelAnswers := CancelToken.fresh.answers
    let paths : List Path := [⟨"a.ts/"⟩, ⟨"a.ts"⟩]
    isReadable singleFile ⟨"a.ts"⟩ = true ∧
      a.analyze singleFile grammar name answers paths
        = .error (.io ⟨"a.ts/"⟩ "Not a directory (os error 20)") ∧
      ¬ ((∃ fault, a.analyze singleFile grammar name answers paths = .error fault) ↔
        NoneReadable singleFile paths) := by
  intro a grammar answers paths
  have hreadable : isReadable singleFile ⟨"a.ts"⟩ = true := by decide +kernel
  have hfails : a.analyze singleFile grammar name answers paths
      = .error (.io ⟨"a.ts/"⟩ "Not a directory (os error 20)") := by
    decide +kernel
  refine ⟨hreadable, hfails, fun hiff => ?_⟩
  have hnone : isReadable singleFile ⟨"a.ts"⟩ = false :=
    (hiff.1 ⟨_, hfails⟩).2 ⟨"a.ts"⟩ (List.mem_cons_of_mem _ List.mem_cons_self)
  exact absurd (hnone.symm.trans hreadable) Bool.false_ne_true

end MetricsAnalyzer

end CodeAudit
