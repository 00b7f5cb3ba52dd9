import CodeAudit.Proofs.Metrics.Decomposition
/-!
# All of an analysis or nothing

An analysis asks whether it has been cancelled before it looks at a listed path, before it measures a
source and before it searches across files. The first time the answer is yes it ends with a fault; if
it is told no every time, it comes to what it would have come to without asking. There is nothing in
between: what had been found before a cancellation is not returned.
-/
namespace CodeAudit.MetricsAnalyzer

variable {α β : Type} {fs : FileSystem} {grammar : Grammar} {a : MetricsAnalyzer} {analyzer : String}
  {answers : CancelAnswers} {paths : List Path} {c : MetricsConfig} {sources : List SourceFile}

/-- What a computation comes to, unless it is stopped. -/
def guarded (analyzer : String) (stopped : Bool) (x : Except Fault α) : Except Fault α :=
  if stopped then .error (cancelledFault analyzer) else x

/-- One of `count` questions is answered yes, of which the first one has the number `first`. -/
def stops (answers : CancelAnswers) (first count : Nat) : Bool :=
  (List.range' first count).any answers

/-- If the first step may be stopped, so may the whole. -/
lemma guarded_bind (stopped : Bool) (x : Except Fault α) (f : α → Except Fault β) :
    (guarded analyzer stopped x >>= f) = guarded analyzer stopped (x >>= f) := by
  cases stopped with
  | false => rfl
  | true => rfl

/-- What may be stopped twice is stopped if one of the two stops it. -/
lemma guarded_guarded (stopped stopped' : Bool) (x : Except Fault α) :
    guarded analyzer stopped (guarded analyzer stopped' x)
      = guarded analyzer (stopped || stopped') x := by
  cases stopped with
  | false => rfl
  | true => rfl

/-- To go on if not stopped and then to return is to return if not stopped. -/
lemma proceed_bind (stopped : Bool) (b : β) :
    (do proceed analyzer stopped; return b) = guarded analyzer stopped (Except.ok b) := by
  cases stopped with
  | false => rfl
  | true => rfl

/-- Some questions stop an analysis if one of them is answered yes. -/
lemma stops_iff {first count : Nat} :
    stops answers first count = true ↔ ∃ k, (first ≤ k ∧ k < first + count) ∧ answers k = true := by
  simp only [stops, List.any_eq_true, List.mem_range'_1]

/-- More questions are some questions and those after them. -/
lemma stops_add (first count more : Nat) :
    stops answers first (count + more)
      = (stops answers first count || stops answers (first + count) more) := by
  rw [stops, ← List.range'_append_1, List.any_append]
  rfl

/-- Questions can be numbered from any number on. -/
lemma stops_shift (first count : Nat) :
    stops (fun k => answers (first + k)) 0 count = stops answers first count := by
  rw [Bool.eq_iff_iff, stops_iff, stops_iff]
  constructor
  · rintro ⟨k, ⟨-, hk⟩, hyes⟩
    exact ⟨first + k, ⟨by omega, by omega⟩, hyes⟩
  · rintro ⟨k, ⟨hle, hlt⟩, hyes⟩
    obtain ⟨k, rfl⟩ := Nat.exists_eq_add_of_le hle
    exact ⟨k, ⟨Nat.zero_le _, by omega⟩, hyes⟩

/-- A loop that asks before each item is stopped by the first yes, or else is a plain fold. -/
lemma foldlM_zipIdx_guarded (answers : CancelAnswers) (step : β → α → β)
    {f : β → α × Nat → Except Fault β}
    (hstep : ∀ b item index,
      f b (item, index) = guarded analyzer (answers index) (.ok (step b item)))
    (items : List α) (start : Nat) (b : β) :
    (items.zipIdx start).foldlM f b
      = guarded analyzer (stops answers start items.length) (.ok (items.foldl step b)) := by
  induction items generalizing b start with
  | nil => rfl
  | cons item rest ih =>
    rw [List.zipIdx_cons, List.foldlM_cons, hstep, guarded_bind]
    show guarded analyzer _ ((rest.zipIdx (start + 1)).foldlM f (step b item)) = _
    rw [ih, guarded_guarded]
    rfl

/-- The files are gathered unless one of the questions is answered yes. -/
lemma gather_eq_guarded (fs : FileSystem) (analyzer : String) (answers : CancelAnswers)
    (paths : List Path) :
    gather fs analyzer answers paths = guarded analyzer (stops answers 0 paths.length)
      (.ok (paths.foldl (Gathered.add fs) {})) := by
  apply foldlM_zipIdx_guarded
  intro g path index
  exact proceed_bind _ _

/-- How many questions there are once the files have been read: one for each source, and one before a
search across files. -/
def rounds (c : MetricsConfig) (sources : List SourceFile) : Nat :=
  sources.length + (searchesAcross c sources).toNat

/-- The findings are those of each source and those across them, unless a question is answered yes. -/
lemma findings_eq_guarded (grammar : Grammar) (c : MetricsConfig) (analyzer : String)
    (answers : CancelAnswers) (sources : List SourceFile) :
    findings grammar c analyzer answers sources
      = guarded analyzer (stops answers 0 (rounds c sources))
        (.ok (sources.flatMap (sourceFindings grammar c) ++ crossFindings c sources)) := by
  rw [findings,
    foldlM_zipIdx_guarded answers (fun found source => found ++ sourceFindings grammar c source)
      (fun _ _ _ => proceed_bind _ _),
    guarded_bind, rounds, stops_add, ← guarded_guarded, List.flatMap_eq_foldl, Nat.zero_add]
  congr 1
  cases hacross : searchesAcross c sources with
  | false => rfl
  | true =>
    have hone : stops answers sources.length true.toNat = answers sources.length :=
      Bool.or_false _
    rw [hone]
    exact proceed_bind _ _

/-- What an analysis comes to that does not ask whether it has been cancelled. -/
def unasked (fs : FileSystem) (grammar : Grammar) (a : MetricsAnalyzer) (paths : List Path) :
    Except Fault (List Issue) :=
  (paths.foldl (Gathered.add fs) {}).result.map fun sources =>
    Issue.numbered issueLabel
      (sources.flatMap (sourceFindings grammar a.config) ++ crossFindings a.config sources)

/-- How many questions an analysis asks if none of them is answered yes. -/
def questions (fs : FileSystem) (c : MetricsConfig) (paths : List Path) : Nat :=
  paths.length + rounds c (sourcesOf fs paths)

/-- If the files could not be read, there are no sources and no more questions. -/
lemma rounds_of_result_eq_error {g : Gathered} {fault : Fault} (h : g.result = .error fault)
    (c : MetricsConfig) : rounds c g.sources = 0 := by
  rw [Gathered.result] at h
  split at h
  · next hnil _ =>
    rw [hnil, rounds, searchesAcross]
    simp
  · cases h

/-- An analysis is stopped by the first yes, or else comes to what it would without asking. -/
lemma analyze_eq_guarded (fs : FileSystem) (grammar : Grammar) (a : MetricsAnalyzer)
    (analyzer : String) (answers : CancelAnswers) (paths : List Path) :
    a.analyze fs grammar analyzer answers paths
      = guarded analyzer (stops answers 0 (questions fs a.config paths))
        (unasked fs grammar a paths) := by
  rw [analyze, gather_eq_guarded, guarded_bind, questions, stops_add, ← guarded_guarded,
    Nat.zero_add, ← (foldl_add_eq fs paths).2, unasked]
  congr 1
  show ((paths.foldl (Gathered.add fs) {}).result >>= _) = _
  cases hresult : (paths.foldl (Gathered.add fs) {}).result with
  | error fault =>
    rw [rounds_of_result_eq_error hresult]
    rfl
  | ok sources =>
    show (findings grammar a.config analyzer _ sources >>= _) = _
    rw [findings_eq_guarded, guarded_bind, stops_shift, ← sources_of_result hresult]
    rfl

/-- If no question is answered yes, an analysis is one that does not ask. -/
lemma analyze_of_calm (grammar : Grammar) (a : MetricsAnalyzer) (analyzer : String)
    (hcalm : ∀ k, answers k = false) :
    a.analyze fs grammar analyzer answers paths = unasked fs grammar a paths := by
  have hstops : stops answers 0 (questions fs a.config paths) = false := by
    rw [Bool.eq_false_iff, ne_eq, stops_iff]
    rintro ⟨k, -, hyes⟩
    rw [hcalm] at hyes
    exact Bool.false_ne_true hyes
  rw [analyze_eq_guarded, hstops]
  rfl

/-- An analysis that does not ask whether it has been cancelled does not fail by a cancellation. -/
lemma unasked_ne_cancelled (fs : FileSystem) (grammar : Grammar) (a : MetricsAnalyzer)
    (paths : List Path) (message : String) :
    unasked fs grammar a paths ≠ .error (.cancelled message) := by
  rw [unasked, Gathered.result]
  split
  · intro h
    cases h
  · intro h
    cases h

/-- If one of the questions that an analysis asks is answered yes, it fails with a fault that names
the analyzer; otherwise it comes to the issues, with their identifiers, or the fault of an analysis
that is never cancelled. -/
theorem analyze_all_or_nothing (fs : FileSystem) (grammar : Grammar) (a : MetricsAnalyzer)
    (analyzer : String) (answers : CancelAnswers) (paths : List Path) :
    ((∃ k < questions fs a.config paths, answers k = true) ∧
      a.analyze fs grammar analyzer answers paths
        = .error (.cancelled (analyzer ++ " observed cancellation"))) ∨
    ((∀ k < questions fs a.config paths, answers k = false) ∧
      a.analyze fs grammar analyzer answers paths
        = a.analyze fs grammar analyzer CancelToken.fresh.answers paths ∧
      ∀ message, a.analyze fs grammar analyzer answers paths ≠ .error (.cancelled message)) := by
  have hcalm : a.analyze fs grammar analyzer CancelToken.fresh.answers paths
      = unasked fs grammar a paths := analyze_of_calm grammar a analyzer fun _ => rfl
  rw [hcalm, analyze_eq_guarded]
  cases hstops : stops answers 0 (questions fs a.config paths) with
  | true =>
    left
    obtain ⟨k, ⟨-, hk⟩, hyes⟩ := stops_iff.1 hstops
    exact ⟨⟨k, by omega, hyes⟩, rfl⟩
  | false =>
    right
    refine ⟨?_, rfl, unasked_ne_cancelled fs grammar a paths⟩
    intro k hk
    rw [Bool.eq_false_iff, ne_eq, stops_iff] at hstops
    rw [Bool.eq_false_iff]
    exact fun hyes => hstops ⟨k, ⟨Nat.zero_le k, by omega⟩, hyes⟩

end CodeAudit.MetricsAnalyzer
