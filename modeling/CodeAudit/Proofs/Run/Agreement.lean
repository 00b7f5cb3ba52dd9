import CodeAudit.Proofs.NameMap
import CodeAudit.Proofs.Run.Order
/-!
# What two runs agree in

No run takes the time that another one takes, and the runtime gives the task of an invocation a
number of its own in each run. So reports of two runs are compared without the times that they show,
and the text of a fault is compared without the number of the task that broke off.
-/
namespace CodeAudit

/-- Two faults that are one and the same, but for the number of a task that broke off. -/
inductive Fault.Alike : Fault → Fault → Prop where
  | refl (f : Fault) : Alike f f
  | panic (message : Option String) (task task' : Option Nat) :
    Alike (panicFault message task) (panicFault message task')

/-- If there are no faults on one side, there are none on the other. -/
lemma Fault.eq_of_forall_eq_none {faults faults' : List (Option Fault)}
    (h : List.Forall₂ (Option.Rel Fault.Alike) faults faults') (hnone : ∀ f ∈ faults, f = none) :
    faults = faults' := by
  induction h with
  | nil => rfl
  | cons hhead _ ih =>
    obtain ⟨rfl, hrest⟩ := List.forall_mem_cons.1 hnone
    cases hhead
    rw [ih hrest]

/-- Two outcomes of an invocation: the same issues, or faults that are alike. -/
inductive OutcomesAlike : Except Fault (List Issue) → Except Fault (List Issue) → Prop where
  | ok (issues : List Issue) : OutcomesAlike (.ok issues) (.ok issues)
  | error {f f' : Fault} : f.Alike f' → OutcomesAlike (.error f) (.error f')

/-- An outcome is like itself. -/
lemma OutcomesAlike.refl (outcome : Except Fault (List Issue)) : OutcomesAlike outcome outcome := by
  cases outcome with
  | ok issues => exact .ok issues
  | error f => exact .error (.refl f)

/-- Two errors of runs that are the same, or faults of one analyzer that are alike. -/
inductive RunError.Alike : RunError → RunError → Prop where
  | refl (error : RunError) : Alike error error
  | analyzer (name : String) {f f' : Fault} :
    f.Alike f' → Alike (.analyzer name f) (.analyzer name f')

/-- The result without its time. -/
def AnalyzerResult.untimed (r : AnalyzerResult) : AnalyzerResult :=
  { r with milliseconds := 0 }

/-- The result without its time and without the text of its fault. -/
def AnalyzerResult.bare (r : AnalyzerResult) : AnalyzerResult :=
  { r with milliseconds := 0, error := none }

/-- Two results that agree but for their times and the number of a task that broke off. -/
structure AnalyzerResult.Alike (r s : AnalyzerResult) : Prop where
  bare : r.bare = s.bare
  error : Option.Rel (Relation.Map Fault.Alike Fault.text Fault.text) r.error s.error

/-- The execution without its time. -/
def Execution.untimed (e : Execution) : Execution :=
  { e with result := e.result.untimed }

/-- The execution without its time and its fault. -/
def Execution.bare (e : Execution) : Execution :=
  { e with result := e.result.bare, fault := none }

/-- Two executions that agree but for their times and the number of a task that broke off. -/
inductive Execution.Alike : Execution → Execution → Prop where
  | succeeded (name version : String) (milliseconds milliseconds' fileCount : Nat)
    (issues : List Issue) :
    Alike ⟨.succeeded name version milliseconds issues.length fileCount, issues, none⟩
      ⟨.succeeded name version milliseconds' issues.length fileCount, issues, none⟩
  | failed (name version : String) (milliseconds milliseconds' : Nat) {f f' : Fault} :
    f.Alike f' →
    Alike ⟨.failed name version milliseconds f.text, [], some f⟩
      ⟨.failed name version milliseconds' f'.text, [], some f'⟩

/-- The report without its times and without the configuration that it shows. -/
def Report.untimed (r : Report) : Report :=
  { r with
    timestamp := default
    configuration := .null
    metrics :=
      { r.metrics with
        milliseconds := 0
        analyzerTimes := r.metrics.analyzerTimes.map (Prod.map id fun _ => 0) }
    analyzerResults := r.analyzerResults.map AnalyzerResult.untimed }

/-- What a report shows beside the results of the analyzers, the times and the configuration. -/
def Report.withoutResults (r : Report) : Report :=
  { r.untimed with analyzerResults := [] }

/-- Two reports that agree but for their times, the configuration that they show, and the numbers of
tasks that broke off. -/
structure Report.Alike (r s : Report) : Prop where
  withoutResults : r.withoutResults = s.withoutResults
  results : List.Forall₂ AnalyzerResult.Alike r.analyzerResults s.analyzerResults

/-- Two answers of runs: reports that are alike, or errors that are alike. -/
inductive AnswersAlike : Except RunError Report → Except RunError Report → Prop where
  | ok {r s : Report} : r.Alike s → AnswersAlike (.ok r) (.ok s)
  | error {e e' : RunError} : e.Alike e' → AnswersAlike (.error e) (.error e')

namespace Execution.Alike

variable {e e' : Execution}

/-- Executions that are alike have results that are alike. -/
lemma result (h : e.Alike e') : e.result.Alike e'.result := by
  cases h with
  | succeeded => exact ⟨rfl, .none⟩
  | failed name version _ _ hfault => exact ⟨rfl, .some ⟨_, _, hfault, rfl, rfl⟩⟩

/-- Executions that are alike have the same issues. -/
lemma issues (h : e.Alike e') : e.issues = e'.issues := by
  cases h <;> rfl

/-- Executions that are alike have faults that are alike. -/
lemma fault (h : e.Alike e') : Option.Rel Fault.Alike e.fault e'.fault := by
  cases h with
  | succeeded => exact .none
  | failed _ _ _ _ hfault => exact .some hfault

/-- Without their times and faults, executions that are alike are the same. -/
lemma bare_eq (h : e.Alike e') : e.bare = e'.bare := by
  cases h <;> rfl

/-- Executions that are alike and have the same fault differ in nothing but their times. -/
lemma untimed_eq (h : e.Alike e') (hfault : e.fault = e'.fault) : e.untimed = e'.untimed := by
  cases h with
  | succeeded => rfl
  | failed =>
    obtain rfl := Option.some.inj hfault
    rfl

/-- What two analyzers of one name and version come to is alike if their outcomes are. -/
lemma ofOutcome {a b : Analyzer} (hname : a.name = b.name) (hversion : a.version = b.version)
    (fileCount milliseconds milliseconds' : Nat) {outcome outcome' : Except Fault (List Issue)}
    (h : OutcomesAlike outcome outcome') :
    (Execution.ofOutcome a fileCount milliseconds outcome).Alike
      (Execution.ofOutcome b fileCount milliseconds' outcome') := by
  cases h with
  | ok issues =>
    show Alike ⟨.succeeded a.name a.version _ _ _, _, _⟩ _
    rw [hname, hversion]
    exact .succeeded ..
  | error hfault =>
    show Alike ⟨.failed a.name a.version _ _, _, _⟩ _
    rw [hname, hversion]
    exact .failed _ _ _ _ hfault

end Execution.Alike

section Lists

variable {executions executions' : List Execution}

/-- Executions that are alike one by one are the same without their times and faults. -/
lemma map_bare_of_alike (h : List.Forall₂ Execution.Alike executions executions') :
    executions.map Execution.bare = executions'.map Execution.bare := by
  rw [← List.forall₂_eq_eq_eq, List.forall₂_map_left_iff, List.forall₂_map_right_iff]
  exact h.imp fun _ _ => Execution.Alike.bare_eq

/-- Executions that are alike one by one have results that are alike one by one. -/
lemma results_of_alike (h : List.Forall₂ Execution.Alike executions executions') :
    List.Forall₂ AnalyzerResult.Alike (executions.map Execution.result)
      (executions'.map Execution.result) := by
  rw [List.forall₂_map_left_iff, List.forall₂_map_right_iff]
  exact h.imp fun _ _ => Execution.Alike.result

/-- If the faults are the same as well, only the times are left to differ. -/
lemma map_untimed_of_alike (h : List.Forall₂ Execution.Alike executions executions')
    (hfaults : executions.map Execution.fault = executions'.map Execution.fault) :
    executions.map Execution.untimed = executions'.map Execution.untimed := by
  induction h with
  | nil => rfl
  | cons hhead _ ih =>
    obtain ⟨hfault, hrest⟩ := List.cons.inj hfaults
    rw [List.map_cons, List.map_cons, hhead.untimed_eq hfault, ih hrest]

/-- What ends a run at the first failure is alike if the executions are. -/
lemma abort?_of_alike (h : List.Forall₂ Execution.Alike executions executions') (failFast : Bool) :
    Option.Rel RunError.Alike (Course.abort? failFast executions)
      (Course.abort? failFast executions') := by
  cases failFast with
  | false => exact .none
  | true =>
    rw [Course.abort?_true, Course.abort?_true]
    induction h with
    | nil => exact .none
    | cons hhead _ ih =>
      cases hhead with
      | succeeded => exact ih
      | failed name _ _ _ hfault => exact .some (.analyzer name hfault)

/-- What ends a run at the first failure does not depend on times. -/
lemma abort?_untimed (failFast : Bool) (executions : List Execution) :
    Course.abort? failFast (executions.map Execution.untimed) = Course.abort? failFast executions := by
  cases failFast with
  | false => rfl
  | true =>
    rw [Course.abort?_true, List.findSome?_map]
    rfl

/-- If the faults are the same as well, so is what ends a run at the first failure. -/
lemma abort?_eq_of_alike (h : List.Forall₂ Execution.Alike executions executions')
    (hfaults : executions.map Execution.fault = executions'.map Execution.fault) (failFast : Bool) :
    Course.abort? failFast executions = Course.abort? failFast executions' := by
  rw [← abort?_untimed, map_untimed_of_alike h hfaults, abort?_untimed]

end Lists

section Assembly

variable (files : List Path) (executions : List Execution)

/-- The results without times and texts are those of the executions without times and faults. -/
lemma map_result_bare :
    (executions.map Execution.bare).map Execution.result
      = (executions.map Execution.result).map AnalyzerResult.bare := by
  rw [List.map_map, List.map_map]
  rfl

/-- The results without times are those of the executions without times. -/
lemma map_result_untimed :
    (executions.map Execution.untimed).map Execution.result
      = (executions.map Execution.result).map AnalyzerResult.untimed := by
  rw [List.map_map, List.map_map]
  rfl

/-- Neither time nor text decides what counts as a failure. -/
lemma countP_isFailed_bare (results : List AnalyzerResult) :
    (results.map AnalyzerResult.bare).countP AnalyzerResult.isFailed
      = results.countP AnalyzerResult.isFailed := by
  rw [List.countP_map]
  rfl

/-- Neither times nor faults decide which issues are kept. -/
lemma flatMap_kept_bare :
    (executions.map Execution.bare).flatMap (·.kept files)
      = executions.flatMap (·.kept files) := by
  rw [List.flatMap_map]
  rfl

/-- Neither times nor faults decide how the issues are tallied. -/
lemma tallies_bare :
    FileTallies.ofExecutions files (executions.map Execution.bare)
      = FileTallies.ofExecutions files executions := by
  rw [FileTallies.ofExecutions, List.foldl_map]
  rfl

/-- Which names have a time is decided by nothing but the names. -/
lemma analyzerTimes_bare (results : List AnalyzerResult) :
    (NameMap.ofList ((results.map AnalyzerResult.bare).map fun r => (r.name, r.milliseconds))).map
        (Prod.map id fun _ => 0)
      = (NameMap.ofList (results.map fun r => (r.name, r.milliseconds))).map
        (Prod.map id fun _ => 0) := by
  rw [NameMap.map_ofList, NameMap.map_ofList, List.map_map, List.map_map, List.map_map]
  rfl

/-- Executions that are alike one by one have the same issues that are kept. -/
lemma kept_of_alike {executions executions' : List Execution}
    (h : List.Forall₂ Execution.Alike executions executions') :
    executions.flatMap (·.kept files) = executions'.flatMap (·.kept files) := by
  rw [← flatMap_kept_bare, map_bare_of_alike h, flatMap_kept_bare]

/-- Of executions that are alike one by one equally many have failed. -/
lemma failures_of_alike {executions executions' : List Execution}
    (h : List.Forall₂ Execution.Alike executions executions') :
    (executions.map Execution.result).countP AnalyzerResult.isFailed
      = (executions'.map Execution.result).countP AnalyzerResult.isFailed := by
  rw [← countP_isFailed_bare, ← map_result_bare, map_bare_of_alike h, map_result_bare,
    countP_isFailed_bare]

/-- Beside results, times and configuration, a report is made of the executions without their times
and faults. -/
lemma withoutResults_assemble {config config' : RunConfig}
    (h : config.recommendations = config'.recommendations)
    (templates : List RecommendationTemplate) (fs : FileSystem) (now now' : Timestamp)
    (milliseconds milliseconds' : Nat) :
    (Report.assemble config templates fs now files executions milliseconds).withoutResults
      = (Report.assemble config' templates fs now' files (executions.map Execution.bare)
        milliseconds').withoutResults := by
  simp only [Report.assemble, Report.withoutResults, Report.untimed, flatMap_kept_bare,
    map_result_bare, countP_isFailed_bare, tallies_bare, analyzerTimes_bare, List.length_map, h]

end Assembly

namespace Report

variable {executions executions' : List Execution}

/-- Executions that are alike make reports that are alike. -/
lemma alike_assemble (files : List Path) {config config' : RunConfig}
    (h : config.recommendations = config'.recommendations)
    (hexecutions : List.Forall₂ Execution.Alike executions executions')
    (templates : List RecommendationTemplate) (fs : FileSystem) (now now' : Timestamp)
    (milliseconds milliseconds' : Nat) :
    (assemble config templates fs now files executions milliseconds).Alike
      (assemble config' templates fs now' files executions' milliseconds') := by
  constructor
  case withoutResults =>
    rw [withoutResults_assemble files executions h templates fs now now' milliseconds milliseconds',
      map_bare_of_alike hexecutions, ← withoutResults_assemble files executions' rfl]
  case results => exact results_of_alike hexecutions

/-- Reports that are alike and have the same results but for times agree but for times. -/
lemma Alike.untimed_eq {r s : Report} (h : r.Alike s)
    (hresults : r.analyzerResults.map AnalyzerResult.untimed
      = s.analyzerResults.map AnalyzerResult.untimed) : r.untimed = s.untimed := by
  calc r.untimed
      = { r.withoutResults with analyzerResults := r.analyzerResults.map AnalyzerResult.untimed } :=
        rfl
    _ = { s.withoutResults with analyzerResults := s.analyzerResults.map AnalyzerResult.untimed } := by
        rw [h.withoutResults, hresults]
    _ = s.untimed := rfl

end Report

end CodeAudit
