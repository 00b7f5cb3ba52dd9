import CodeAudit.Proofs.Run.Interleaving
/-!
# What a run ends with

A run of an orchestrator may end with any result that some order of its steps leads to. There is
only one: the result that the orchestrator computes by taking the batches in order.
-/
namespace CodeAudit

namespace Orchestrator

/-- What the invocations of a run of an orchestrator have in common. -/
def terms (o : Orchestrator) (workspace : Workspace) (paths : List Path) : Terms where
  workspace := workspace
  files := Path.distinct paths
  timeout := o.config.timeoutMs
  failFast := o.config.failFast

/-- A run of an orchestrator before its first batch is opened. -/
def outset (o : Orchestrator) : Progress where
  waiting := batches o.config.batchSize (participants o.config o.registry)

/-- The results that a run may end with, its invocations settling in some order. -/
inductive Ends (o : Orchestrator) (workspace : Workspace) (now : Timestamp) (paths : List Path) :
    Except RunError Report → Prop where
  | invalid {problem} :
    o.config.problem? = some problem →
    Ends o workspace now paths (.error (.configuration problem.message))
  | aborted {s error} :
    o.config.problem? = none →
    Progress.Reaches (o.terms workspace paths) o.outset s →
    s.answer = some (.error error) →
    Ends o workspace now paths (.error error)
  | reported {s executions} :
    o.config.problem? = none →
    Progress.Reaches (o.terms workspace paths) o.outset s →
    s.answer = some (.ok executions) →
    Ends o workspace now paths (.ok (.assemble o.config o.templates workspace.files now
      (Path.distinct paths) executions s.milliseconds))

variable {o : Orchestrator} {workspace : Workspace} {now : Timestamp} {paths : List Path}

/-- The course that the batches of an orchestrator take in order. -/
def course (o : Orchestrator) (workspace : Workspace) (paths : List Path) : Course :=
  Course.run o.config.failFast (o.terms workspace paths).execute
    (batches o.config.batchSize (participants o.config o.registry))

/-- The crew of an orchestrator takes that course. -/
lemma course_of_crew :
    Course.run o.config.failFast
        (Execution.run workspace o.config.timeoutMs (Path.distinct paths))
        (batches o.config.batchSize (Crew.assemble o.config o.registry).ready)
      = o.course workspace paths := by
  rw [Crew.ready_assemble]
  rfl

/-- A run that has an answer has been through the whole course. -/
lemma course_of_answer {s : Progress} {a : Except RunError (List Execution)}
    (hreaches : Progress.Reaches (o.terms workspace paths) o.outset s) (ha : s.answer = some a) :
    (o.course workspace paths).outcome = a ∧ (o.course workspace paths).milliseconds = s.milliseconds :=
  hreaches.onCourse.answer a ha

/-- What a run with a bad configuration comes to. -/
lemma execute_of_problem {problem : RunConfig.Problem} (h : o.config.problem? = some problem) :
    o.execute workspace now paths
      = { result := .error (.configuration problem.message)
          phases := []
          events := []
          milliseconds := 0 } := by
  rw [execute, h]

/-- A run with a bad configuration ends with what is wrong with it. -/
lemma result_execute_of_problem {problem : RunConfig.Problem}
    (h : o.config.problem? = some problem) :
    (o.execute workspace now paths).result = .error (.configuration problem.message) := by
  rw [execute_of_problem h]

/-- A run whose course ends in an error ends with that error. -/
lemma result_execute_of_error {error : RunError} (hvalid : o.config.problem? = none)
    (h : (o.course workspace paths).outcome = .error error) :
    (o.execute workspace now paths).result = .error error := by
  simp only [execute, hvalid, course_of_crew, h]

/-- A run whose course comes to executions ends with their report. -/
lemma result_execute_of_ok {executions : List Execution} (hvalid : o.config.problem? = none)
    (h : (o.course workspace paths).outcome = .ok executions) :
    (o.execute workspace now paths).result = .ok (.assemble o.config o.templates workspace.files now
      (Path.distinct paths) executions (o.course workspace paths).milliseconds) := by
  simp only [execute, hvalid, course_of_crew, h]

/-- In whatever order its invocations settle, a run ends with the one result of the orchestrator. -/
theorem ends_iff_result_execute {result : Except RunError Report} :
    o.Ends workspace now paths result ↔ (o.execute workspace now paths).result = result := by
  constructor
  · intro h
    cases h with
    | invalid hproblem => exact result_execute_of_problem hproblem
    | aborted hvalid hreaches hanswer =>
      exact result_execute_of_error hvalid (course_of_answer hreaches hanswer).1
    | reported hvalid hreaches hanswer =>
      obtain ⟨houtcome, hmilliseconds⟩ := course_of_answer hreaches hanswer
      rw [result_execute_of_ok hvalid houtcome, hmilliseconds]
  · rintro rfl
    cases hproblem : o.config.problem? with
    | some problem =>
      rw [result_execute_of_problem hproblem]
      exact .invalid hproblem
    | none =>
      obtain ⟨s, a, hreaches, hanswer⟩ :=
        Progress.exists_answer (o.terms workspace paths) o.outset
      obtain ⟨houtcome, hmilliseconds⟩ := course_of_answer hreaches hanswer
      cases a with
      | error error =>
        rw [result_execute_of_error hproblem houtcome]
        exact .aborted hproblem hreaches hanswer
      | ok executions =>
        rw [result_execute_of_ok hproblem houtcome, hmilliseconds]
        exact .reported hproblem hreaches hanswer

end Orchestrator

end CodeAudit
