import CodeAudit.Proofs.Run.Lifecycle
/-!
# Phases

An orchestrator is idle until a call of it passes the check of the configuration. Such a call goes
through the phases one after the other and leaves the orchestrator done, be it with a report or with
the failure that ended the run. A call with a bad configuration comes to nothing.
-/
namespace CodeAudit

/-- The moves from one phase to the next. -/
inductive Phase.Turn : Phase → Phase → Prop where
  | start : Turn .idle .preparing
  | restart : Turn .done .preparing
  | prepared : Turn .preparing .executing
  | executed : Turn .executing .aggregating
  /-- A failure has ended the run. -/
  | broken : Turn .executing .done
  | aggregated : Turn .aggregating .done

/-- Whether the answer of a run is what a report is made of. -/
def Progress.reports (s : Progress) : Bool :=
  s.answer.any Except.isOk

namespace RunStage

/-- The phase of an orchestrator at a stage of a run. A run that has failed clears up before it leaves
the phase that it failed in. -/
def phase : RunStage → Phase
  | preparing _ _ => .preparing
  | executing _ _ => .executing
  | clearing _ s => if s.reports then .aggregating else .executing

/-- The phases that a run has gone through at a stage. -/
def passed : RunStage → List Phase
  | preparing _ _ => [.preparing]
  | executing _ _ => [.preparing, .executing]
  | clearing _ s =>
    if s.reports then [.preparing, .executing, .aggregating] else [.preparing, .executing]

/-- The phase that a step of a run enters, if it enters one. -/
def entered (stage next : RunStage) : List Phase :=
  if next.phase = stage.phase then [] else [next.phase]

/-- The last phase that has been gone through is that of the stage. -/
lemma getLast?_passed (stage : RunStage) : stage.passed.getLast? = some stage.phase := by
  cases stage with
  | preparing => rfl
  | executing => rfl
  | clearing left s =>
    rw [passed, phase]
    cases s.reports <;> rfl

/-- A step adds the phase that it enters to those that the run has gone through. -/
lemma Step.passed_eq {o : Orchestrator} {t : Terms} {stage next : RunStage} {seen : List Occurrence}
    (h : Step o t stage seen next) : next.passed = stage.passed ++ stage.entered next := by
  cases h with
  | enlist => rfl
  | begin => rfl
  | advance => rfl
  | @conclude crew s =>
    rw [passed, passed, entered, phase, phase]
    cases s.reports <;> rfl
  | @clear r left s =>
    have hphase : (clearing left s).phase = (clearing (r :: left) s).phase := rfl
    rw [entered, if_pos hphase, List.append_nil]
    rfl

end RunStage

namespace Orchestrator

/-- A run of an orchestrator to a stage, with the phases that it has gone through. -/
inductive Phased (o : Orchestrator) (workspace : Workspace) (paths : List Path) :
    List Phase → RunStage → Prop where
  | outset :
    o.config.problem? = none →
    Phased o workspace paths [.preparing] (.preparing o.registry.entries {})
  | tail {passed stage seen next} :
    Phased o workspace paths passed stage →
    RunStage.Step o (o.terms workspace paths) stage seen next →
    Phased o workspace paths (passed ++ stage.entered next) next

variable {o : Orchestrator} {workspace : Workspace} {now : Timestamp} {paths : List Path}
  {passed : List Phase} {stage : RunStage} {seen : List Occurrence} {s : Progress}

/-- The phases that a run has gone through are those of its stage. -/
lemma Phased.passed_eq (h : o.Phased workspace paths passed stage) : passed = stage.passed := by
  induction h with
  | outset => rfl
  | tail _ step ih => rw [ih, step.passed_eq]

/-- A run with its phases is a run. -/
lemma Phased.exists_lives (h : o.Phased workspace paths passed stage) :
    ∃ seen, o.Lives workspace paths seen stage := by
  induction h with
  | outset hvalid => exact ⟨[], .outset hvalid⟩
  | tail _ step ih =>
    obtain ⟨seen, hlives⟩ := ih
    exact ⟨_, hlives.tail step⟩

/-- Every run goes through the phases of its stages. -/
lemma Lives.phased (h : o.Lives workspace paths seen stage) :
    o.Phased workspace paths stage.passed stage := by
  induction h with
  | outset hvalid => exact .outset hvalid
  | tail _ step ih =>
    rw [step.passed_eq]
    exact ih.tail step

/-- When a run has cleared up, its record has the phases that the run has gone through, and the last
one after them. -/
lemma Lives.phases_execute {left : List ReadyAnalyzer}
    (h : o.Lives workspace paths seen (.clearing left s)) :
    (o.execute workspace now paths).phases = (RunStage.clearing left s).passed ++ [.done] := by
  generalize hstage : RunStage.clearing left s = stage at h
  cases h.staged with
  | preparing => exact absurd hstage nofun
  | executing => exact absurd hstage nofun
  | clearing hrecorded hanswer =>
    obtain ⟨answer, hs⟩ := Option.ne_none_iff_exists'.1 hanswer
    obtain ⟨houtcome, -⟩ := course_of_answer hrecorded.reaches hs
    -- the answer that the run has come to is the outcome of the batches in order
    rw [execute_of_valid h.problem?_eq_none, houtcome, RunStage.passed, Progress.reports, hs]
    cases answer <;> rfl

/-- How a call goes that finds an orchestrator in the phase `before`, leaves it in the phase `after`,
and leaves the given record. -/
structure InTurn (o : Orchestrator) (workspace : Workspace) (paths : List Path) (before after : Phase)
    (record : RunRecord) : Prop where
  /-- The ways to go through the phases. -/
  phases : record.phases = [] ∨ record.phases = [.preparing, .executing, .aggregating, .done] ∨
    record.phases = [.preparing, .executing, .done]
  refused : record.phases = [] ↔ o.config.problem? ≠ none
  reported : record.phases = [.preparing, .executing, .aggregating, .done] ↔
    ∃ report, record.result = .ok report
  broken : record.phases = [.preparing, .executing, .done] ↔
    ∃ name fault, record.result = .error (.analyzer name fault)
  /-- Only a run that is to end at a failure does, and then one of its analyzers has failed. -/
  failed : ∀ name fault, record.result = .error (.analyzer name fault) →
    o.config.failFast = true ∧
      ∃ e ∈ o.executions workspace paths, e.result.name = name ∧ e.fault = some fault
  /-- A call with a bad configuration comes to nothing. -/
  untouched : o.config.problem? ≠ none →
    (∃ message, record.result = .error (.configuration message)) ∧ record.events = [] ∧
      after = before
  settled : o.config.problem? = none → after = .done
  complete : o.config.problem? = none →
    ∃ passed s, o.Phased workspace paths passed (.clearing [] s)
  moments : ∀ passed stage, o.Phased workspace paths passed stage →
    passed <+: record.phases ∧ passed.getLast? = some stage.phase
  last : ∀ passed s, o.Phased workspace paths passed (.clearing [] s) →
    record.phases = passed ++ [.done]

/-- A run with a good configuration goes through all phases to its report, or leaves one out for a
failure. -/
lemma phases_execute_of_valid (hvalid : o.config.problem? = none) :
    ((o.execute workspace now paths).phases = [.preparing, .executing, .aggregating, .done] ∧
        ∃ report, (o.execute workspace now paths).result = .ok report) ∨
      ((o.execute workspace now paths).phases = [.preparing, .executing, .done] ∧
        o.config.failFast = true ∧ ∃ e ∈ o.executions workspace paths, ∃ fault,
          e.fault = some fault ∧
          (o.execute workspace now paths).result = .error (.analyzer e.result.name fault)) := by
  rw [execute_of_valid hvalid, outcome_course_eq]
  cases habort : Course.abort? o.config.failFast (o.executions workspace paths) with
  | none => exact .inl ⟨rfl, _, rfl⟩
  | some error =>
    obtain ⟨hfast, e, he, fault, hfault, rfl⟩ := Course.exists_of_abort?_eq_some habort
    exact .inr ⟨rfl, hfast, e, he, fault, hfault, rfl⟩

/-- A run goes through the phases that its record has, wherever it stands. -/
lemma Phased.prefix_phases (h : o.Phased workspace paths passed stage) :
    passed <+: (o.execute workspace now paths).phases := by
  obtain ⟨seen, hlives⟩ := h.exists_lives
  rw [h.passed_eq]
  cases stage with
  | clearing left s =>
    rw [hlives.phases_execute]
    exact List.prefix_append _ _
  | preparing left crew =>
    obtain ⟨hphases, -⟩ | ⟨hphases, -⟩ := phases_execute_of_valid hlives.problem?_eq_none <;>
    · rw [hphases]
      exact List.prefix_append [Phase.preparing] _
  | executing crew s =>
    obtain ⟨hphases, -⟩ | ⟨hphases, -⟩ := phases_execute_of_valid hlives.problem?_eq_none <;>
    · rw [hphases]
      exact List.prefix_append [Phase.preparing, .executing] _

/-- A call leaves an orchestrator in the last phase that it goes through, and in the phase that it was
in if it goes through none. -/
lemma phase_run :
    (o.run workspace now paths).2.phase
      = (o.execute workspace now paths).phases.getLast?.getD o.phase :=
  rfl

/-- A call with a bad configuration leaves an orchestrator in its phase. -/
lemma inTurn_run_of_problem (hproblem : o.config.problem? ≠ none) :
    o.InTurn workspace paths o.phase (o.run workspace now paths).2.phase
      (o.execute workspace now paths) := by
  have hnot {passed stage} : ¬ o.Phased workspace paths passed stage := fun h => by
    obtain ⟨seen, hlives⟩ := h.exists_lives
    exact hproblem hlives.problem?_eq_none
  obtain ⟨problem, hsome⟩ := Option.ne_none_iff_exists'.1 hproblem
  rw [phase_run, execute_of_problem hsome]
  exact {
    phases := .inl rfl
    refused := iff_of_true rfl hproblem
    reported := by simp
    broken := by simp
    failed := by simp
    untouched := fun _ => ⟨⟨_, rfl⟩, rfl, rfl⟩
    settled := fun hvalid => absurd hvalid hproblem
    complete := fun hvalid => absurd hvalid hproblem
    moments := fun _ _ h => absurd h hnot
    last := fun _ _ h => absurd h hnot }

/-- A run with a good configuration can be taken to its end. -/
lemma exists_phased_clearing (hvalid : o.config.problem? = none) :
    ∃ passed s, o.Phased workspace paths passed (.clearing [] s) := by
  obtain ⟨more, s, hlives⟩ := (Lives.outset hvalid).exists_complete
  exact ⟨_, s, hlives.phased⟩

/-- At each stage, the phases so far are the first ones of the record. -/
lemma Phased.stands (h : o.Phased workspace paths passed stage) :
    passed <+: (o.execute workspace now paths).phases ∧ passed.getLast? = some stage.phase :=
  ⟨h.prefix_phases, h.passed_eq ▸ stage.getLast?_passed⟩

/-- A run that is over is done after the phases that it has gone through. -/
lemma Phased.phases_execute (h : o.Phased workspace paths passed (.clearing [] s)) :
    (o.execute workspace now paths).phases = passed ++ [.done] := by
  obtain ⟨seen, hlives⟩ := h.exists_lives
  rw [h.passed_eq, hlives.phases_execute]

/-- A call with a good configuration leaves an orchestrator done. -/
lemma inTurn_run_of_valid (hvalid : o.config.problem? = none) :
    o.InTurn workspace paths o.phase (o.run workspace now paths).2.phase
      (o.execute workspace now paths) := by
  obtain ⟨hphases, report, hresult⟩ | ⟨hphases, hfast, e, he, fault, hfault, hresult⟩ :=
    @phases_execute_of_valid o workspace now paths hvalid
  · exact {
      phases := .inr (.inl hphases)
      refused := by simp [hphases, hvalid]
      reported := iff_of_true hphases ⟨report, hresult⟩
      broken := by simp [hphases, hresult]
      failed := by simp [hresult]
      untouched := fun hproblem => absurd hvalid hproblem
      settled := fun _ => by rw [phase_run, hphases]; rfl
      complete := exists_phased_clearing
      moments := fun _ _ => Phased.stands
      last := fun _ _ => Phased.phases_execute }
  · exact {
      phases := .inr (.inr hphases)
      refused := by simp [hphases, hvalid]
      reported := by simp [hphases, hresult]
      broken := iff_of_true hphases ⟨_, _, hresult⟩
      failed := by
        intro name fault' hfailed
        rw [hresult] at hfailed
        cases hfailed
        exact ⟨hfast, e, he, rfl, hfault⟩
      untouched := fun hproblem => absurd hvalid hproblem
      settled := fun _ => by rw [phase_run, hphases]; rfl
      complete := exists_phased_clearing
      moments := fun _ _ => Phased.stands
      last := fun _ _ => Phased.phases_execute }

/-- Every call takes its turn. -/
lemma inTurn_run (o : Orchestrator) (workspace : Workspace) (now : Timestamp) (paths : List Path) :
    o.InTurn workspace paths o.phase (o.run workspace now paths).2.phase
      (o.run workspace now paths).1 := by
  by_cases hvalid : o.config.problem? = none
  · exact inTurn_run_of_valid hvalid
  · exact inTurn_run_of_problem hvalid

/-- The records of the calls of an orchestrator so far, and the phase in which it rests after them. -/
structure Rests (records : List RunRecord) (phase : Phase) : Prop where
  turns : List.IsChain Phase.Turn (.idle :: records.flatMap RunRecord.phases)
  last : (Phase.idle :: records.flatMap RunRecord.phases).getLast? = some phase
  rest : phase = .idle ∨ phase = .done
  /-- It is idle as long as no call has passed the check of the configuration. -/
  idle : phase = .idle ↔
    ∀ record ∈ records, ∃ message, record.result = .error (.configuration message)

/-- Before any call an orchestrator is idle. -/
lemma rests_nil : Rests [] .idle where
  turns := List.isChain_singleton _
  last := rfl
  rest := .inl rfl
  idle := iff_of_true rfl fun _ h => absurd h List.not_mem_nil

variable {before after : Phase} {record : RunRecord} {records : List RunRecord}

/-- A call with a good configuration does not end with a complaint about it. -/
lemma InTurn.ne_configuration (h : o.InTurn workspace paths before after record)
    (hvalid : o.config.problem? = none) (message : String) :
    record.result ≠ .error (.configuration message) := by
  intro hresult
  obtain hphases | hphases | hphases := h.phases
  · exact h.refused.1 hphases hvalid
  · obtain ⟨report, hreport⟩ := h.reported.1 hphases
    exact absurd (hreport.symm.trans hresult) nofun
  · obtain ⟨name, fault, hfailed⟩ := h.broken.1 hphases
    exact absurd (hfailed.symm.trans hresult) nofun

/-- The phases of a call follow each other, and end with the last one. -/
lemma InTurn.turns (h : o.InTurn workspace paths before after record)
    (hvalid : o.config.problem? = none) :
    ∃ rest, record.phases = .preparing :: rest ∧
      List.IsChain Phase.Turn (.preparing :: rest) ∧ record.phases.getLast? = some .done := by
  obtain hphases | hphases | hphases := h.phases
  · exact absurd hvalid (h.refused.1 hphases)
  · refine ⟨_, hphases, ?_, by rw [hphases]; rfl⟩
    exact .cons_cons .prepared (.cons_cons .executed (.cons_cons .aggregated (.singleton _)))
  · refine ⟨_, hphases, ?_, by rw [hphases]; rfl⟩
    exact .cons_cons .prepared (.cons_cons .broken (.singleton _))

/-- One more call leaves an orchestrator at rest. -/
lemma Rests.concat (h : Rests records before) (hcall : o.InTurn workspace paths before after record) :
    Rests (records ++ [record]) after := by
  have hphases : (Phase.idle :: (records ++ [record]).flatMap RunRecord.phases)
      = (Phase.idle :: records.flatMap RunRecord.phases) ++ record.phases := by
    rw [List.flatMap_append, List.flatMap_singleton, List.cons_append]
  by_cases hvalid : o.config.problem? = none
  · obtain ⟨rest, hrecord, hturns, hlast⟩ := hcall.turns hvalid
    obtain rfl := hcall.settled hvalid
    constructor
    case turns =>
      rw [hphases, List.isChain_append]
      refine ⟨h.turns, hrecord ▸ hturns, ?_⟩
      -- the call starts in the phase in which the one before it ended
      rw [h.last, hrecord]
      rintro _ ⟨⟩ _ ⟨⟩
      obtain rfl | rfl := h.rest
      · exact .start
      · exact .restart
    case last => rw [hphases, List.getLast?_append, hlast, Option.some_or]
    case rest => exact .inr rfl
    case idle =>
      refine iff_of_false nofun fun hall => ?_
      obtain ⟨message, hmessage⟩ := hall record (List.mem_append_right _ (List.mem_singleton_self _))
      exact hcall.ne_configuration hvalid message hmessage
  · obtain ⟨hrefused, -, rfl⟩ := hcall.untouched hvalid
    rw [hcall.refused.2 hvalid, List.append_nil] at hphases
    constructor
    case turns => rw [hphases]; exact h.turns
    case last => rw [hphases]; exact h.last
    case rest => exact h.rest
    case idle =>
      rw [h.idle, List.forall_mem_append, List.forall_mem_singleton]
      exact (and_iff_left hrefused).symm

/-- The last of some calls comes after all others. -/
lemma runs_concat (o : Orchestrator) (visits : List Visit) (v : Visit) :
    o.runs (visits ++ [v])
      = ((o.runs visits).1
          ++ [(((o.runs visits).2.behaving v.behaviour).run v.workspace v.now v.paths).1],
        (((o.runs visits).2.behaving v.behaviour).run v.workspace v.now v.paths).2) := by
  induction visits generalizing o with
  | nil => rfl
  | cons first rest ih =>
    have hrest := ih ((o.behaving first.behaviour).run first.workspace first.now first.paths).2
    exact congrArg (fun later =>
      (((o.behaving first.behaviour).run first.workspace first.now first.paths).1 :: later.1,
        later.2)) hrest

/-- After each call an orchestrator rests. -/
lemma rests_runs (hidle : o.phase = .idle) (visits : List Visit) :
    Rests (o.runs visits).1 (o.runs visits).2.phase := by
  induction visits using List.reverseRecOn with
  | nil => exact hidle ▸ rests_nil
  | append_singleton visits v ih =>
    rw [runs_concat]
    exact ih.concat (inTurn_run ((o.runs visits).2.behaving v.behaviour) _ _ _)

/-- However often an orchestrator is called, with whatever files and whatever its analyzers do, it is
idle or done between the calls, and idle as long as all have been refused. Each call goes through the
phases in turn, in whatever order its invocations settle, and is refused only for a bad
configuration. -/
theorem phases_in_turn (hidle : o.phase = .idle) (visits : List Visit) :
    Rests (o.runs visits).1 (o.runs visits).2.phase ∧
      ∀ v, ∃ record next, o.runs (visits ++ [v]) = ((o.runs visits).1 ++ [record], next) ∧
        ((o.runs visits).2.behaving v.behaviour).InTurn v.workspace v.paths
          (o.runs visits).2.phase next.phase record := by
  refine ⟨rests_runs hidle visits, fun v => ⟨_, _, runs_concat o visits v, ?_⟩⟩
  exact inTurn_run ((o.runs visits).2.behaving v.behaviour) _ _ _

/-- The first call finds nothing to do and reports that, the second one ends at a failure. -/
theorem mixedOrchestrator_in_turn :
    mixedOrchestrator.phase = .idle ∧
      ∃ first second last, mixedOrchestrator.runs mixedVisits = ([first, second], last) ∧
        first.phases = [.preparing, .executing, .aggregating, .done] ∧
        second.phases = [.preparing, .executing, .done] ∧
        last.phase = .done ∧ Rests [first, second] last.phase := by
  obtain ⟨report, hreport⟩ : ∃ report, (mixedOrchestrator.behaving fun _ _ => .error .timeout).Ends
      emptyWorkspace default [] (.ok report) := ⟨_, (ends_iff_of_no_abort rfl rfl).2 rfl⟩
  have hfailure : (mixedOrchestrator.behaving mixedBehaviour).Ends emptyWorkspace default []
      (.error (.analyzer "faulty" (.execution "stop"))) := (ends_iff_of_abort rfl rfl).2 rfl
  rw [ends_iff_result_execute] at hreport hfailure
  obtain ⟨-, hcalls⟩ := phases_in_turn (o := mixedOrchestrator) rfl []
  obtain ⟨first, next, hfirst, hturn⟩ := hcalls (mixedVisits[0])
  obtain ⟨-, hcalls⟩ := phases_in_turn (o := mixedOrchestrator) rfl [mixedVisits[0]]
  obtain ⟨second, last, hsecond, hturn'⟩ := hcalls (mixedVisits[1])
  obtain ⟨hrests, -⟩ := phases_in_turn (o := mixedOrchestrator) rfl mixedVisits
  obtain ⟨hrecords, -⟩ := Prod.mk.inj hfirst
  obtain rfl := List.head_eq_of_cons_eq hrecords
  obtain ⟨hrecords, rfl⟩ := Prod.mk.inj hsecond
  obtain rfl := List.head_eq_of_cons_eq (List.tail_eq_of_cons_eq hrecords)
  refine ⟨rfl, _, _, _, rfl, hturn.reported.2 ⟨report, hreport⟩, hturn'.broken.2 ⟨_, _, hfailure⟩,
    hturn'.settled rfl, hrests⟩

end Orchestrator

end CodeAudit
