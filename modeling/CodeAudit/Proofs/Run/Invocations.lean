import CodeAudit.Proofs.Run.Ending
/-!
# Which analyzers are invoked

Along a run it is noted which invocations start. In whatever order that is, by the time that a run
has its answer each analyzer of the batches that its course starts has been invoked once, and no
other analyzer at all.
-/
namespace CodeAudit

/-- Whether the invocation has been started. -/
def Slot.started (slot : Slot) : Bool :=
  match slot.state with
  | .planned => false
  | _ => true

/-- An invocation that takes a step has been started. -/
lemma Slot.Step.started {t : Terms} {runCancelled : Bool} {slot next : Slot}
    (step : Step t runCancelled slot next) : next.started = true := by
  cases step <;> rfl

namespace Progress

/-- The analyzers of the open batch whose invocations have been started. -/
def underway (s : Progress) : List ReadyAnalyzer :=
  (s.flight.filter Slot.started).map Slot.worker

/-- The analyzers whose invocations start in a step: they had not been started before it. -/
def begun (s next : Progress) : List ReadyAnalyzer :=
  ((s.flight.zip next.flight).filter fun c => !c.1.started && c.2.started).map (·.2.worker)

/-- A run to a state, with the analyzers that are invoked on the way. -/
inductive Logged (t : Terms) (s : Progress) : List ReadyAnalyzer → Progress → Prop where
  | refl : Logged t s [] s
  | tail {log middle last} :
    Logged t s log middle →
    Step t middle last →
    Logged t s (log ++ begun middle last) last

/-- A run that is logged is a run. -/
lemma Logged.reaches {t : Terms} {s last : Progress} {log : List ReadyAnalyzer}
    (h : Logged t s log last) : Reaches t s last := by
  induction h with
  | refl => exact .refl
  | tail _ step ih => exact .tail ih step

/-- Every run can be logged. -/
lemma Reaches.exists_logged {t : Terms} {s last : Progress} (h : Reaches t s last) :
    ∃ log, Logged t s log last := by
  induction h with
  | refl => exact ⟨[], .refl⟩
  | tail _ step ih =>
    obtain ⟨log, hlog⟩ := ih
    exact ⟨_, .tail hlog step⟩

/-- An invocation that stays what it was has not just been started. -/
lemma filter_zip_self (flight : List Slot) :
    ((flight.zip flight).filter fun c => !c.1.started && c.2.started) = [] := by
  induction flight with
  | nil => rfl
  | cons slot rest ih =>
    rw [List.zip_cons_cons, List.filter_cons_of_neg (by simp), ih]

/-- If the invocations of a batch have settled, all of them are under way. -/
lemma Settled.underway {s : Progress} {executions : List Execution} (h : s.Settled executions) :
    s.underway = s.flight.map Slot.worker := by
  rw [Progress.underway, List.filter_eq_self.2]
  intro slot hslot
  obtain ⟨e, he⟩ := h.exists_eq hslot
  rw [Slot.started, he]

/-- A step about one invocation brings it under way, and leaves the other invocations alone. -/
lemma underway_perm {t : Terms} {runCancelled : Bool} {front back : List Slot} {slot next : Slot}
    {s s' : Progress} (step : Slot.Step t runCancelled slot next)
    (hs : s.flight = front ++ slot :: back) (hs' : s'.flight = front ++ next :: back) :
    s'.underway.Perm (s.underway ++ begun s s') := by
  have hbegun : begun s s' = if slot.started then [] else [slot.worker] := by
    rw [begun, hs, hs', List.zip_append rfl, List.zip_cons_cons, List.filter_append,
      List.filter_cons, filter_zip_self, filter_zip_self]
    simp only [step.started, Bool.and_true, List.nil_append]
    cases slot.started with
    | true => rfl
    | false => exact congrArg (fun worker => [worker]) step.worker_eq
  rw [hbegun, underway, underway, hs, hs', List.filter_append, List.filter_append,
    List.filter_cons, List.filter_cons, step.started]
  cases hslot : slot.started with
  | true =>
    simp only [if_true, List.append_nil, List.map_append, List.map_cons, step.worker_eq]
    exact .refl _
  | false =>
    simp only [if_true, Bool.false_eq_true, if_false, List.map_append, List.map_cons,
      step.worker_eq, List.append_assoc]
    have hcomm : ([slot.worker] ++ (back.filter Slot.started).map Slot.worker).Perm
        ((back.filter Slot.started).map Slot.worker ++ [slot.worker]) := List.perm_append_comm
    exact hcomm.append_left _

/-- The log of a run has the analyzers of the batches that have been closed and those under way; in
the end it has those of all batches that the course of the run starts. -/
structure Noted (t : Terms) (course : Course) (log : List ReadyAnalyzer) (s : Progress) : Prop where
  ongoing : s.answer = none → ∃ earlier, log.Perm (earlier ++ s.underway) ∧
    course.started.flatten
      = earlier ++ (Course.run t.failFast t.execute s.ahead).started.flatten
  answered : s.answer ≠ none → log.Perm course.started.flatten

/-- Every step notes the invocations that it starts. -/
lemma Step.noted {t : Terms} {course : Course} {log : List ReadyAnalyzer} {s next : Progress}
    (step : Step t s next) (hcourse : OnCourse t course s) (h : Noted t course log s) :
    Noted t course (log ++ begun s next) next := by
  cases step with
  | @openBatch batch rest hanswer hflight hwaiting =>
    obtain ⟨earlier, hlog, hstarted⟩ := h.ongoing hanswer
    refine ⟨fun _ => ⟨earlier, ?_, ?_⟩, fun hne => absurd hanswer hne⟩
    · have hbefore : s.underway = [] := by
        rw [underway, hflight]
        rfl
      have hafter : (batch.map fun worker => ({ worker } : Slot)).filter Slot.started = [] := by
        rw [List.filter_map]
        exact List.map_eq_nil_iff.2 (List.filter_eq_nil_iff.2 fun _ _ => Bool.false_ne_true)
      rw [begun, hflight, underway, hafter]
      rw [hbefore] at hlog
      exact (List.append_nil log).symm ▸ hlog
    · have hahead : s.ahead = [] :: batch :: rest := by
        rw [ahead, hflight, hwaiting, List.map_nil]
      rw [hstarted, hahead, Course.started_run_nil_cons, ahead, Slot.map_worker_open]
  | @invocation front slot slot' back hanswer hflight hstep =>
    obtain ⟨earlier, hlog, hstarted⟩ := h.ongoing hanswer
    refine ⟨fun _ => ⟨earlier, ?_, ?_⟩, fun hne => absurd hanswer hne⟩
    · have hunderway := underway_perm hstep hflight
        (show ({ s with flight := front ++ slot' :: back } : Progress).flight = _ from rfl)
      have hmore := hlog.append_right (begun s { s with flight := front ++ slot' :: back })
      rw [List.append_assoc] at hmore
      exact hmore.trans (hunderway.symm.append_left earlier)
    · have hahead : (front ++ slot' :: back).map Slot.worker = s.flight.map Slot.worker :=
        hflight ▸ hstep.map_worker front back
      rw [hstarted, ahead, ahead, hahead]
  | @closeBatch executions hanswer hflight hsettled hgoes =>
    obtain ⟨earlier, hlog, hstarted⟩ := h.ongoing hanswer
    rw [hsettled.eq_map_execute (hcourse.flight hanswer)] at hgoes
    -- the batch that is closed joins those that were closed before
    refine ⟨fun _ => ⟨earlier ++ s.flight.map Slot.worker, ?_, ?_⟩, fun hne => absurd hanswer hne⟩
    · rw [hsettled.underway] at hlog
      rw [begun, List.zip_nil_right, underway]
      simpa using hlog
    · rw [hstarted, ahead, Course.run_cons_of_goes_on t.execute hgoes s.waiting, ahead, List.map_nil,
        Course.started_run_nil_cons, List.flatten_cons, List.append_assoc]
  | @abort executions error hanswer hsettled habort =>
    obtain ⟨earlier, hlog, hstarted⟩ := h.ongoing hanswer
    rw [hsettled.eq_map_execute (hcourse.flight hanswer)] at habort
    refine ⟨fun hnone => absurd hnone (Option.some_ne_none _), fun _ => ?_⟩
    rw [hstarted, ahead, Course.run_cons_of_abort t.execute habort s.waiting, begun,
      filter_zip_self]
    rw [hsettled.underway] at hlog
    simpa using hlog
  | complete hanswer hflight hwaiting =>
    obtain ⟨earlier, hlog, hstarted⟩ := h.ongoing hanswer
    refine ⟨fun hnone => absurd hnone (Option.some_ne_none _), fun _ => ?_⟩
    have hahead : s.ahead = [[]] := by
      rw [ahead, hflight, hwaiting, List.map_nil]
    have hunderway : s.underway = [] := by
      rw [underway, hflight]
      rfl
    rw [hunderway] at hlog
    rw [hstarted, hahead, Course.started_run_nil_cons, begun, hflight]
    show (log ++ []).Perm (earlier ++ [])
    rwa [List.append_nil]

/-- The log of a run that has its answer has each analyzer once that the course of the run starts. -/
lemma Logged.perm_started {t : Terms} {batches : List (List ReadyAnalyzer)} {last : Progress}
    {log : List ReadyAnalyzer} (h : Logged t { waiting := batches } log last)
    (hanswer : last.answer ≠ none) :
    log.Perm (Course.run t.failFast t.execute batches).started.flatten := by
  suffices hnoted : Noted t (Course.run t.failFast t.execute batches) log last from
    hnoted.answered hanswer
  clear hanswer
  induction h with
  | refl =>
    refine ⟨fun _ => ⟨[], .refl _, ?_⟩, fun hne => absurd rfl hne⟩
    rw [ahead, List.map_nil, Course.started_run_nil_cons, List.nil_append]
  | tail hlogged step ih => exact step.noted hlogged.reaches.onCourse ih

end Progress

/-- The entry of the registry whose analyzer is invoked in an event. -/
def Event.invoked? : Event → Option String
  | invoked entry _ => some entry
  | _ => none

namespace Crew

/-- To enlist an entry invokes no analyzer. -/
lemma invoked_enlist (config : RunConfig) (crew : Crew) (entry : String × Factory) :
    (enlist config crew entry).events.filterMap Event.invoked?
      = crew.events.filterMap Event.invoked? := by
  obtain ⟨name, factory⟩ := entry
  cases henabled : (config.settingsFor name).enabled with
  | false => simp [enlist, henabled]
  | true =>
    cases hbuilt : factory (config.settingsFor name).config with
    | error fault => simp [enlist, henabled, hbuilt, Event.invoked?]
    | ok analyzer =>
      cases hprepared : analyzer.prepare <;>
        simp [enlist, henabled, hbuilt, hprepared, Event.invoked?]

/-- To assemble a crew invokes no analyzer. -/
lemma invoked_assemble (config : RunConfig) (registry : Registry) :
    (assemble config registry).events.filterMap Event.invoked? = [] := by
  rw [assemble]
  induction registry.entries using List.reverseRecOn with
  | nil => rfl
  | append_singleton front entry ih =>
    rw [List.foldl_append, ← ih]
    exact invoked_enlist config _ entry

end Crew

/-- The events of an invocation invoke its analyzer once. -/
lemma invoked_invocationEvents (workspace : Workspace) (files : List Path) (batch : Nat)
    (r : ReadyAnalyzer) :
    (invocationEvents workspace files batch r).filterMap Event.invoked? = [r.entry] := by
  rw [invocationEvents]
  cases (r.analyzer.analyze workspace files).noticesCancellation <;> rfl

/-- The events of a course have the invocations of the batches that it starts. -/
lemma invoked_courseEvents (workspace : Workspace) (files : List Path) (course : Course) :
    (courseEvents workspace files course).filterMap Event.invoked?
      = course.started.flatten.map ReadyAnalyzer.entry := by
  have hbatch : ∀ c ∈ course.started.zipIdx,
      (c.1.flatMap (invocationEvents workspace files c.2)).filterMap Event.invoked?
        = c.1.map ReadyAnalyzer.entry := by
    intro c _
    rw [List.filterMap_flatMap]
    simp only [invoked_invocationEvents]
    exact List.map_eq_flatMap.symm
  have hnumbers : course.started.zipIdx.flatMap (fun c => c.1.map ReadyAnalyzer.entry)
      = course.started.flatMap (List.map ReadyAnalyzer.entry) := by
    conv_rhs => rw [← List.zipIdx_map_fst 0 course.started, List.flatMap_map]
  rw [courseEvents, List.filterMap_flatMap, List.flatMap_congr hbatch, hnumbers, List.map_flatten]
  rfl

namespace Orchestrator

variable {o : Orchestrator} {workspace : Workspace} {now : Timestamp} {paths : List Path}

/-- A run may invoke these analyzers, in this order, until it has its answer. -/
def Invokes (o : Orchestrator) (workspace : Workspace) (paths : List Path)
    (log : List ReadyAnalyzer) : Prop :=
  ∃ last, Progress.Logged (o.terms workspace paths) o.outset log last ∧ last.answer ≠ none

/-- In any order of its steps a run invokes the analyzers of the batches that its course starts. -/
lemma Invokes.perm_started {log : List ReadyAnalyzer} (h : o.Invokes workspace paths log) :
    log.Perm (o.course workspace paths).started.flatten := by
  obtain ⟨last, hlogged, hanswer⟩ := h
  exact hlogged.perm_started hanswer

/-- Every orchestrator invokes some analyzers in some order. -/
lemma exists_invokes (o : Orchestrator) (workspace : Workspace) (paths : List Path) :
    ∃ log, o.Invokes workspace paths log := by
  obtain ⟨last, a, hreaches, hanswer⟩ := Progress.exists_answer (o.terms workspace paths) o.outset
  obtain ⟨log, hlogged⟩ := hreaches.exists_logged
  exact ⟨log, last, hlogged, hanswer ▸ Option.some_ne_none a⟩

/-- The record of a run with a good configuration follows from its course: it gets its crew ready, has
it analyze the files and then clear up, whatever it ends with. -/
lemma execute_of_valid (hvalid : o.config.problem? = none) :
    o.execute workspace now paths =
      { result := (o.course workspace paths).outcome.map fun executions =>
          .assemble o.config o.templates workspace.files now (Path.distinct paths) executions
            (o.course workspace paths).milliseconds
        phases := match (o.course workspace paths).outcome with
          | .error _ => [.preparing, .executing, .done]
          | .ok _ => [.preparing, .executing, .aggregating, .done]
        events := (Crew.assemble o.config o.registry).events
          ++ courseEvents workspace (Path.distinct paths) (o.course workspace paths)
          ++ (participants o.config o.registry).map fun r => .cleaned r.entry
        milliseconds := (o.course workspace paths).milliseconds } := by
  rw [← Crew.ready_assemble]
  simp only [execute, hvalid, course_of_crew]
  cases (o.course workspace paths).outcome <;> rfl

/-- The record of a run has the invocations of the batches that the course of the run starts. -/
lemma invoked_execute (hvalid : o.config.problem? = none) :
    (o.execute workspace now paths).events.filterMap Event.invoked?
      = (o.course workspace paths).started.flatten.map ReadyAnalyzer.entry := by
  have hcleaned : ((participants o.config o.registry).map
      fun r => Event.cleaned r.entry).filterMap Event.invoked? = [] := by
    rw [List.filterMap_map]
    exact List.filterMap_eq_nil_iff.2 fun _ _ => rfl
  rw [execute_of_valid hvalid, List.filterMap_append, List.filterMap_append, Crew.invoked_assemble,
    invoked_courseEvents, hcleaned, List.nil_append, List.append_nil]

end Orchestrator

end CodeAudit
