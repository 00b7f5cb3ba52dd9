import CodeAudit.Proofs.Run.Course
/-!
# Runs whose invocations settle in any order

A batch is opened, its invocations start and settle one by one in whatever order, and it is closed
when all of them have settled. An invocation whose token counts as cancelled may come to anything.
However the steps of a run are ordered, the run comes to an answer, and the answer is the one that
the course of the run in order gives.
-/
namespace CodeAudit

/-- What all invocations of a run have in common. -/
structure Terms where
  workspace : Workspace
  files : List Path
  timeout : Nat
  failFast : Bool

/-- What an invocation comes to whose token is left alone. -/
def Terms.execute (t : Terms) (a : Analyzer) : Execution :=
  Execution.run t.workspace t.timeout t.files a

/-- The execution is made of when the invocation settles and what comes of it. -/
lemma Terms.execute_eq (t : Terms) (a : Analyzer) :
    t.execute a = .ofOutcome a t.files.length ((a.analyze t.workspace t.files).settle t.timeout).1
      ((a.analyze t.workspace t.files).settle t.timeout).2 :=
  rfl

/-- Whether an invocation ends by itself before its time is over. -/
def Invocation.EndsWithin (timeout : Nat) : Invocation → Prop
  | settles after _ => after < timeout
  | awaitsCancellation => False
  | never => False

/-- An invocation that does not end in time settles when its time is over. -/
lemma Invocation.settle_of_late {timeout : Nat} {invocation : Invocation}
    (h : ¬ invocation.EndsWithin timeout) :
    invocation.settle timeout = (timeout, .error .timeout) := by
  cases invocation with
  | settles after ending => exact if_neg h
  | awaitsCancellation => rfl
  | never => rfl

/-- How far an invocation of the open batch has come. -/
inductive SlotState where
  | planned
  | running
  | settled (execution : Execution)

/-- What is left to be done about an invocation. -/
def SlotState.left : SlotState → Nat
  | planned => 2
  | running => 1
  | settled _ => 0

/-- An analyzer of the open batch, and whether the token of its invocation has been cancelled. -/
structure Slot where
  worker : ReadyAnalyzer
  state : SlotState := .planned
  cancelled : Bool := false

namespace Slot

/-- The token of an invocation is below the token of the run. -/
def token (slot : Slot) (runCancelled : Bool) : CancelToken :=
  .child slot.cancelled (.root runCancelled)

/-- What may become of an invocation in one step. -/
inductive Step (t : Terms) (runCancelled : Bool) : Slot → Slot → Prop where
  | start {worker cancelled} :
    Step t runCancelled ⟨worker, .planned, cancelled⟩ ⟨worker, .running, cancelled⟩
  /-- It ends in time. -/
  | finish {worker cancelled after ending} :
    worker.analyzer.analyze t.workspace t.files = .settles after ending →
    after < t.timeout →
    Step t runCancelled ⟨worker, .running, cancelled⟩
      ⟨worker, .settled (.ofOutcome worker.analyzer t.files.length after ending.result), cancelled⟩
  /-- Its time is over: its token is cancelled, and it is left behind. -/
  | expire {worker cancelled} :
    ¬ (worker.analyzer.analyze t.workspace t.files).EndsWithin t.timeout →
    Step t runCancelled ⟨worker, .running, cancelled⟩
      ⟨worker, .settled (.ofOutcome worker.analyzer t.files.length t.timeout (.error .timeout)), true⟩
  /-- It sees its token cancelled while it runs, and does whatever it does then. -/
  | disturb {worker cancelled milliseconds outcome} :
    (token ⟨worker, .running, cancelled⟩ runCancelled).isCancelled = true →
    Step t runCancelled ⟨worker, .running, cancelled⟩
      ⟨worker, .settled (.ofOutcome worker.analyzer t.files.length milliseconds outcome), cancelled⟩

/-- The invocation is as it would be on its own, and its token is cancelled only after its time. -/
structure Undisturbed (t : Terms) (slot : Slot) : Prop where
  execution : ∀ e, slot.state = .settled e → e = t.execute slot.worker.analyzer
  token : slot.cancelled = true → ∃ e, slot.state = .settled e

/-- An invocation that ends in time comes to what it comes to on its own. -/
lemma execute_of_endsWithin {t : Terms} {a : Analyzer} {after : Nat} {ending : Ending}
    (h : a.analyze t.workspace t.files = .settles after ending) (htime : after < t.timeout) :
    t.execute a = .ofOutcome a t.files.length after ending.result := by
  rw [Terms.execute_eq, h, Invocation.settle, if_pos htime]

/-- An invocation that does not end in time comes to a timeout. -/
lemma execute_of_not_endsWithin {t : Terms} {a : Analyzer}
    (h : ¬ (a.analyze t.workspace t.files).EndsWithin t.timeout) :
    t.execute a = .ofOutcome a t.files.length t.timeout (.error .timeout) := by
  rw [Terms.execute_eq, Invocation.settle_of_late h]

/-- As long as the run is not cancelled, no step disturbs an invocation. -/
lemma Step.undisturbed {t : Terms} {slot next : Slot} (step : Step t false slot next)
    (h : slot.Undisturbed t) : next.Undisturbed t := by
  cases step with
  | start => exact ⟨nofun, fun hcancelled => absurd (h.token hcancelled) nofun⟩
  | finish hends htime =>
    refine ⟨?_, fun _ => ⟨_, rfl⟩⟩
    rintro e ⟨⟩
    exact (execute_of_endsWithin hends htime).symm
  | expire hlate =>
    refine ⟨?_, fun _ => ⟨_, rfl⟩⟩
    rintro e ⟨⟩
    exact (execute_of_not_endsWithin hlate).symm
  | disturb hcancelled =>
    simp only [token, CancelToken.isCancelled, Bool.or_false] at hcancelled
    exact absurd (h.token hcancelled) nofun

/-- A step about an invocation leaves its analyzer what it is. -/
lemma Step.worker_eq {t : Terms} {runCancelled : Bool} {slot next : Slot}
    (step : Step t runCancelled slot next) : next.worker = slot.worker := by
  cases step <;> rfl

/-- A step about one invocation leaves the analyzers of a batch as they are. -/
lemma Step.map_worker {t : Terms} {runCancelled : Bool} {slot next : Slot}
    (step : Step t runCancelled slot next) (front back : List Slot) :
    (front ++ next :: back).map worker = (front ++ slot :: back).map worker := by
  rw [List.map_append, List.map_append, List.map_cons, List.map_cons, step.worker_eq]

/-- A batch that is opened has its analyzers. -/
lemma map_worker_open (batch : List ReadyAnalyzer) :
    (batch.map fun worker => ({ worker } : Slot)).map worker = batch := by
  rw [List.map_map]
  exact List.map_id _

/-- Every step about an invocation brings it on. -/
lemma Step.left_lt {t : Terms} {runCancelled : Bool} {slot next : Slot}
    (step : Step t runCancelled slot next) : next.state.left < slot.state.left := by
  cases step <;> exact Nat.lt_succ_self _

/-- An invocation that has not settled can go on. -/
lemma exists_step (t : Terms) (runCancelled : Bool) {slot : Slot}
    (h : ∀ e, slot.state ≠ .settled e) : ∃ next, Step t runCancelled slot next := by
  obtain ⟨worker, state, cancelled⟩ := slot
  cases state with
  | planned => exact ⟨_, .start⟩
  | running =>
    by_cases htime : (worker.analyzer.analyze t.workspace t.files).EndsWithin t.timeout
    · cases hinvocation : worker.analyzer.analyze t.workspace t.files with
      | settles after ending =>
        rw [hinvocation] at htime
        exact ⟨_, .finish hinvocation htime⟩
      | awaitsCancellation =>
        rw [hinvocation] at htime
        exact htime.elim
      | never =>
        rw [hinvocation] at htime
        exact htime.elim
    · exact ⟨_, .expire htime⟩
  | settled e => exact absurd rfl (h e)

end Slot

/-- Where a run stands. -/
structure Progress where
  /-- The batches that have not been opened. -/
  waiting : List (List ReadyAnalyzer)
  /-- The invocations of the open batch, in the order of registration. -/
  flight : List Slot := []
  /-- The executions of the batches that have been closed. -/
  closed : List Execution := []
  milliseconds : Nat := 0
  /-- Whether the token of the run has been cancelled. -/
  cancelled : Bool := false
  answer : Option (Except RunError (List Execution)) := none

namespace Progress

/-- All invocations of the open batch have settled, with the given executions. -/
def Settled (s : Progress) (executions : List Execution) : Prop :=
  s.flight.map Slot.state = executions.map SlotState.settled

/-- One step of a run. -/
inductive Step (t : Terms) : Progress → Progress → Prop where
  /-- The next batch is opened after the one before it has been closed. -/
  | openBatch {s batch rest} :
    s.answer = none →
    s.flight = [] →
    s.waiting = batch :: rest →
    Step t s { s with waiting := rest, flight := batch.map fun worker => { worker } }
  /-- One of the invocations of the open batch goes on. -/
  | invocation {s front slot next back} :
    s.answer = none →
    s.flight = front ++ slot :: back →
    Slot.Step t s.cancelled slot next →
    Step t s { s with flight := front ++ next :: back }
  /-- All invocations of the batch have settled, and none of them ends the run. -/
  | closeBatch {s executions} :
    s.answer = none →
    s.flight ≠ [] →
    s.Settled executions →
    Course.abort? t.failFast executions = none →
    Step t s { s with
      flight := []
      closed := s.closed ++ executions
      milliseconds := s.milliseconds + Course.longest executions }
  /-- All invocations of the batch have settled, and one of them ends the run. -/
  | abort {s executions error} :
    s.answer = none →
    s.Settled executions →
    Course.abort? t.failFast executions = some error →
    Step t s { s with
      milliseconds := s.milliseconds + Course.longest executions
      cancelled := true
      answer := some (.error error) }
  /-- No batch is left. -/
  | complete {s} :
    s.answer = none →
    s.flight = [] →
    s.waiting = [] →
    Step t s { s with answer := some (.ok s.closed) }

/-- The states that a run can get to. -/
def Reaches (t : Terms) : Progress → Progress → Prop :=
  Relation.ReflTransGen (Step t)

/-- What is still ahead of a run, with the open batch as if it were opened once more. -/
def ahead (s : Progress) : List (List ReadyAnalyzer) :=
  s.flight.map Slot.worker :: s.waiting

/-- The run is on its course: what it has come to and what is ahead make up the course in order. -/
structure OnCourse (t : Terms) (course : Course) (s : Progress) : Prop where
  flight : s.answer = none → ∀ slot ∈ s.flight, slot.Undisturbed t
  token : s.answer = none → s.cancelled = false
  outcome : s.answer = none → course.outcome
    = (Course.run t.failFast t.execute s.ahead).outcome.map (s.closed ++ ·)
  milliseconds : s.answer = none → course.milliseconds
    = s.milliseconds + (Course.run t.failFast t.execute s.ahead).milliseconds
  answer : ∀ a, s.answer = some a → course.outcome = a ∧ course.milliseconds = s.milliseconds

/-- An invocation of a batch that has settled has an execution. -/
lemma Settled.exists_eq {s : Progress} {executions : List Execution} (h : s.Settled executions)
    {slot : Slot} (hslot : slot ∈ s.flight) : ∃ e, slot.state = .settled e := by
  have hstate : slot.state ∈ executions.map SlotState.settled :=
    h ▸ List.mem_map.2 ⟨slot, hslot, rfl⟩
  obtain ⟨e, -, he⟩ := List.mem_map.1 hstate
  exact ⟨e, he.symm⟩

/-- The executions of a batch that has settled are those that its analyzers come to on their own. -/
lemma Settled.eq_map_execute {t : Terms} {s : Progress} {executions : List Execution}
    (h : s.Settled executions) (hslots : ∀ slot ∈ s.flight, slot.Undisturbed t) :
    executions = (s.flight.map Slot.worker).map fun r => t.execute r.analyzer := by
  have hinjective : Function.Injective SlotState.settled := fun _ _ e => SlotState.settled.inj e
  apply List.map_injective_iff.2 hinjective
  rw [← h, List.map_map, List.map_map]
  refine List.map_congr_left fun slot hslot => ?_
  obtain ⟨e, he⟩ := h.exists_eq hslot
  rw [he, (hslots slot hslot).execution e he]
  rfl

/-- No step takes a run off its course. -/
lemma Step.onCourse {t : Terms} {course : Course} {s next : Progress} (step : Step t s next)
    (h : OnCourse t course s) : OnCourse t course next := by
  cases step with
  | @openBatch batch rest hanswer hflight hwaiting =>
    have hnil : s.ahead = [] :: batch :: rest := by
      rw [ahead, hflight, hwaiting, List.map_nil]
    -- the empty batch that stood for a closed one makes room for the batch that is opened
    refine ⟨fun _ slot hslot => ?_, h.token, fun _ => ?_, fun _ => ?_, fun a ha => ?_⟩
    · obtain ⟨worker, -, rfl⟩ := List.mem_map.1 hslot
      exact ⟨nofun, nofun⟩
    · rw [h.outcome hanswer, hnil, Course.outcome_run_nil_cons, ahead, Slot.map_worker_open]
    · rw [h.milliseconds hanswer, hnil, Course.milliseconds_run_nil_cons, ahead,
        Slot.map_worker_open]
    · exact absurd (hanswer.symm.trans ha) nofun
  | @invocation front slot slot' back hanswer hflight hstep =>
    have hahead : (front ++ slot' :: back).map Slot.worker = s.flight.map Slot.worker :=
      hflight ▸ hstep.map_worker front back
    -- the run is not cancelled yet, so the step does not disturb the invocation
    rw [h.token hanswer] at hstep
    refine ⟨fun _ other hother => ?_, h.token, fun _ => ?_, fun _ => ?_, fun a ha => ?_⟩
    · have hslots := h.flight hanswer
      rw [hflight] at hslots
      simp only [List.forall_mem_append, List.forall_mem_cons] at hslots
      obtain ⟨hfront, hslot, hback⟩ := hslots
      rw [List.mem_append, List.mem_cons] at hother
      obtain hother | rfl | hother := hother
      · exact hfront other hother
      · exact hstep.undisturbed hslot
      · exact hback other hother
    · rw [h.outcome hanswer, ahead, ahead, hahead]
    · rw [h.milliseconds hanswer, ahead, ahead, hahead]
    · exact absurd (hanswer.symm.trans ha) nofun
  | @closeBatch executions hanswer hflight hsettled hgoes =>
    -- in whatever order they settled, the executions stand in the order of the batch
    have hexecutions := hsettled.eq_map_execute (h.flight hanswer)
    rw [hexecutions] at hgoes
    have hrun := Course.run_cons_of_goes_on t.execute hgoes s.waiting
    refine ⟨fun _ slot hslot => absurd hslot List.not_mem_nil, h.token, fun _ => ?_, fun _ => ?_,
      fun a ha => ?_⟩
    · rw [h.outcome hanswer, ahead, hrun, ahead, List.map_nil, Course.outcome_run_nil_cons,
        ← hexecutions]
      cases (Course.run t.failFast t.execute s.waiting).outcome with
      | error e => rfl
      | ok later => exact congrArg Except.ok (List.append_assoc ..).symm
    · rw [h.milliseconds hanswer, ahead, hrun, ahead, List.map_nil, Course.milliseconds_run_nil_cons,
        ← hexecutions]
      exact (Nat.add_assoc ..).symm
    · exact absurd (hanswer.symm.trans ha) nofun
  | @abort executions error hanswer hsettled habort =>
    have hexecutions := hsettled.eq_map_execute (h.flight hanswer)
    rw [hexecutions] at habort
    have hrun := Course.run_cons_of_abort t.execute habort s.waiting
    refine ⟨nofun, nofun, nofun, nofun, fun a ha => ?_⟩
    cases ha
    rw [h.outcome hanswer, h.milliseconds hanswer, ahead, hrun, ← hexecutions]
    exact ⟨rfl, rfl⟩
  | complete hanswer hflight hwaiting =>
    have hahead : s.ahead = [[]] := by
      rw [ahead, hflight, hwaiting, List.map_nil]
    refine ⟨nofun, nofun, nofun, nofun, fun a ha => ?_⟩
    cases ha
    rw [h.outcome hanswer, h.milliseconds hanswer, hahead, Course.outcome_run_nil_cons,
      Course.milliseconds_run_nil_cons]
    exact ⟨congrArg Except.ok (List.append_nil _), rfl⟩

/-- A run that has not begun is on its course. -/
lemma onCourse_init (t : Terms) (batches : List (List ReadyAnalyzer)) :
    OnCourse t (Course.run t.failFast t.execute batches) { waiting := batches } := by
  refine ⟨fun _ slot hslot => absurd hslot List.not_mem_nil, fun _ => rfl, fun _ => ?_, fun _ => ?_,
    nofun⟩
  · rw [ahead, List.map_nil, Course.outcome_run_nil_cons]
    cases (Course.run t.failFast t.execute batches).outcome <;> rfl
  · rw [ahead, List.map_nil, Course.milliseconds_run_nil_cons]
    exact (Nat.zero_add _).symm

/-- Wherever a run gets to, it is on its course. -/
lemma Reaches.onCourse {t : Terms} {batches : List (List ReadyAnalyzer)} {s : Progress}
    (h : Reaches t { waiting := batches } s) :
    OnCourse t (Course.run t.failFast t.execute batches) s := by
  induction h with
  | refl => exact onCourse_init t batches
  | tail _ step ih => exact step.onCourse ih

/-- An upper bound on the steps that are left of a run. -/
def left (s : Progress) : Nat :=
  (if s.answer = none then 1 else 0)
    + (s.waiting.map fun batch => 2 + 2 * batch.length).sum
    + (if s.flight = [] then 0 else 1)
    + (s.flight.map fun slot => slot.state.left).sum

/-- Every step brings a run on, so no run goes on for ever. -/
lemma Step.left_lt {t : Terms} {s next : Progress} (step : Step t s next) : next.left < s.left := by
  cases step with
  | @openBatch batch rest hanswer hflight hwaiting =>
    have hsum : ((batch.map fun worker => ({ worker } : Slot)).map
        fun slot => slot.state.left).sum = 2 * batch.length := by
      simp [Function.comp_def, SlotState.left, Nat.mul_comm]
    simp only [left, hanswer, hflight, hwaiting, hsum, List.map_cons, List.sum_cons, List.map_nil,
      List.sum_nil, if_true]
    split <;> omega
  | @invocation front slot slot' back hanswer hflight hstep =>
    have hleft := hstep.left_lt
    have hne : s.flight ≠ [] := by
      simp [hflight]
    have hne' : front ++ slot' :: back ≠ [] := by
      simp
    have hsum : (s.flight.map fun slot => slot.state.left).sum
        = (front.map fun slot => slot.state.left).sum
          + (slot.state.left + (back.map fun slot => slot.state.left).sum) := by
      rw [hflight, List.map_append, List.map_cons, List.sum_append, List.sum_cons]
    simp only [left, hanswer, if_neg hne, if_neg hne', hsum, List.map_append, List.map_cons,
      List.sum_append, List.sum_cons]
    omega
  | @closeBatch executions hanswer hflight hsettled hgoes =>
    simp only [left, hanswer, if_neg hflight, List.map_nil, List.sum_nil, if_true]
    omega
  | @abort executions error hanswer hsettled habort =>
    simp only [left, hanswer, if_true, reduceCtorEq, if_false]
    omega
  | complete hanswer hflight hwaiting =>
    simp only [left, hanswer, if_true, reduceCtorEq, if_false]
    omega

/-- If all invocations of a batch have settled, the batch has. -/
lemma exists_settled {s : Progress} (h : ∀ slot ∈ s.flight, ∃ e, slot.state = .settled e) :
    ∃ executions, s.Settled executions := by
  unfold Settled
  generalize s.flight = flight at h ⊢
  induction flight with
  | nil => exact ⟨[], rfl⟩
  | cons slot rest ih =>
    simp only [List.forall_mem_cons] at h
    obtain ⟨⟨e, he⟩, hrest⟩ := h
    obtain ⟨executions, hexecutions⟩ := ih hrest
    exact ⟨e :: executions, by rw [List.map_cons, List.map_cons, he, hexecutions]⟩

/-- A run without an answer can go on. -/
lemma exists_step (t : Terms) {s : Progress} (hanswer : s.answer = none) :
    ∃ next, Step t s next := by
  by_cases hflight : s.flight = []
  · cases hwaiting : s.waiting with
    | nil => exact ⟨_, .complete hanswer hflight hwaiting⟩
    | cons batch rest => exact ⟨_, .openBatch hanswer hflight hwaiting⟩
  -- the batch is closed once all of it has settled, and until then one of its invocations goes on
  · by_cases hall : ∀ slot ∈ s.flight, ∃ e, slot.state = .settled e
    · obtain ⟨executions, hsettled⟩ := exists_settled hall
      cases habort : Course.abort? t.failFast executions with
      | none => exact ⟨_, .closeBatch hanswer hflight hsettled habort⟩
      | some error => exact ⟨_, .abort hanswer hsettled habort⟩
    · simp only [not_forall, not_exists] at hall
      obtain ⟨slot, hslot, hunsettled⟩ := hall
      obtain ⟨front, back, hsplit⟩ := List.append_of_mem hslot
      obtain ⟨next, hnext⟩ := Slot.exists_step t s.cancelled hunsettled
      exact ⟨_, .invocation hanswer hsplit hnext⟩

/-- Every run can be brought to an answer, wherever it stands. -/
lemma exists_answer (t : Terms) (s : Progress) :
    ∃ last a, Reaches t s last ∧ last.answer = some a := by
  induction hleft : s.left using Nat.strong_induction_on generalizing s with
  | _ n ih =>
    cases hanswer : s.answer with
    | some a => exact ⟨s, a, .refl, hanswer⟩
    | none =>
      obtain ⟨next, step⟩ := exists_step t hanswer
      obtain ⟨last, a, hreaches, ha⟩ := ih next.left (hleft ▸ step.left_lt) next rfl
      exact ⟨last, a, .head step hreaches, ha⟩

end Progress

end CodeAudit
