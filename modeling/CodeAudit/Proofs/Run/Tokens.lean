import CodeAudit.Analyzer.Cancellation
import CodeAudit.Proofs.Run.Barrier
/-!
# Tokens of a run

Every invocation has a token of its own below the token of the run, and holds it even when its batch
has been closed and nobody waits for it any more. A token is cancelled for two reasons only: the time
of its invocation is over, or a failure has ended the run, and then no invocation is under way. So no
invocation sees its token cancelled before its own time is over, whatever becomes of the others.
-/
namespace CodeAudit

/-- A check passes as long as the token is not cancelled. -/
lemma AnalysisContext.check_eq_ok_iff {c : AnalysisContext} :
    c.check = .ok () ↔ c.token.isCancelled = false := by
  rw [check]
  cases c.token.isCancelled <;> simp

/-- An invocation that comes to a fault of cancellation ends with it by itself, and in time. -/
lemma Invocation.eq_settles_of_cancelled {invocation : Invocation} {timeout : Nat} {message : String}
    (h : invocation.fault? timeout = some (.cancelled message)) :
    ∃ after < timeout, invocation = .settles after (.fault (.cancelled message)) := by
  cases invocation with
  | settles after ending =>
    simp only [fault?] at h
    split at h
    · next htime =>
      cases ending with
      | issues found => exact absurd h nofun
      | fault f =>
        obtain rfl := Option.some.inj h
        exact ⟨after, htime, rfl⟩
      | panic text task => exact absurd h nofun
    · exact absurd h nofun
  | awaitsCancellation => exact absurd h nofun
  | never => exact absurd h nofun

namespace Slot

variable {t : Terms} {slot next : Slot} {runCancelled : Bool}

/-- What an invocation is told about its analysis. -/
def context (slot : Slot) (runCancelled : Bool) : AnalysisContext :=
  ⟨slot.worker.analyzer.name, slot.token runCancelled⟩

/-- The invocation has settled because its time was over. -/
def RanOut (t : Terms) (slot : Slot) : Prop :=
  (∃ e, slot.state = .settled e) ∧
    ¬ (slot.worker.analyzer.analyze t.workspace t.files).EndsWithin t.timeout

/-- A token counts as cancelled if it is, or if that of the run is. -/
lemma isCancelled_token :
    (slot.token runCancelled).isCancelled = true ↔ slot.cancelled = true ∨ runCancelled = true := by
  rw [token, CancelToken.isCancelled, CancelToken.isCancelled, Bool.or_eq_true]

/-- The invocation comes to what it comes to on its own, and its own token is cancelled exactly if its
time was over. -/
structure Sheltered (t : Terms) (slot : Slot) : Prop where
  execution : ∀ e, slot.state = .settled e → e = t.execute slot.worker.analyzer
  cancelled_iff : slot.cancelled = true ↔ slot.RanOut t

/-- An invocation that is sheltered is undisturbed. -/
lemma Sheltered.undisturbed (h : slot.Sheltered t) : slot.Undisturbed t :=
  ⟨h.execution, fun hcancelled => (h.cancelled_iff.1 hcancelled).1⟩

/-- An invocation that has not settled does not see its token cancelled unless the run is. -/
lemma Sheltered.not_isCancelled (h : slot.Sheltered t) (hstate : ∀ e, slot.state ≠ .settled e) :
    (slot.token false).isCancelled = false := by
  rw [← Bool.not_eq_true, isCancelled_token, h.cancelled_iff]
  rintro (⟨⟨e, he⟩, -⟩ | hrun)
  · exact hstate e he
  · exact Bool.false_ne_true hrun

/-- An invocation of a batch that is opened is sheltered. -/
lemma sheltered_open (t : Terms) (worker : ReadyAnalyzer) : ({ worker } : Slot).Sheltered t := by
  refine ⟨nofun, fun h => absurd h Bool.false_ne_true, ?_⟩
  rintro ⟨⟨e, he⟩, -⟩
  exact absurd he nofun

/-- As long as the run is not cancelled, every step leaves an invocation sheltered. -/
lemma Step.sheltered (step : Step t false slot next) (h : slot.Sheltered t) : next.Sheltered t := by
  have hundisturbed := step.undisturbed h.undisturbed
  refine ⟨hundisturbed.execution, ?_⟩
  have hown := h.cancelled_iff
  cases step with
  | start =>
    rw [hown]
    constructor <;> rintro ⟨⟨e, he⟩, -⟩ <;> exact absurd he nofun
  | finish hends htime =>
    rw [hown]
    constructor
    · rintro ⟨⟨e, he⟩, -⟩
      exact absurd he nofun
    · rintro ⟨-, hlate⟩
      rw [hends] at hlate
      exact absurd htime hlate
  | expire hlate => exact ⟨fun _ => ⟨⟨_, rfl⟩, hlate⟩, fun _ => rfl⟩
  | disturb htoken =>
    rw [h.not_isCancelled nofun] at htoken
    exact absurd htoken Bool.false_ne_true

end Slot

namespace Progress

variable {t : Terms} {size : Nat} {ready : List ReadyAnalyzer} {s last next : Progress}
  {past : List Slot}

/-- The invocations that a step leaves behind: those of the batch that it closes. -/
def leaves (s next : Progress) : List Slot :=
  if next.flight = [] then s.flight else []

/-- A run to a state, with the invocations of the batches that have been closed on the way. -/
inductive Trailed (t : Terms) (s : Progress) : List Slot → Progress → Prop where
  | refl : Trailed t s [] s
  | tail {past middle last} :
    Trailed t s past middle →
    Step t middle last →
    Trailed t s (past ++ middle.leaves last) last

/-- A run whose invocations are trailed is a run. -/
lemma Trailed.reaches (h : Trailed t s past last) : Reaches t s last := by
  induction h with
  | refl => exact .refl
  | tail _ step ih => exact .tail ih step

/-- The invocations of every run can be trailed. -/
lemma Reaches.exists_trailed (h : Reaches t s last) : ∃ past, Trailed t s past last := by
  induction h with
  | refl => exact ⟨[], .refl⟩
  | tail _ step ih =>
    obtain ⟨past, hpast⟩ := ih
    exact ⟨_, .tail hpast step⟩

/-- What a step does to the invocations of the batches that have been opened, left behind or not. -/
inductive SlotsStep (t : Terms) (s next : Progress) (slots : List Slot) : List Slot → Prop where
  /-- Those of one more batch are planned. -/
  | opened {batch : List ReadyAnalyzer} :
    next.cancelled = s.cancelled →
    SlotsStep t s next slots (slots ++ batch.map fun worker => ({ worker } : Slot))
  | moved {front slot slot' back} :
    slots = front ++ slot :: back →
    Slot.Step t s.cancelled slot slot' →
    next.cancelled = s.cancelled →
    SlotsStep t s next slots (front ++ slot' :: back)
  | kept :
    next.cancelled = s.cancelled →
    SlotsStep t s next slots slots
  /-- A failure in the batch, which has settled, ends the run. -/
  | aborted {error} :
    t.failFast = true →
    (∀ slot ∈ s.flight, ∃ e, slot.state = .settled e) →
    next.answer = some (.error error) →
    next.cancelled = true →
    SlotsStep t s next slots slots

/-- A step from a state without open batch leaves no invocation behind. -/
lemma leaves_of_flight_eq_nil (h : s.flight = []) : s.leaves next = [] := by
  rw [leaves, h, ite_self]

/-- A step that leaves the open batch as it is leaves no invocation behind. -/
lemma leaves_of_flight_eq (h : next.flight = s.flight) : s.leaves next = [] := by
  by_cases hflight : s.flight = []
  · exact leaves_of_flight_eq_nil hflight
  · rw [leaves, h, if_neg hflight]

/-- Opening and closing batches, and bringing their invocations on, is all that a step does. -/
lemma Step.slotsStep (step : Step t s next) (past : List Slot) :
    SlotsStep t s next (past ++ s.flight) (past ++ s.leaves next ++ next.flight) := by
  cases step with
  | openBatch hanswer hflight hwaiting =>
    rw [leaves_of_flight_eq_nil hflight, hflight, List.append_nil]
    exact .opened rfl
  | @invocation front slot slot' back hanswer hflight hstep =>
    rw [leaves, if_neg (by simp), hflight, List.append_nil, ← List.append_assoc, ← List.append_assoc]
    exact .moved rfl hstep rfl
  | closeBatch hanswer hflight hsettled hgoes =>
    rw [leaves, if_pos rfl, List.append_nil]
    exact .kept rfl
  | abort hanswer hsettled habort =>
    rw [leaves_of_flight_eq, List.append_nil]
    · exact .aborted ((Course.exists_of_abort?_eq_some habort).1) (fun _ hslot => hsettled.exists_eq hslot) rfl rfl
    · rfl
  | complete hanswer hflight hwaiting =>
    rw [leaves_of_flight_eq_nil hflight, List.append_nil]
    exact .kept rfl

/-- What holds of the tokens of a run all the way. -/
structure Guarded (t : Terms) (past : List Slot) (s : Progress) : Prop where
  closed : past.map Slot.state = s.closed.map SlotState.settled
  slots : ∀ slot ∈ past ++ s.flight, slot.Sheltered t
  token : s.cancelled = true ↔ ∃ error, s.answer = some (.error error)
  abort : s.cancelled = true →
    t.failFast = true ∧ ∀ slot ∈ s.flight, ∃ e, slot.state = .settled e

/-- The token of a run without an answer is not cancelled. -/
lemma Guarded.cancelled_eq_false (h : Guarded t past s) (hanswer : s.answer = none) :
    s.cancelled = false := by
  rw [← Bool.not_eq_true, h.token, hanswer]
  rintro ⟨error, herror⟩
  exact absurd herror nofun

/-- A run that begins is guarded. -/
lemma guarded_init (t : Terms) (waiting : List (List ReadyAnalyzer)) :
    Guarded t [] { waiting } where
  closed := rfl
  slots _ hslot := absurd hslot List.not_mem_nil
  token := ⟨fun h => absurd h Bool.false_ne_true, fun ⟨_, h⟩ => absurd h nofun⟩
  abort h := absurd h Bool.false_ne_true

/-- The invocations are sheltered in every step, as long as the run is not cancelled before it. -/
lemma SlotsStep.sheltered {slots slots' : List Slot} (step : SlotsStep t s next slots slots')
    (hrun : s.cancelled = false) (h : ∀ slot ∈ slots, slot.Sheltered t) :
    ∀ slot ∈ slots', slot.Sheltered t := by
  cases step with
  | opened =>
    rw [List.forall_mem_append, List.forall_mem_map]
    exact ⟨h, fun worker _ => Slot.sheltered_open t worker⟩
  | moved hsplit hstep =>
    rw [hrun] at hstep
    rw [hsplit, List.forall_mem_append, List.forall_mem_cons] at h
    rw [List.forall_mem_append, List.forall_mem_cons]
    exact ⟨h.1, hstep.sheltered h.2.1, h.2.2⟩
  | kept => exact h
  | aborted => exact h

/-- The invocations left behind are those whose executions are closed. -/
lemma Step.closed (step : Step t s next)
    (h : past.map Slot.state = s.closed.map SlotState.settled) :
    (past ++ s.leaves next).map Slot.state = next.closed.map SlotState.settled := by
  cases step with
  | openBatch hanswer hflight => rwa [leaves_of_flight_eq_nil hflight, List.append_nil]
  | invocation hanswer hflight => rwa [leaves, if_neg (by simp), List.append_nil]
  | closeBatch hanswer hflight hsettled =>
    rw [leaves, if_pos rfl, List.map_append, List.map_append, h, hsettled]
  | abort =>
    rw [leaves_of_flight_eq, List.append_nil]
    · exact h
    · rfl
  | complete hanswer hflight => rwa [leaves_of_flight_eq_nil hflight, List.append_nil]

/-- Every step keeps the tokens guarded. -/
lemma Step.guarded (step : Step t s next) (h : Guarded t past s) :
    Guarded t (past ++ s.leaves next) next := by
  have hrun := h.cancelled_eq_false step.answer_eq_none
  refine ⟨step.closed h.closed, (step.slotsStep past).sheltered hrun h.slots, ?_, ?_⟩
  · cases step with
    | openBatch => exact h.token
    | invocation => exact h.token
    | closeBatch => exact h.token
    | abort => exact ⟨fun _ => ⟨_, rfl⟩, fun _ => rfl⟩
    | complete =>
      refine ⟨fun hcancelled => ?_, fun ⟨error, herror⟩ => ?_⟩
      · exact absurd (hrun.symm.trans hcancelled) Bool.false_ne_true
      · exact absurd herror nofun
  · intro hcancelled
    cases step with
    | abort hanswer hsettled habort =>
      exact ⟨(Course.exists_of_abort?_eq_some habort).1, fun _ hslot => hsettled.exists_eq hslot⟩
    | _ => exact absurd (hrun.symm.trans hcancelled) Bool.false_ne_true

/-- A run from its beginning is guarded. -/
lemma Trailed.guarded {waiting : List (List ReadyAnalyzer)} (h : Trailed t { waiting } past s) :
    Guarded t past s := by
  induction h with
  | refl => exact guarded_init t waiting
  | tail _ step ih => exact step.guarded ih

/-- The analyzers of the opened batches and of those that wait stay in line. -/
lemma Step.lineup (step : Step t s next) (past : List Slot) :
    (past ++ s.leaves next ++ next.flight).map Slot.worker ++ next.waiting.flatten
      = (past ++ s.flight).map Slot.worker ++ s.waiting.flatten := by
  cases step with
  | openBatch hanswer hflight hwaiting =>
    rw [leaves_of_flight_eq_nil hflight, hflight, hwaiting, List.append_nil, List.map_append,
      Slot.map_worker_open, List.append_assoc, List.flatten_cons]
  | @invocation front slot slot' back hanswer hflight hstep =>
    have hworkers : (front ++ slot' :: back).map Slot.worker = s.flight.map Slot.worker :=
      hflight ▸ hstep.map_worker front back
    rw [leaves, if_neg (by simp), List.append_nil, List.map_append, hworkers, List.map_append]
  | closeBatch hanswer hflight => rw [leaves, if_pos rfl, List.append_nil]
  | abort =>
    rw [leaves_of_flight_eq, List.append_nil]
    rfl
  | complete hanswer hflight => rw [leaves_of_flight_eq_nil hflight, List.append_nil]

/-- The invocations left behind, those of the open batch and those to come are all of the run. -/
lemma Trailed.lineup {waiting : List (List ReadyAnalyzer)} (h : Trailed t { waiting } past s) :
    (past ++ s.flight).map Slot.worker ++ s.waiting.flatten = waiting.flatten := by
  induction h with
  | refl => rfl
  | tail _ step ih => exact (step.lineup _).trans ih

/-- The token of a run. -/
def runToken (s : Progress) : CancelToken :=
  .root s.cancelled

/-- The tokens of some invocations. -/
def tokens (slots : List Slot) (s : Progress) : List CancelToken :=
  slots.map (·.token s.cancelled)

/-- What a step does to the tokens of a run and of some invocations, which it brings on. -/
inductive TokenStep (t : Terms) (s next : Progress) (slots slots' : List Slot) : Prop where
  /-- The invocations of one more batch get tokens below the token of the run. -/
  | granted {count} :
    next.runToken = s.runToken →
    tokens slots' next = tokens slots s ++ List.replicate count s.runToken.subordinate →
    TokenStep t s next slots slots'
  | kept :
    next.runToken = s.runToken →
    tokens slots' next = tokens slots s →
    TokenStep t s next slots slots'
  /-- The time of one invocation is over, and its token is cancelled. -/
  | expired {front slot slot' back} :
    slots = front ++ slot :: back →
    slots' = front ++ slot' :: back →
    slot.state = .running →
    slot'.RanOut t →
    next.runToken = s.runToken →
    tokens slots' next = tokens front s ++ (slot.token s.cancelled).cancel :: tokens back s →
    TokenStep t s next slots slots'
  /-- A failure ends the run, all of whose invocations have settled. -/
  | aborted {error} :
    t.failFast = true →
    (∀ slot ∈ slots, ∃ e, slot.state = .settled e) →
    next.answer = some (.error error) →
    next.runToken = s.runToken.cancel →
    tokens slots' next = (tokens slots s).map CancelToken.cancelParent →
    TokenStep t s next slots slots'

/-- The tokens of some invocations and of others come one after the other. -/
lemma tokens_append (slots slots' : List Slot) (s : Progress) :
    tokens (slots ++ slots') s = tokens slots s ++ tokens slots' s :=
  List.map_append

/-- Tokens stay the same as long as that of the run does. -/
lemma tokens_congr (h : next.cancelled = s.cancelled) (slots : List Slot) :
    tokens slots next = tokens slots s := by
  rw [tokens, tokens, h]

/-- The tokens of a batch that is opened are fresh ones below that of the run. -/
lemma tokens_open (batch : List ReadyAnalyzer) (s : Progress) :
    tokens (batch.map fun worker => ({ worker } : Slot)) s
      = List.replicate batch.length s.runToken.subordinate := by
  rw [tokens, List.map_map, ← List.map_const']
  rfl

/-- A step about invocations brings on their tokens. -/
lemma SlotsStep.tokenStep {slots slots' : List Slot} (step : SlotsStep t s next slots slots')
    (hbehind : ∀ slot ∈ slots, slot ∈ s.flight ∨ ∃ e, slot.state = .settled e) :
    TokenStep t s next slots slots' := by
  have hkept (h : next.cancelled = s.cancelled) : next.runToken = s.runToken := by
    rw [runToken, runToken, h]
  cases step with
  | @opened batch hnext =>
    refine .granted (hkept hnext)
      (show _ = _ ++ List.replicate batch.length s.runToken.subordinate from ?_)
    rw [tokens_append, tokens_congr hnext, tokens_congr hnext, tokens_open]
  | @moved front slot slot' back hsplit hstep hnext =>
    have htokens : tokens (front ++ slot' :: back) next
        = tokens front s ++ slot'.token s.cancelled :: tokens back s := by
      rw [tokens_append, tokens_congr hnext, tokens_congr hnext]
      rfl
    have hbefore : tokens slots s = tokens front s ++ slot.token s.cancelled :: tokens back s := by
      rw [hsplit, tokens_append]
      rfl
    cases hstep with
    | expire hlate =>
      exact .expired hsplit rfl rfl ⟨⟨_, rfl⟩, hlate⟩ (hkept hnext) htokens
    | _ => exact .kept (hkept hnext) (htokens.trans hbefore.symm)
  | kept hnext => exact .kept (hkept hnext) (tokens_congr hnext slots)
  | @aborted error hfast hflight hanswer hnext =>
    refine .aborted hfast (fun slot hslot => ?_) hanswer ?_ ?_
    · obtain hmem | hsettled := hbehind slot hslot
      · exact hflight slot hmem
      · exact hsettled
    · rw [runToken, runToken, hnext]
      rfl
    · rw [tokens, tokens, hnext, List.map_map]
      rfl

/-- An invocation that has been opened is in the open batch or has settled. -/
lemma Guarded.settled_behind (h : Guarded t past s) :
    ∀ slot ∈ past ++ s.flight, slot ∈ s.flight ∨ ∃ e, slot.state = .settled e := by
  intro slot hslot
  obtain hpast | hflight := List.mem_append.1 hslot
  · have hstate : slot.state ∈ s.closed.map SlotState.settled :=
      h.closed ▸ List.mem_map_of_mem hpast
    obtain ⟨e, -, he⟩ := List.mem_map.1 hstate
    exact .inr ⟨e, he.symm⟩
  · exact .inl hflight

/-- Every step does one of four things to the tokens of a run. -/
lemma Guarded.tokenStep (h : Guarded t past s) (step : Step t s next) :
    TokenStep t s next (past ++ s.flight) (past ++ s.leaves next ++ next.flight) :=
  (step.slotsStep past).tokenStep h.settled_behind

/-- In a state of a run of some analyzers, with the invocations of the batches that have been closed,
no invocation has been told to stop by what became of another. -/
structure Spared (t : Terms) (ready : List ReadyAnalyzer) (past : List Slot) (s : Progress) :
    Prop where
  lineup : (past ++ s.flight).map Slot.worker ++ s.waiting.flatten = ready
  behind : past.map Slot.state = s.closed.map SlotState.settled
  /-- An invocation that has not settled sees no cancellation. -/
  innocent : ∀ slot ∈ past ++ s.flight, (∀ e, slot.state ≠ .settled e) →
    (slot.token s.cancelled).isCancelled = false ∧ (slot.context s.cancelled).check = .ok ()
  /-- A token is cancelled if the time of its invocation is over, or the run has been ended. -/
  late : ∀ slot ∈ past ++ s.flight,
    (slot.token s.cancelled).isCancelled = true ↔ slot.RanOut t ∨ s.runToken.isCancelled = true
  /-- The run is cancelled exactly when a failure has ended it. -/
  run : s.runToken.isCancelled = true ↔ ∃ error, s.answer = some (.error error)
  /-- It is cancelled only if it is to end so, after all invocations have settled, and before nothing
  else. -/
  abort : s.runToken.isCancelled = true → t.failFast = true ∧
    (∀ slot ∈ past ++ s.flight, ∃ e, slot.state = .settled e) ∧ ∀ next, ¬ Step t s next
  /-- What an invocation comes to is what it comes to on its own. -/
  alone : ∀ slot ∈ past ++ s.flight, ∀ e, slot.state = .settled e →
    e = t.execute slot.worker.analyzer
  /-- A fault of cancellation is one with which the invocation ends by itself. -/
  causes : ∀ slot ∈ past ++ s.flight, ∀ e message, slot.state = .settled e →
    e.fault = some (.cancelled message) → ∃ after < t.timeout,
      slot.worker.analyzer.analyze t.workspace t.files = .settles after (.fault (.cancelled message))

/-- If the token of the run is cancelled, all invocations have settled. -/
lemma Guarded.abort_all (h : Guarded t past s) (hcancelled : s.cancelled = true) :
    ∀ slot ∈ past ++ s.flight, ∃ e, slot.state = .settled e := by
  intro slot hslot
  obtain hflight | hsettled := h.settled_behind slot hslot
  · exact (h.abort hcancelled).2 slot hflight
  · exact hsettled

/-- An invocation that has not settled is not told to stop. -/
lemma Guarded.innocent (h : Guarded t past s) {slot : Slot} (hslot : slot ∈ past ++ s.flight)
    (hstate : ∀ e, slot.state ≠ .settled e) : (slot.token s.cancelled).isCancelled = false := by
  cases hcancelled : s.cancelled with
  | false => exact (h.slots slot hslot).not_isCancelled hstate
  | true =>
    obtain ⟨e, he⟩ := h.abort_all hcancelled slot hslot
    exact absurd he (hstate e)

/-- In every state of a run no invocation is told to stop by what became of another. -/
lemma Trailed.spared (h : Trailed t { waiting := batches size ready } past s) :
    Spared t ready past s where
  lineup := h.lineup.trans (flatten_batches size ready)
  behind := h.guarded.closed
  innocent _ hslot hstate :=
    ⟨h.guarded.innocent hslot hstate,
      AnalysisContext.check_eq_ok_iff.2 (h.guarded.innocent hslot hstate)⟩
  late slot hslot := by
    rw [Slot.isCancelled_token, (h.guarded.slots slot hslot).cancelled_iff]
    rfl
  run := h.guarded.token
  abort hcancelled := by
    refine ⟨(h.guarded.abort hcancelled).1, h.guarded.abort_all hcancelled, fun next step => ?_⟩
    exact absurd hcancelled (Bool.eq_false_iff.1 (h.guarded.cancelled_eq_false step.answer_eq_none))
  alone slot hslot := (h.guarded.slots slot hslot).execution
  causes slot hslot e message he hfault := by
    obtain rfl := (h.guarded.slots slot hslot).execution e he
    exact Invocation.eq_settles_of_cancelled ((Execution.fault_run ..).symm.trans hfault)

/-- However the steps of a run are ordered, no invocation sees its token cancelled before its own time
is over, and none is made to end with a fault of cancellation by what becomes of another. A step
cancels at most the token of the one invocation whose time is over, or that of the run, which has then
come to its end. -/
theorem cancellation_spares_innocent (t : Terms) (size : Nat) (ready : List ReadyAnalyzer) :
    (∀ s, Reaches t { waiting := batches size ready } s ↔
      ∃ past, Trailed t { waiting := batches size ready } past s) ∧
    ∀ past s, Trailed t { waiting := batches size ready } past s →
      Spared t ready past s ∧
      ∀ next, Step t s next →
        TokenStep t s next (past ++ s.flight) (past ++ s.leaves next ++ next.flight) :=
  ⟨fun _ => ⟨Reaches.exists_trailed, fun ⟨_, h⟩ => h.reaches⟩,
    fun _ _ h => ⟨h.spared, fun _ step => h.guarded.tokenStep step⟩⟩

/-- The relay, two at a time, ended by its first failure if so wanted. -/
def relayTerms (failFast : Bool) : Terms :=
  ⟨Orchestrator.emptyWorkspace, [], 100, failFast⟩

/-- The relay begins with its batches of two. -/
lemma outset_relay : ({ waiting := batches 2 relay } : Progress)
    = { waiting := [relay.take 2, relay.drop 2] } := by
  simp [batches, relay]

/-- While the slow analyzer runs, the token of the stuck one is cancelled and no other. If failures do
not end the run, the last analyzer then starts with a fresh one; else the run is cancelled when the
slow analyzer has settled too. -/
theorem relay_spares_innocent :
    (∃ past s next, Trailed (relayTerms false) { waiting := batches 2 relay } past s ∧
      Step (relayTerms false) s next ∧
      TokenStep (relayTerms false) s next (past ++ s.flight) (past ++ s.leaves next ++ next.flight) ∧
      tokens (past ++ s.flight) s = [.child false (.root false), .child false (.root false)] ∧
      tokens (past ++ s.leaves next ++ next.flight) next
        = [.child false (.root false), .child true (.root false)]) ∧
    (∃ past s, Trailed (relayTerms false) { waiting := batches 2 relay } past s ∧
      s.flight.map Slot.state = [.running] ∧
      tokens (past ++ s.flight) s
        = [.child false (.root false), .child true (.root false), .child false (.root false)] ∧
      Spared (relayTerms false) relay past s) ∧
    ∃ past s, Trailed (relayTerms true) { waiting := batches 2 relay } past s ∧
      s.runToken = .root true ∧
      tokens (past ++ s.flight) s = [.child false (.root true), .child true (.root true)] ∧
      Spared (relayTerms true) relay past s := by
  have hspared (failFast : Bool) := (cancellation_spares_innocent (relayTerms failFast) 2 relay).2
  rw [outset_relay] at hspared ⊢
  have hrunning (failFast : Bool) : Trailed (relayTerms failFast)
      { waiting := [relay.take 2, relay.drop 2] } [] { waiting := [relay.take 2, relay.drop 2] } :=
    .refl
  have hrunning (failFast : Bool) := (hrunning failFast).tail (.openBatch rfl rfl rfl)
  have hrunning (failFast : Bool) := (hrunning failFast).tail
    (.invocation rfl (show _ = [_] ++ _ :: [] from rfl) .start)
  have hrunning (failFast : Bool) := (hrunning failFast).tail
    (.invocation rfl (show _ = [] ++ _ :: [_] from rfl) .start)
  have hlate : ¬ Invocation.EndsWithin 100 .never := not_false
  have hsettled (failFast : Bool) := ((hrunning failFast).tail
    (.invocation rfl (show _ = [_] ++ _ :: [] from rfl) (.expire hlate))).tail
    (.invocation rfl (show _ = [] ++ _ :: [_] from rfl) (.finish rfl (show 80 < 100 by decide)))
  refine ⟨?_, ?_, ?_⟩
  · exact ⟨_, _, _, hrunning false,
      .invocation rfl (show _ = [_] ++ _ :: [] from rfl) (.expire hlate),
      (hspared false _ _ (hrunning false)).2 _
        (.invocation rfl (show _ = [_] ++ _ :: [] from rfl) (.expire hlate)), rfl, rfl⟩
  · have h := (hsettled false).tail
      (.closeBatch rfl (List.cons_ne_nil _ _) (show _ = List.map _ [_, _] from rfl) rfl)
    have h := h.tail (.openBatch rfl rfl rfl)
    have h := h.tail (.invocation rfl (show _ = [] ++ _ :: [] from rfl) .start)
    exact ⟨_, _, h, rfl, rfl, (hspared false _ _ h).1⟩
  · have h := (hsettled true).tail (.abort rfl (show _ = List.map _ [_, _] from rfl) rfl)
    exact ⟨_, _, h, rfl, rfl, (hspared true _ _ h).1⟩

end Progress

end CodeAudit
