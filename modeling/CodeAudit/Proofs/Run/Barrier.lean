import CodeAudit.Proofs.Run.Moments
import CodeAudit.Proofs.Run.Order
/-!
# Batches one after the other

However the steps of a run are ordered, no more invocations are under way than a batch has, and none
starts before all those of the batches before its own have settled. A run that is not ended by a
failure starts each invocation once, and a run that has its answer has left none behind.
-/
namespace CodeAudit

/-- A moment may come after those before it: an invocation starts after all those of earlier batches
have settled, and settles after it has started. -/
def Moment.Due (width : Nat) (before : List Moment) : Moment → Prop
  | starts place => ∀ other, other / width < place / width → .settles other ∈ before
  | settles place => .starts place ∈ before

/-- Every moment of a trace comes when it is due. -/
def Orderly (width : Nat) (trace : List Moment) : Prop :=
  ∀ before m after, trace = before ++ m :: after → m.Due width before

/-- A moment that is due keeps a trace in order. -/
lemma Orderly.concat {width : Nat} {trace : List Moment} {m : Moment} (h : Orderly width trace)
    (hm : m.Due width trace) : Orderly width (trace ++ [m]) := by
  intro before m' after heq
  obtain rfl | ⟨after, last, rfl⟩ := after.eq_nil_or_concat
  · obtain ⟨rfl, hlast⟩ := List.append_inj' heq rfl
    obtain rfl := List.singleton_inj.1 hlast
    exact hm
  · rw [List.concat_eq_append, ← List.cons_append, ← List.append_assoc] at heq
    exact h before m' after (List.append_inj' heq rfl).1

namespace Progress

variable {t : Terms} {size : Nat} {ready : List ReadyAnalyzer} {s next : Progress}
  {trace : List Moment}

/-- The batches that have not been closed, with the open one before the others. -/
def unclosed (s : Progress) : List (List ReadyAnalyzer) :=
  if s.flight = [] then s.waiting else s.flight.map Slot.worker :: s.waiting

/-- The batches that have not been closed are those of the analyzers that have no execution yet, and
they begin where a batch ends. -/
structure Aligned (size : Nat) (ready : List ReadyAnalyzer) (s : Progress) : Prop where
  cut : s.unclosed = batches size (ready.drop s.closed.length)
  boundary : s.unclosed ≠ [] → max size 1 ∣ s.closed.length

/-- The open batch takes its size off the analyzers that have no execution yet. -/
lemma Aligned.open_batch (h : s.Aligned size ready) (hflight : s.flight ≠ []) :
    s.flight.map Slot.worker = (ready.drop s.closed.length).take (max size 1) ∧
      s.waiting = batches size ((ready.drop s.closed.length).drop (max size 1)) := by
  have hcut := h.cut
  rw [unclosed, if_neg hflight] at hcut
  exact (batches_eq_cons hcut.symm).2

/-- The open batch has no more invocations than a batch may have. -/
lemma Aligned.length_flight_le (h : s.Aligned size ready) : s.flight.length ≤ max size 1 := by
  by_cases hflight : s.flight = []
  · rw [hflight]
    exact Nat.zero_le _
  · rw [← List.length_map Slot.worker, (h.open_batch hflight).1]
    exact List.length_take_le _ _

/-- An open batch begins where a batch ends. -/
lemma Aligned.dvd (h : s.Aligned size ready) (hflight : s.flight ≠ []) :
    max size 1 ∣ s.closed.length := by
  apply h.boundary
  rw [unclosed, if_neg hflight]
  exact List.cons_ne_nil _ _

/-- The analyzers in the open batch and those that wait are the last ones of the list. -/
lemma Aligned.lineup (h : s.Aligned size ready) :
    s.flight.map Slot.worker ++ s.waiting.flatten = ready.drop s.closed.length := by
  rw [← flatten_batches size (ready.drop _), ← h.cut, unclosed]
  split
  · next hflight => rw [hflight, List.map_nil, List.nil_append]
  · rw [List.flatten_cons]

/-- A run that begins is aligned to its batches. -/
lemma aligned_init (size : Nat) (ready : List ReadyAnalyzer) :
    Aligned size ready { waiting := batches size ready } :=
  ⟨rfl, fun _ => Nat.dvd_zero _⟩

/-- Every step keeps the batches where they have been cut. -/
lemma Step.aligned (step : Step t s next) (h : s.Aligned size ready) : next.Aligned size ready := by
  cases step with
  | @openBatch batch rest hanswer hflight hwaiting =>
    obtain ⟨hcut, hboundary⟩ := h
    rw [unclosed, if_pos hflight, hwaiting] at hcut hboundary
    obtain ⟨hne, hbatch, -⟩ := batches_eq_cons hcut.symm
    have hopen : batch.map (fun worker => ({ worker } : Slot)) ≠ [] := by
      rw [hbatch, Ne, List.map_eq_nil_iff, List.take_eq_nil_iff]
      rintro (hsize | hnil)
      · omega
      · exact hne hnil
    refine ⟨?_, fun _ => hboundary (List.cons_ne_nil _ _)⟩
    rw [unclosed, if_neg hopen, Slot.map_worker_open]
    exact hcut
  | @invocation front slot slot' back hanswer hflight hstep =>
    have hworkers : (front ++ slot' :: back).map Slot.worker = s.flight.map Slot.worker :=
      hflight ▸ hstep.map_worker front back
    have hunclosed : ({ s with flight := front ++ slot' :: back } : Progress).unclosed
        = s.unclosed := by
      rw [unclosed, unclosed, hworkers, if_neg (by simp), if_neg (by simp [hflight])]
    exact ⟨hunclosed.trans h.cut, fun hne => h.boundary (hunclosed ▸ hne)⟩
  | @closeBatch executions hanswer hflight hsettled hgoes =>
    obtain ⟨hbatch, hwaiting⟩ := h.open_batch hflight
    have hlength : executions.length
        = ((ready.drop s.closed.length).take (max size 1)).length := by
      rw [← hbatch, List.length_map, ← List.length_map Slot.state, hsettled, List.length_map]
    refine ⟨?_, fun hne => ?_⟩
    · have hdrop : (ready.drop s.closed.length).drop (max size 1)
          = (ready.drop s.closed.length).drop executions.length := by
        rw [hlength, List.length_take, List.drop_eq_drop_iff]
        omega
      show s.waiting = batches size (ready.drop (s.closed ++ executions).length)
      rw [hwaiting, hdrop, List.drop_drop, List.length_append]
    · have hmore : max size 1 < (ready.drop s.closed.length).length := by
        by_contra hle
        have hnil : s.waiting = [] := by
          rw [hwaiting, List.drop_eq_nil_of_le (not_lt.1 hle), batches]
        exact hne hnil
      show max size 1 ∣ (s.closed ++ executions).length
      rw [List.length_append, hlength, List.length_take_of_le hmore.le]
      exact Nat.dvd_add (h.dvd hflight) (Nat.dvd_refl _)
  | abort => exact ⟨h.cut, h.boundary⟩
  | complete => exact ⟨h.cut, h.boundary⟩

/-- What is seen of an invocation of the open batch is due: all before the batch have settled. -/
lemma Aligned.due (h : s.Aligned size ready) (hmirrors : Mirrors trace s.board) {i : Nat}
    {state state' : SlotState} {m : Moment} (hi : i < s.flight.length)
    (hstate : s.board[s.closed.length + i]? = some state)
    (hturns : SlotState.Turns (s.closed.length + i) state state' m) :
    m.Due (max size 1) trace := by
  cases hturns with
  | start =>
    intro other hother
    -- the places of the batch have one quotient, and those of a lesser one have been closed
    have hclosed : other < s.closed.length := by
      obtain ⟨k, hk⟩ := h.dvd (List.ne_nil_of_length_pos (Nat.zero_lt_of_lt hi))
      rw [hk] at hother ⊢
      rw [Nat.mul_add_div (by omega), Nat.div_eq_of_lt (hi.trans_le h.length_flight_le),
        Nat.add_zero, Nat.div_lt_iff_lt_mul (by omega), Nat.mul_comm] at hother
      exact hother
    obtain ⟨e, he⟩ := getElem?_board_of_lt hclosed
    rw [hmirrors.settled, he]
    rfl
  | settle =>
    show _ ∈ trace
    rw [hmirrors.started, hstate]
    rfl

/-- A run that has its answer has left no invocation behind, and no batch unless it was ended by a
failure. -/
structure Concluded (s : Progress) : Prop where
  settled : s.answer ≠ none → ∀ slot ∈ s.flight, slot.state ≠ .running
  whole : ∀ executions, s.answer = some (.ok executions) → s.flight = [] ∧ s.waiting = []

/-- A step that gives an answer leaves nothing behind. -/
lemma Step.concluded (step : Step t s next) : next.Concluded := by
  cases step with
  | openBatch hanswer =>
    exact ⟨fun h => absurd hanswer h, fun _ h => absurd (hanswer.symm.trans h) nofun⟩
  | invocation hanswer =>
    exact ⟨fun h => absurd hanswer h, fun _ h => absurd (hanswer.symm.trans h) nofun⟩
  | closeBatch hanswer =>
    exact ⟨fun h => absurd hanswer h, fun _ h => absurd (hanswer.symm.trans h) nofun⟩
  | abort hanswer hsettled =>
    refine ⟨fun _ slot hslot hrunning => ?_, nofun⟩
    obtain ⟨e, he⟩ := hsettled.exists_eq hslot
    exact absurd (he.symm.trans hrunning) nofun
  | complete hanswer hflight hwaiting =>
    refine ⟨fun _ slot hslot => ?_, fun _ _ => ⟨hflight, hwaiting⟩⟩
    rw [hflight] at hslot
    exact absurd hslot List.not_mem_nil

/-- What holds of a run that is watched from its beginning. -/
structure Watched (size : Nat) (ready : List ReadyAnalyzer) (trace : List Moment) (s : Progress) :
    Prop where
  aligned : s.Aligned size ready
  mirrors : Mirrors trace s.board
  orderly : Orderly (max size 1) trace
  length : s.board.length = ready.length
  concluded : s.Concluded

/-- A run that begins may be watched. -/
lemma watched_init (size : Nat) (ready : List ReadyAnalyzer) :
    Watched size ready [] { waiting := batches size ready } := by
  have hboard : ({ waiting := batches size ready } : Progress).board
      = ready.map fun _ => .planned := by
    rw [board, flatten_batches]
    rfl
  refine ⟨aligned_init size ready, mirrors_nil ?_, ?_, ?_, ⟨fun h => absurd rfl h, fun _ h => ?_⟩⟩
  · rw [hboard, List.forall_mem_map]
    exact fun _ _ => rfl
  · intro before m after h
    exact absurd h.symm (List.append_ne_nil_of_right_ne_nil _ (List.cons_ne_nil _ _))
  · rw [hboard, List.length_map]
  · exact absurd h.symm (Option.some_ne_none _)

/-- What holds of a run that is watched holds after each step. -/
lemma Step.watched (step : Step t s next) (h : Watched size ready trace s) :
    Watched size ready (trace ++ s.moments next) next := by
  cases step.boardStep with
  | still hboard hmoments =>
    rw [hmoments, List.append_nil]
    exact ⟨step.aligned h.aligned, hboard ▸ h.mirrors, h.orderly, hboard ▸ h.length, step.concluded⟩
  | turn hi hstate hturns hboard hmoments =>
    rw [hmoments]
    refine ⟨step.aligned h.aligned, ?_, ?_, ?_, step.concluded⟩
    · rw [hboard]
      exact h.mirrors.turn hstate hturns
    · exact h.orderly.concat (h.aligned.due h.mirrors hi hstate hturns)
    · rw [hboard, List.length_set, h.length]

/-- A run that is recorded from its beginning has been watched. -/
lemma Recorded.watched (h : Recorded t { waiting := batches size ready } trace s) :
    Watched size ready trace s := by
  induction h with
  | refl => exact watched_init size ready
  | tail _ step ih => exact step.watched ih

/-- A run of some analyzers that has been seen to take the given moments keeps to its batches of the
given size. -/
structure Disciplined (t : Terms) (size : Nat) (ready : List ReadyAnalyzer) (trace : List Moment)
    (s : Progress) : Prop where
  lineup : s.flight.map Slot.worker ++ s.waiting.flatten = ready.drop s.closed.length
  places : ∀ place, .starts place ∈ trace → place < ready.length
  bound : (unsettled trace).length ≤ max size 1
  barrier : ∀ before place after, trace = before ++ .starts place :: after →
    ∀ other, other / max size 1 < place / max size 1 → .settles other ∈ before
  order : ∀ before place after, trace = before ++ .settles place :: after →
    .starts place ∈ before
  once : ∀ m, trace.count m ≤ 1
  whole : ∀ executions, s.answer = some (.ok executions) →
    ∀ place < ready.length, trace.count (.starts place) = 1
  ongoing : s.answer = none → ∃ next, Step t s next
  finished : s.answer ≠ none → unsettled trace = [] ∧ ∀ next, ¬ Step t s next

/-- No more invocations are under way than a batch may have. -/
lemma Watched.bound (h : Watched size ready trace s) : (unsettled trace).length ≤ max size 1 := by
  have hflight : unsettled trace ⊆ List.range' s.closed.length s.flight.length := by
    intro place hplace
    obtain ⟨i, slot, rfl, hslot, -⟩ := exists_slot_of_running (h.mirrors.running hplace)
    have hlt : i < s.flight.length := (List.getElem?_eq_some_iff.1 hslot).1
    exact List.mem_range'_1.2 ⟨Nat.le_add_right _ _, Nat.add_lt_add_left hlt _⟩
  calc (unsettled trace).length
      ≤ (List.range' s.closed.length s.flight.length).length :=
        ((nodup_unsettled h.mirrors.once).subperm hflight).length_le
    _ = s.flight.length := List.length_range'
    _ ≤ max size 1 := h.aligned.length_flight_le

/-- An invocation that has started has the place of an analyzer of the run. -/
lemma Watched.place_lt (h : Watched size ready trace s) {place : Nat}
    (hplace : .starts place ∈ trace) : place < ready.length := by
  rw [h.mirrors.started, Option.any_eq_true] at hplace
  obtain ⟨state, hstate, -⟩ := hplace
  rw [← h.length]
  exact (List.getElem?_eq_some_iff.1 hstate).1

/-- In a run with all executions, each invocation has started once. -/
lemma Watched.count_starts (h : Watched size ready trace s) {executions : List Execution}
    (hanswer : s.answer = some (.ok executions)) {place : Nat} (hplace : place < ready.length) :
    trace.count (.starts place) = 1 := by
  obtain ⟨hflight, hwaiting⟩ := h.concluded.whole executions hanswer
  have hclosed : s.closed.length = ready.length := by
    rw [← h.length, board, hflight, hwaiting]
    simp
  obtain ⟨e, he⟩ := getElem?_board_of_lt (hclosed ▸ hplace)
  apply List.count_eq_one_of_mem h.mirrors.once
  rw [h.mirrors.started, he]
  rfl

/-- A run that has its answer has no invocation under way. -/
lemma Watched.unsettled_eq_nil (h : Watched size ready trace s) (hanswer : s.answer ≠ none) :
    unsettled trace = [] := by
  rw [List.eq_nil_iff_forall_not_mem]
  intro place hplace
  obtain ⟨i, slot, -, hslot, hrunning⟩ := exists_slot_of_running (h.mirrors.running hplace)
  exact h.concluded.settled hanswer slot (List.mem_of_getElem? hslot) hrunning

/-- A run that takes a step has no answer yet. -/
lemma Step.answer_eq_none (step : Step t s next) : s.answer = none := by
  cases step <;> assumption

/-- A run that is recorded from its beginning keeps to its batches. -/
lemma Recorded.disciplined (h : Recorded t { waiting := batches size ready } trace s) :
    Disciplined t size ready trace s where
  lineup := h.watched.aligned.lineup
  places _ := h.watched.place_lt
  bound := h.watched.bound
  barrier before place after heq := h.watched.orderly before (.starts place) after heq
  order before place after heq := h.watched.orderly before (.settles place) after heq
  once := List.nodup_iff_count_le_one.1 h.watched.mirrors.once
  whole _ hanswer _ := h.watched.count_starts hanswer
  ongoing := exists_step t
  finished hanswer :=
    ⟨h.watched.unsettled_eq_nil hanswer, fun _ step => hanswer step.answer_eq_none⟩

/-- In whatever state a run is, at most one batch of its invocations is under way, none has started
before the batches before its own had settled, and none is left behind when the run has its answer.
A report is assembled of such an answer and of nothing less. If an orchestrator is not to run its
analyzers in parallel, one is under way at a time. -/
theorem batch_barrier :
    (∀ t size ready trace s, Recorded t { waiting := batches size ready } trace s →
      Disciplined t size ready trace s) ∧
    (∀ t size ready s, Reaches t { waiting := batches size ready } s ↔
      ∃ trace, Recorded t { waiting := batches size ready } trace s) ∧
    (∀ (o : Orchestrator) workspace now paths report, o.Ends workspace now paths (.ok report) →
      ∃ trace s executions, Recorded (o.terms workspace paths) o.outset trace s ∧
        s.answer = some (.ok executions) ∧ unsettled trace = [] ∧
        report = .assemble o.config o.templates workspace.files now (Path.distinct paths) executions
          s.milliseconds) ∧
    ∀ (o : Orchestrator) workspace paths trace s, o.config.parallel = false →
      Recorded (o.terms workspace paths) o.outset trace s → (unsettled trace).length ≤ 1 := by
  refine ⟨fun _ _ _ _ _ h => h.disciplined,
    fun _ _ _ _ => ⟨Reaches.exists_recorded, fun ⟨_, h⟩ => h.reaches⟩, ?_, ?_⟩
  · intro o workspace now paths report h
    cases h with
    | @reported s executions hvalid hreaches hanswer =>
      obtain ⟨trace, htrace⟩ := hreaches.exists_recorded
      have hfinished := htrace.disciplined.finished (hanswer ▸ Option.some_ne_none _)
      exact ⟨trace, s, executions, htrace, hanswer, hfinished.1, rfl⟩
  · intro o workspace paths trace s hparallel h
    have hsize : o.config.batchSize = 1 := by
      rw [RunConfig.batchSize, hparallel]
      rfl
    have hbound := h.disciplined.bound
    rwa [hsize] at hbound

/-- An analyzer that takes its time, one that never ends and one that breaks off. -/
def relay : List ReadyAnalyzer :=
  [⟨"slow", Orchestrator.steadyAnalyzer "slow" (.settles 80 (.issues []))⟩,
    ⟨"stuck", Orchestrator.steadyAnalyzer "stuck" .never⟩,
    ⟨"last", Orchestrator.steadyAnalyzer "last" (.settles 1 (.panic "overflow"))⟩]

/-- The relay, two at a time or one after the other. -/
def relayOrchestrator (parallel : Bool) : Orchestrator where
  config := { parallel, maxConcurrent := 2, timeoutMs := 100 }
  registry := ⟨relay.map fun r => (r.entry, fun _ => .ok r.analyzer)⟩

/-- The stuck analyzer starts before the slow one and runs out of time before it ends; the last one
waits for both. In a run that is not parallel it does so for each. -/
theorem relayOrchestrator_batch_barrier :
    (∃ s, Recorded ((relayOrchestrator true).terms Orchestrator.emptyWorkspace [])
        (relayOrchestrator true).outset
        [.starts 1, .starts 0, .settles 1, .settles 0, .starts 2, .settles 2] s ∧
      s.answer ≠ none ∧ unsettled [.starts 1, .starts 0] = [1, 0] ∧
      Disciplined ((relayOrchestrator true).terms Orchestrator.emptyWorkspace []) 2 relay
        [.starts 1, .starts 0, .settles 1, .settles 0, .starts 2, .settles 2] s) ∧
    (∃ report trace s, (relayOrchestrator true).Ends Orchestrator.emptyWorkspace default []
        (.ok report) ∧
      Recorded ((relayOrchestrator true).terms Orchestrator.emptyWorkspace [])
        (relayOrchestrator true).outset trace s ∧ unsettled trace = []) ∧
    (relayOrchestrator false).config.parallel = false ∧
    ∃ s, Recorded ((relayOrchestrator false).terms Orchestrator.emptyWorkspace [])
        (relayOrchestrator false).outset [.starts 0, .settles 0, .starts 1] s ∧
      (unsettled [.starts 0, .settles 0, .starts 1]).length ≤ 1 := by
  obtain ⟨hdisciplined, -, hreport, hsequential⟩ := batch_barrier
  refine ⟨?_, ?_, rfl, ?_⟩
  · have houtset : (relayOrchestrator true).outset
        = { waiting := [relay.take 2, relay.drop 2] } := by
      show ({ waiting := batches 2 relay } : Progress) = _
      simp [batches, relay]
    have h : Recorded ((relayOrchestrator true).terms Orchestrator.emptyWorkspace [])
        (relayOrchestrator true).outset [] { waiting := [relay.take 2, relay.drop 2] } := by
      rw [← houtset]
      exact .refl
    have h := h.tail (.openBatch rfl rfl rfl)
    have h := h.tail (.invocation rfl (show _ = [_] ++ _ :: [] from rfl) .start)
    have h := h.tail (.invocation rfl (show _ = [] ++ _ :: [_] from rfl) .start)
    have h := h.tail (.invocation rfl (show _ = [_] ++ _ :: [] from rfl) (.expire not_false))
    have h := h.tail (.invocation rfl (show _ = [] ++ _ :: [_] from rfl)
      (.finish rfl (show 80 < 100 by decide)))
    have h := h.tail (.closeBatch rfl (List.cons_ne_nil _ _)
      (show _ = List.map _ [_, _] from rfl) rfl)
    have h := h.tail (.openBatch rfl rfl rfl)
    have h := h.tail (.invocation rfl (show _ = [] ++ _ :: [] from rfl) .start)
    have h := h.tail (.invocation rfl (show _ = [] ++ _ :: [] from rfl)
      (.finish rfl (show 1 < 100 by decide)))
    have h := h.tail (.closeBatch rfl (List.cons_ne_nil _ _) (show _ = List.map _ [_] from rfl) rfl)
    have h := h.tail (.complete rfl rfl rfl)
    exact ⟨_, h, Option.some_ne_none _, by decide, hdisciplined _ 2 relay _ _ h⟩
  · obtain ⟨report, hends⟩ : ∃ report, (relayOrchestrator true).Ends Orchestrator.emptyWorkspace
        default [] (.ok report) := ⟨_, (Orchestrator.ends_iff_of_goes_on rfl rfl).2 rfl⟩
    obtain ⟨trace, s, -, hrecorded, -, hunsettled, -⟩ := hreport _ _ _ _ _ hends
    exact ⟨report, trace, s, hends, hrecorded, hunsettled⟩
  · have houtset : (relayOrchestrator false).outset
        = { waiting := [relay.take 1, (relay.drop 1).take 1, relay.drop 2] } := by
      show ({ waiting := batches 1 relay } : Progress) = _
      simp [batches, relay]
    have h : Recorded ((relayOrchestrator false).terms Orchestrator.emptyWorkspace [])
        (relayOrchestrator false).outset []
        { waiting := [relay.take 1, (relay.drop 1).take 1, relay.drop 2] } := by
      rw [← houtset]
      exact .refl
    have h := h.tail (.openBatch rfl rfl rfl)
    have h := h.tail (.invocation rfl (show _ = [] ++ _ :: [] from rfl) .start)
    have h := h.tail (.invocation rfl (show _ = [] ++ _ :: [] from rfl)
      (.finish rfl (show 80 < 100 by decide)))
    have h := h.tail (.closeBatch rfl (List.cons_ne_nil _ _) (show _ = List.map _ [_] from rfl) rfl)
    have h := h.tail (.openBatch rfl rfl rfl)
    have h := h.tail (.invocation rfl (show _ = [] ++ _ :: [] from rfl) .start)
    exact ⟨_, h, hsequential _ _ _ _ _ rfl h⟩

end Progress

end CodeAudit
