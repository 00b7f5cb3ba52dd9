import CodeAudit.Proofs.Run.Interleaving
/-!
# Moments of a run

Every analyzer of a run has a place on a board that shows whether its invocation is planned, is
running or has settled. Watching the board one sees the invocations start and settle, and from what
has been seen one can tell how the board stands.
-/
namespace CodeAudit

/-- Something that is seen on the board: the invocation at a place starts or settles. -/
inductive Moment where
  | starts (place : Nat)
  | settles (place : Nat)
deriving DecidableEq

/-- The place at which an invocation is seen to start. -/
def Moment.start? : Moment → Option Nat
  | starts place => some place
  | settles _ => none

/-- The places of the invocations that have been seen to start and not to settle. -/
def unsettled (trace : List Moment) : List Nat :=
  (trace.filterMap Moment.start?).filter fun place => .settles place ∉ trace

/-- A moment starts the invocation whose start it is. -/
lemma Moment.start?_eq_some_iff {m : Moment} {place : Nat} :
    m.start? = some place ↔ m = .starts place := by
  cases m <;> simp [start?]

/-- An invocation is under way if it has been seen to start and not to settle. -/
lemma mem_unsettled_iff {trace : List Moment} {place : Nat} :
    place ∈ unsettled trace ↔ .starts place ∈ trace ∧ .settles place ∉ trace := by
  rw [unsettled, List.mem_filter, List.mem_filterMap, decide_eq_true_eq]
  simp only [Moment.start?_eq_some_iff, exists_eq_right]

/-- No invocation is under way twice. -/
lemma nodup_unsettled {trace : List Moment} (h : trace.Nodup) : (unsettled trace).Nodup := by
  refine (h.filterMap ?_).filter _
  intro m m' place hm hm'
  rw [Moment.start?_eq_some_iff.1 hm, Moment.start?_eq_some_iff.1 hm']

namespace SlotState

def isStarted : SlotState → Bool
  | planned => false
  | running => true
  | settled _ => true

def isSettled : SlotState → Bool
  | planned => false
  | running => false
  | settled _ => true

/-- What is seen at a place when the first state is followed by the second. -/
def moments (place : Nat) (before after : SlotState) : List Moment :=
  (if !before.isStarted && after.isStarted then [.starts place] else []) ++
    if !before.isSettled && after.isSettled then [.settles place] else []

/-- What one step may make of the state at a place, and what is seen of it. -/
inductive Turns (place : Nat) : SlotState → SlotState → Moment → Prop where
  | start : Turns place .planned .running (.starts place)
  | settle {e} : Turns place .running (.settled e) (.settles place)

/-- Nothing is seen of a state that stays. -/
lemma moments_self (place : Nat) (state : SlotState) : state.moments place state = [] := by
  cases state <;> rfl

/-- One moment is seen of a state that turns. -/
lemma Turns.moments_eq {place : Nat} {before after : SlotState} {m : Moment}
    (h : Turns place before after m) : before.moments place after = [m] := by
  cases h <;> rfl

/-- What is seen of states that are followed by others, where the first one has the given place. -/
def allMoments (place : Nat) : List SlotState → List SlotState → List Moment
  | before :: rest, after :: rest' =>
    before.moments place after ++ allMoments (place + 1) rest rest'
  | _, _ => []

/-- Nothing is seen of a board that stays. -/
lemma allMoments_self (place : Nat) (board : List SlotState) :
    allMoments place board board = [] := by
  induction board generalizing place with
  | nil => rfl
  | cons state rest ih => rw [allMoments, moments_self, ih, List.append_nil]

/-- If the state of one place is followed by another, nothing is seen of the other places. -/
lemma allMoments_set {board : List SlotState} {place : Nat} {state : SlotState}
    (h : board[place]? = some state) (next : SlotState) (first : Nat) :
    allMoments first board (board.set place next) = state.moments (first + place) next := by
  induction board generalizing place first with
  | nil => exact absurd h nofun
  | cons head rest ih =>
    cases place with
    | zero =>
      obtain rfl := Option.some.inj h
      rw [List.set_cons_zero, allMoments, allMoments_self, List.append_nil, Nat.add_zero]
    | succ place =>
      rw [List.set_cons_succ, allMoments, moments_self, List.nil_append, ih h, Nat.add_right_comm,
        Nat.add_assoc]

end SlotState

/-- In a step about an invocation its state turns. -/
lemma Slot.Step.exists_turns {t : Terms} {runCancelled : Bool} {slot next : Slot}
    (step : Step t runCancelled slot next) (place : Nat) :
    ∃ m, SlotState.Turns place slot.state next.state m := by
  cases step with
  | start => exact ⟨_, .start⟩
  | finish => exact ⟨_, .settle⟩
  | expire => exact ⟨_, .settle⟩
  | disturb => exact ⟨_, .settle⟩

namespace Progress

variable {t : Terms} {s last next : Progress} {trace : List Moment}

/-- The states of all analyzers of a run, in order: those of the closed batches have settled, and
those of the batches that have not been opened are planned. -/
def board (s : Progress) : List SlotState :=
  s.closed.map SlotState.settled ++ (s.flight.map Slot.state ++
    s.waiting.flatten.map fun _ => .planned)

/-- What is seen on the board in a step. -/
def moments (s next : Progress) : List Moment :=
  SlotState.allMoments 0 s.board next.board

/-- A run to a state, with what is seen on the way. -/
inductive Recorded (t : Terms) (s : Progress) : List Moment → Progress → Prop where
  | refl : Recorded t s [] s
  | tail {trace middle last} :
    Recorded t s trace middle →
    Step t middle last →
    Recorded t s (trace ++ middle.moments last) last

/-- A run that is recorded is a run. -/
lemma Recorded.reaches (h : Recorded t s trace last) : Reaches t s last := by
  induction h with
  | refl => exact .refl
  | tail _ step ih => exact .tail ih step

/-- Every run can be recorded. -/
lemma Reaches.exists_recorded (h : Reaches t s last) : ∃ trace, Recorded t s trace last := by
  induction h with
  | refl => exact ⟨[], .refl⟩
  | tail _ step ih =>
    obtain ⟨trace, htrace⟩ := ih
    exact ⟨_, .tail htrace step⟩

/-- What a step does to the board: nothing, or one state of the open batch turns. -/
inductive BoardStep (s next : Progress) : Prop where
  | still : next.board = s.board → s.moments next = [] → BoardStep s next
  | turn {i state state' m} :
    i < s.flight.length →
    s.board[s.closed.length + i]? = some state →
    SlotState.Turns (s.closed.length + i) state state' m →
    next.board = s.board.set (s.closed.length + i) state' →
    s.moments next = [m] →
    BoardStep s next

/-- A step that leaves the board as it is turns nothing. -/
lemma BoardStep.of_board_eq (h : next.board = s.board) : BoardStep s next :=
  .still h (by rw [moments, h, SlotState.allMoments_self])

/-- Opening and closing a batch is not seen on the board. -/
lemma Step.boardStep (step : Step t s next) : BoardStep s next := by
  cases step with
  | @openBatch batch rest hanswer hflight hwaiting =>
    apply BoardStep.of_board_eq
    have hplanned : (batch.map fun worker => ({ worker } : Slot)).map Slot.state
        = batch.map fun _ => .planned := by
      rw [List.map_map]
      rfl
    rw [board, board, hflight, hwaiting, hplanned, List.flatten_cons, List.map_append, List.map_nil,
      List.nil_append]
  | @invocation front slot slot' back hanswer hflight hstep =>
    obtain ⟨m, hturns⟩ := hstep.exists_turns (s.closed.length + front.length)
    have hboard : s.board = (s.closed.map SlotState.settled ++ front.map Slot.state)
        ++ slot.state :: (back.map Slot.state ++ s.waiting.flatten.map fun _ => .planned) := by
      rw [board, hflight]
      simp only [List.map_append, List.map_cons, List.append_assoc, List.cons_append]
    have hlength : (s.closed.map SlotState.settled ++ front.map Slot.state).length
        = s.closed.length + front.length := by
      rw [List.length_append, List.length_map, List.length_map]
    have hstate : s.board[s.closed.length + front.length]? = some slot.state := by
      rw [hboard, ← hlength, List.getElem?_append_right (Nat.le_refl _), Nat.sub_self,
        List.getElem?_cons_zero]
    have hnext : ({ s with flight := front ++ slot' :: back } : Progress).board
        = s.board.set (s.closed.length + front.length) slot'.state := by
      rw [hboard, ← hlength, List.set_append_right _ _ (Nat.le_refl _), Nat.sub_self,
        List.set_cons_zero, board]
      simp only [List.map_append, List.map_cons, List.append_assoc, List.cons_append]
    refine .turn ?_ hstate hturns hnext ?_
    · rw [hflight, List.length_append, List.length_cons]
      omega
    · rw [moments, hnext, SlotState.allMoments_set hstate, Nat.zero_add, hturns.moments_eq]
  | @closeBatch executions hanswer hflight hsettled hgoes =>
    apply BoardStep.of_board_eq
    rw [board, board, hsettled, List.map_append, List.map_nil, List.nil_append, List.append_assoc]
  | abort => exact .of_board_eq rfl
  | complete => exact .of_board_eq rfl

/-- The places of closed batches have settled. -/
lemma getElem?_board_of_lt {place : Nat} (h : place < s.closed.length) :
    ∃ e, s.board[place]? = some (.settled e) := by
  refine ⟨s.closed[place], ?_⟩
  rw [board, List.getElem?_append_left (by rwa [List.length_map]), List.getElem?_map,
    List.getElem?_eq_getElem h]
  rfl

/-- An invocation that is running belongs to the open batch. -/
lemma exists_slot_of_running {place : Nat} (h : s.board[place]? = some .running) :
    ∃ i slot, place = s.closed.length + i ∧ s.flight[i]? = some slot ∧ slot.state = .running := by
  have hclosed : s.closed.length ≤ place := by
    by_contra hlt
    obtain ⟨e, he⟩ := getElem?_board_of_lt (not_le.1 hlt)
    exact absurd (h.symm.trans he) nofun
  obtain ⟨i, rfl⟩ := Nat.exists_eq_add_of_le hclosed
  rw [board, List.getElem?_append_right (by rw [List.length_map]; exact hclosed), List.length_map,
    Nat.add_sub_cancel_left] at h
  by_cases hflight : i < (s.flight.map Slot.state).length
  · rw [List.getElem?_append_left hflight, List.getElem?_map, Option.map_eq_some_iff] at h
    obtain ⟨slot, hslot, hstate⟩ := h
    exact ⟨i, slot, rfl, hslot, hstate⟩
  · rw [List.getElem?_append_right (not_lt.1 hflight), List.getElem?_map,
      Option.map_eq_some_iff] at h
    obtain ⟨-, -, hplanned⟩ := h
    exact absurd hplanned nofun

end Progress

/-- What has been seen is how the board stands: every place that shows so has started once, and
settled once. -/
structure Mirrors (trace : List Moment) (board : List SlotState) : Prop where
  once : trace.Nodup
  started : ∀ place, .starts place ∈ trace ↔ board[place]?.any SlotState.isStarted = true
  settled : ∀ place, .settles place ∈ trace ↔ board[place]?.any SlotState.isSettled = true

/-- An invocation that is under way is shown as running. -/
lemma Mirrors.running {trace : List Moment} {board : List SlotState} {place : Nat}
    (h : Mirrors trace board) (hplace : place ∈ unsettled trace) :
    board[place]? = some .running := by
  rw [mem_unsettled_iff, h.started, h.settled] at hplace
  obtain ⟨hstarted, hsettled⟩ := hplace
  cases hstate : board[place]? with
  | none =>
    rw [hstate] at hstarted
    exact absurd hstarted nofun
  | some state =>
    rw [hstate] at hstarted hsettled
    cases state with
    | planned => exact absurd hstarted nofun
    | running => rfl
    | settled e => exact absurd rfl hsettled

/-- A board on which all is planned has not been seen to change. -/
lemma mirrors_nil {board : List SlotState} (h : ∀ state ∈ board, state = .planned) :
    Mirrors [] board := by
  refine ⟨List.nodup_nil, fun place => ?_, fun place => ?_⟩
  all_goals
    cases hstate : board[place]? with
    | none => simp
    | some state =>
      rw [h state (List.mem_of_getElem? hstate)]
      simp [SlotState.isStarted, SlotState.isSettled]

/-- When one state is set, the others stay what they are. -/
lemma any_getElem?_set {board : List SlotState} {place : Nat} {state : SlotState}
    (h : board[place]? = some state) (state' : SlotState) (p : SlotState → Bool) (other : Nat) :
    (board.set place state')[other]?.any p
      = if other = place then p state' else board[other]?.any p := by
  split
  · next heq =>
    rw [heq, List.getElem?_set_self (List.getElem?_eq_some_iff.1 h).1, Option.any_some]
  · next hne => rw [List.getElem?_set_ne (Ne.symm hne)]

/-- The board still is as it has been seen when one state turns. -/
lemma Mirrors.turn {trace : List Moment} {board : List SlotState} {place : Nat}
    {state state' : SlotState} {m : Moment} (h : Mirrors trace board)
    (hstate : board[place]? = some state) (hturns : SlotState.Turns place state state' m) :
    Mirrors (trace ++ [m]) (board.set place state') := by
  have hstarted := h.started place
  have hsettled := h.settled place
  rw [hstate, Option.any_some] at hstarted hsettled
  cases hturns with
  | start =>
    have hnew : .starts place ∉ trace := fun hmem => absurd (hstarted.1 hmem) Bool.false_ne_true
    refine ⟨List.concat_eq_append ▸ h.once.concat hnew, fun other => ?_, fun other => ?_⟩
    · rw [List.mem_append, List.mem_singleton, h.started, any_getElem?_set hstate]
      by_cases heq : other = place <;> simp [heq, SlotState.isStarted]
    · rw [List.mem_append, List.mem_singleton, h.settled, any_getElem?_set hstate]
      by_cases heq : other = place <;> simp [heq, hstate, SlotState.isSettled]
  | settle =>
    have hnew : .settles place ∉ trace := fun hmem => absurd (hsettled.1 hmem) Bool.false_ne_true
    refine ⟨List.concat_eq_append ▸ h.once.concat hnew, fun other => ?_, fun other => ?_⟩
    · rw [List.mem_append, List.mem_singleton, h.started, any_getElem?_set hstate]
      by_cases heq : other = place <;> simp [heq, hstate, SlotState.isStarted]
    · rw [List.mem_append, List.mem_singleton, h.settled, any_getElem?_set hstate]
      by_cases heq : other = place <;> simp [heq, SlotState.isSettled]

end CodeAudit
