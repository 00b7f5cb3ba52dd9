import CodeAudit.Proofs.Run.Barrier
import CodeAudit.Proofs.Run.Invocations
/-!
# Stages of a run

A run goes through the entries of the registry, builds the analyzers and prepares them, then has them
analyze the files batch by batch, and when it has its answer it has them clear up. What is seen of a
run on the way is at every stage what was done to get the crew ready, then the moments of the
invocations, then the clearing up.
-/
namespace CodeAudit

/-- Something that is seen of a run: it does something to an analyzer, or an invocation starts or
settles. -/
inductive Occurrence where
  | event (e : Event)
  | moment (m : Moment)

namespace Occurrence

def event? : Occurrence → Option Event
  | event e => some e
  | moment _ => none

def moment? : Occurrence → Option Moment
  | event _ => none
  | moment m => some m

/-- What is done to analyzers in what is seen. -/
def events (seen : List Occurrence) : List Event :=
  seen.filterMap event?

/-- The moments of invocations in what is seen. -/
def moments (seen : List Occurrence) : List Moment :=
  seen.filterMap moment?

variable (seen seen' : List Occurrence)

/-- Events are seen one after the other. -/
lemma events_append : events (seen ++ seen') = events seen ++ events seen' :=
  List.filterMap_append

/-- Moments are seen one after the other. -/
lemma moments_append : moments (seen ++ seen') = moments seen ++ moments seen' :=
  List.filterMap_append

/-- Some events are what is done in them. -/
lemma events_map_event (list : List Event) : events (list.map event) = list := by
  rw [events, List.filterMap_map]
  exact List.filterMap_some

/-- Nothing is done in moments. -/
lemma events_map_moment (trace : List Moment) : events (trace.map moment) = [] := by
  rw [events, List.filterMap_map]
  exact List.filterMap_eq_nil_iff.2 fun _ _ => rfl

/-- No moments are seen in events. -/
lemma moments_map_event (list : List Event) : moments (list.map event) = [] := by
  rw [moments, List.filterMap_map]
  exact List.filterMap_eq_nil_iff.2 fun _ _ => rfl

/-- Some moments are what is seen of them. -/
lemma moments_map_moment (trace : List Moment) : moments (trace.map moment) = trace := by
  rw [moments, List.filterMap_map]
  exact List.filterMap_some

end Occurrence

/-- What is done to the analyzer of an entry to get it ready. -/
def RunConfig.setup (config : RunConfig) (entry : String × Factory) : List Event :=
  if (config.settingsFor entry.1).enabled then
    .built entry.1 (config.settingsFor entry.1).config ::
      if (entry.2 (config.settingsFor entry.1).config).isOk then [.prepared entry.1] else []
  else []

namespace Crew

variable {config : RunConfig}

/-- To enlist an entry sets it up. -/
lemma events_enlist (crew : Crew) (entry : String × Factory) :
    (enlist config crew entry).events = crew.events ++ config.setup entry := by
  obtain ⟨name, factory⟩ := entry
  cases henabled : (config.settingsFor name).enabled with
  | false => simp [enlist, RunConfig.setup, henabled]
  | true =>
    cases hbuilt : factory (config.settingsFor name).config with
    | error fault => simp [enlist, RunConfig.setup, henabled, hbuilt, Except.isOk, Except.toBool]
    | ok analyzer =>
      cases hprepared : analyzer.prepare <;>
        simp [enlist, RunConfig.setup, henabled, hbuilt, hprepared, Except.isOk, Except.toBool]

/-- The entries are set up one after the other. -/
lemma events_foldl_enlist (entries : List (String × Factory)) (crew : Crew) :
    (entries.foldl (enlist config) crew).events = crew.events ++ entries.flatMap config.setup := by
  induction entries generalizing crew with
  | nil => exact (List.append_nil _).symm
  | cons entry rest ih =>
    rw [List.foldl_cons, ih, events_enlist, List.flatMap_cons, List.append_assoc]

/-- To assemble a crew sets up each entry of the registry. -/
lemma events_assemble (registry : Registry) :
    (assemble config registry).events = registry.entries.flatMap config.setup := by
  rw [assemble, events_foldl_enlist]
  rfl

end Crew

/-- A run starts its batches in order, and possibly not all of them. -/
lemma Course.started_run_prefix (failFast : Bool) (execute : Analyzer → Execution)
    (waiting : List (List ReadyAnalyzer)) : (run failFast execute waiting).started <+: waiting := by
  induction waiting with
  | nil => exact List.prefix_rfl
  | cons batch rest ih =>
    rw [run]
    cases abort? failFast (batch.map fun r => execute r.analyzer) with
    | some error => exact ⟨rest, rfl⟩
    | none => exact (List.prefix_cons_inj batch).2 ih

/-- How far a run has come. -/
inductive RunStage where
  /-- Some entries have not been looked at. -/
  | preparing (left : List (String × Factory)) (crew : Crew)
  | executing (crew : Crew) (s : Progress)
  /-- Some analyzers have not cleared up. -/
  | clearing (left : List ReadyAnalyzer) (s : Progress)

/-- One step of a run of an orchestrator, with what is seen of it. -/
inductive RunStage.Step (o : Orchestrator) (t : Terms) :
    RunStage → List Occurrence → RunStage → Prop where
  | enlist {entry left crew} :
    Step o t (.preparing (entry :: left) crew)
      (((crew.enlist o.config entry).events.drop crew.events.length).map .event)
      (.preparing left (crew.enlist o.config entry))
  | begin {crew} :
    Step o t (.preparing [] crew) []
      (.executing crew { waiting := batches o.config.batchSize crew.ready })
  | advance {crew s next} :
    Progress.Step t s next →
    Step o t (.executing crew s) ((s.moments next).map .moment) (.executing crew next)
  /-- The run has its answer, whatever it is. -/
  | conclude {crew s} :
    s.answer ≠ none →
    Step o t (.executing crew s) [] (.clearing crew.ready s)
  /-- What clearing up comes to is not looked at. -/
  | clear {r left s} :
    Step o t (.clearing (r :: left) s) [.event (.cleaned r.entry)] (.clearing left s)

namespace Orchestrator

/-- A run of an orchestrator to a stage, with what is seen on the way. -/
inductive Lives (o : Orchestrator) (workspace : Workspace) (paths : List Path) :
    List Occurrence → RunStage → Prop where
  | outset :
    o.config.problem? = none →
    Lives o workspace paths [] (.preparing o.registry.entries {})
  | tail {seen stage seen' next} :
    Lives o workspace paths seen stage →
    RunStage.Step o (o.terms workspace paths) stage seen' next →
    Lives o workspace paths (seen ++ seen') next

/-- What is done to get the crew ready. -/
def setup (o : Orchestrator) : List Event :=
  o.registry.entries.flatMap o.config.setup

/-- To assemble the crew of a run gets it ready. -/
lemma events_assemble (o : Orchestrator) : (Crew.assemble o.config o.registry).events = o.setup :=
  Crew.events_assemble o.registry

/-- The clearing up after some analyzers. -/
def cleanups (ready : List ReadyAnalyzer) : List Event :=
  ready.map fun r => .cleaned r.entry

/-- At every stage of a run, what has been seen of it is what belongs to the stages so far. -/
inductive Staged (o : Orchestrator) (workspace : Workspace) (paths : List Path) :
    List Occurrence → RunStage → Prop where
  | preparing {front left} :
    o.registry.entries = front ++ left →
    Staged o workspace paths ((front.flatMap o.config.setup).map .event)
      (.preparing left (front.foldl (Crew.enlist o.config) {}))
  | executing {trace s} :
    Progress.Recorded (o.terms workspace paths) o.outset trace s →
    Staged o workspace paths (o.setup.map .event ++ trace.map .moment)
      (.executing (Crew.assemble o.config o.registry) s)
  | clearing {trace s cleared left} :
    Progress.Recorded (o.terms workspace paths) o.outset trace s →
    s.answer ≠ none →
    participants o.config o.registry = cleared ++ left →
    Staged o workspace paths
      (o.setup.map .event ++ trace.map .moment ++ (cleanups cleared).map .event)
      (.clearing left s)

variable {o : Orchestrator} {workspace : Workspace} {paths : List Path} {seen seen' : List Occurrence}
  {stage next : RunStage} {s last : Progress} {crew : Crew}

/-- A run begins with the batches of its crew. -/
lemma outset_eq (o : Orchestrator) :
    o.outset
      = { waiting := batches o.config.batchSize (Crew.assemble o.config o.registry).ready } := by
  rw [Crew.ready_assemble]
  rfl

/-- What is seen of a run belongs to its stages after a step as before. -/
lemma Staged.step (h : o.Staged workspace paths seen stage)
    (step : RunStage.Step o (o.terms workspace paths) stage seen' next) :
    o.Staged workspace paths (seen ++ seen') next := by
  cases h with
  | @preparing front _ hentries =>
    cases step with
    | @enlist entry left =>
      have hevents : ((front.foldl (Crew.enlist o.config) {}).enlist o.config entry).events.drop
          (front.foldl (Crew.enlist o.config) {}).events.length = o.config.setup entry := by
        rw [Crew.events_enlist, List.drop_left]
      have hseen : front.flatMap o.config.setup ++ o.config.setup entry
          = (front ++ [entry]).flatMap o.config.setup := by
        rw [List.flatMap_append, List.flatMap_singleton]
      have hcrew : (front.foldl (Crew.enlist o.config) {}).enlist o.config entry
          = (front ++ [entry]).foldl (Crew.enlist o.config) {} := by
        rw [List.foldl_append]
        rfl
      rw [hevents, ← List.map_append, hseen, hcrew]
      exact .preparing (by rw [hentries, List.append_assoc, List.singleton_append])
    | begin =>
      rw [List.append_nil] at hentries
      subst hentries
      have hbegun : o.Staged workspace paths (o.setup.map .event ++ [].map .moment)
          (.executing (Crew.assemble o.config o.registry) o.outset) := .executing .refl
      rw [outset_eq] at hbegun
      exact hbegun
  | executing hrecorded =>
    cases step with
    | advance hstep =>
      rw [List.append_assoc, ← List.map_append]
      exact .executing (hrecorded.tail hstep)
    | conclude hanswer =>
      rw [Crew.ready_assemble]
      exact @Staged.clearing o workspace paths _ _ [] _ hrecorded hanswer rfl
  | @clearing trace _ cleared _ hrecorded hanswer hready =>
    cases step with
    | @clear r left =>
      have hseen : (cleanups cleared).map Occurrence.event ++ [.event (.cleaned r.entry)]
          = (cleanups (cleared ++ [r])).map .event := by
        rw [cleanups, cleanups, List.map_append, List.map_append]
        rfl
      rw [List.append_assoc, hseen]
      exact .clearing hrecorded hanswer (by rw [hready, List.append_assoc, List.singleton_append])

/-- What is seen of a run belongs to its stages. -/
lemma Lives.staged (h : o.Lives workspace paths seen stage) : o.Staged workspace paths seen stage := by
  induction h with
  | outset => exact @Staged.preparing o workspace paths [] _ rfl
  | tail _ step ih => exact ih.step step

/-- A run that has begun has a good configuration. -/
lemma Lives.problem?_eq_none (h : o.Lives workspace paths seen stage) : o.config.problem? = none := by
  induction h with
  | outset hvalid => exact hvalid
  | tail _ _ ih => exact ih

/-- The entries that are left can be set up. -/
lemma Lives.exists_prepared {left : List (String × Factory)}
    (h : o.Lives workspace paths seen (.preparing left crew)) :
    ∃ more crew', o.Lives workspace paths (seen ++ more) (.preparing [] crew') := by
  induction left generalizing seen crew with
  | nil => exact ⟨[], crew, by rwa [List.append_nil]⟩
  | cons entry left ih =>
    obtain ⟨more, crew', hmore⟩ := ih (h.tail .enlist)
    rw [List.append_assoc] at hmore
    exact ⟨_, crew', hmore⟩

/-- The analyzers that are left can clear up. -/
lemma Lives.exists_cleared {left : List ReadyAnalyzer}
    (h : o.Lives workspace paths seen (.clearing left s)) :
    ∃ more, o.Lives workspace paths (seen ++ more) (.clearing [] s) := by
  induction left generalizing seen with
  | nil => exact ⟨[], by rwa [List.append_nil]⟩
  | cons r left ih =>
    obtain ⟨more, hmore⟩ := ih (h.tail .clear)
    rw [List.append_assoc] at hmore
    exact ⟨_, hmore⟩

/-- A run can be taken on as far as its batches go. -/
lemma Lives.exists_advanced (h : o.Lives workspace paths seen (.executing crew s))
    (hreaches : Progress.Reaches (o.terms workspace paths) s last) :
    ∃ more, o.Lives workspace paths (seen ++ more) (.executing crew last) := by
  induction hreaches with
  | refl => exact ⟨[], by rwa [List.append_nil]⟩
  | tail _ step ih =>
    obtain ⟨more, hmore⟩ := ih
    have hnext := hmore.tail (.advance step)
    rw [List.append_assoc] at hnext
    exact ⟨_, hnext⟩

/-- A run that is executing can be taken to its end. -/
lemma Lives.exists_complete_of_executing (h : o.Lives workspace paths seen (.executing crew s)) :
    ∃ more last, o.Lives workspace paths (seen ++ more) (.clearing [] last) := by
  obtain ⟨last, a, hreaches, hanswer⟩ := Progress.exists_answer (o.terms workspace paths) s
  obtain ⟨more, hmore⟩ := h.exists_advanced hreaches
  obtain ⟨more', hmore'⟩ :=
    (hmore.tail (.conclude (hanswer ▸ Option.some_ne_none a))).exists_cleared
  rw [List.append_nil, List.append_assoc] at hmore'
  exact ⟨_, last, hmore'⟩

/-- Wherever a run stands, it can go on until all analyzers have cleared up. -/
lemma Lives.exists_complete (h : o.Lives workspace paths seen stage) :
    ∃ more last, o.Lives workspace paths (seen ++ more) (.clearing [] last) := by
  cases stage with
  | preparing left crew =>
    obtain ⟨more, crew', hmore⟩ := h.exists_prepared
    obtain ⟨more', last, hmore'⟩ := (hmore.tail .begin).exists_complete_of_executing
    rw [List.append_nil, List.append_assoc] at hmore'
    exact ⟨_, last, hmore'⟩
  | executing crew s => exact h.exists_complete_of_executing
  | clearing left s =>
    obtain ⟨more, hmore⟩ := h.exists_cleared
    exact ⟨more, s, hmore⟩

end Orchestrator

end CodeAudit
