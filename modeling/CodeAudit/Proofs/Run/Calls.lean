import CodeAudit.Proofs.List
import CodeAudit.Proofs.Run.Stages
/-!
# Calls of a run

What is done to the analyzers of a run outside of their invocations is said of each entry of the
registry: it is built if it is enabled and prepared if it could be built, and it clears up if it has
been prepared. In what is seen of a run all moments of invocations lie between the two.
-/
namespace CodeAudit

namespace Event

/-- The entry whose factory is called, and with what configuration. -/
def built? : Event → Option (String × Json)
  | built entry config => some (entry, config)
  | _ => none

def prepared? : Event → Option String
  | prepared entry => some entry
  | _ => none

def cleaned? : Event → Option String
  | cleaned entry => some entry
  | _ => none

/-- Whether something is done to an analyzer in an invocation of it. -/
def isInvocation : Event → Bool
  | invoked _ _ => true
  | noticed _ => true
  | _ => false

end Event

section Setup

variable (config : RunConfig) (entry : String × Factory)

/-- An entry is built with its configuration if it is enabled. -/
lemma RunConfig.filterMap_built?_setup :
    (config.setup entry).filterMap Event.built?
      = if (config.settingsFor entry.1).enabled then
          [(entry.1, (config.settingsFor entry.1).config)]
        else [] := by
  rw [setup]
  split
  · split <;> rfl
  · rfl

/-- An entry is prepared if it is enabled and could be built. -/
lemma RunConfig.filterMap_prepared?_setup :
    (config.setup entry).filterMap Event.prepared?
      = if (entry.2 (config.settingsFor entry.1).config).isOk
            && (config.settingsFor entry.1).enabled then
          [entry.1]
        else [] := by
  rw [setup, Bool.and_comm]
  cases (config.settingsFor entry.1).enabled with
  | false => rfl
  | true => cases (entry.2 (config.settingsFor entry.1).config).isOk <;> rfl

/-- To set up an entry clears up after none. -/
lemma RunConfig.filterMap_cleaned?_setup : (config.setup entry).filterMap Event.cleaned? = [] := by
  rw [setup]
  split
  · split <;> rfl
  · rfl

/-- To set up an entry invokes no analyzer. -/
lemma RunConfig.not_isInvocation_setup : ∀ e ∈ config.setup entry, e.isInvocation = false := by
  rw [setup]
  split
  · split <;> simp [Event.isInvocation]
  · exact fun e he => absurd he List.not_mem_nil

variable {config entry}

/-- What is prepared has just been built. -/
lemma RunConfig.eq_singleton_built_of_setup {before after : List Event} {name : String}
    (h : config.setup entry = before ++ .prepared name :: after) :
    ∃ settings, before = [.built name settings] := by
  rw [setup] at h
  split at h
  · cases before with
    | nil => cases (List.cons.inj h).1
    | cons first before =>
      obtain ⟨rfl, hrest⟩ := List.cons.inj h
      split at hrest
      · obtain rfl : before = [] := by
          cases before with
          | nil => rfl
          | cons second before => exact absurd (List.cons.inj hrest).2 (by simp)
        obtain ⟨hname, -⟩ := List.cons.inj hrest
        obtain rfl := Event.prepared.inj hname
        exact ⟨_, rfl⟩
      · exact absurd hrest.symm (by simp)
  · exact absurd h.symm (by simp)

end Setup

namespace Orchestrator

variable {o : Orchestrator} {workspace : Workspace} {now : Timestamp} {paths : List Path}
  {seen : List Occurrence} {s : Progress}

/-- The entries that are enabled, in the order of registration. -/
def enabledEntries (o : Orchestrator) : List (String × Factory) :=
  o.registry.entries.filter fun entry => (o.config.settingsFor entry.1).enabled

/-- What the configuration has for an analyzer, or null. -/
def valueFor (o : Orchestrator) (name : String) : Json :=
  ((o.config.analyzers.get? name).map AnalyzerSettings.config).getD .null

/-- The configuration of an entry is the value that there is for it, or null. -/
lemma config_settingsFor (o : Orchestrator) (name : String) :
    (o.config.settingsFor name).config = o.valueFor name := by
  rw [RunConfig.settingsFor, valueFor]
  cases o.config.analyzers.get? name <;> rfl

/-- The entries that are enabled are built, each with its configuration. -/
lemma filterMap_built?_setup :
    o.setup.filterMap Event.built?
      = o.enabledEntries.map fun entry => (entry.1, o.valueFor entry.1) := by
  simp only [setup, List.filterMap_flatMap, RunConfig.filterMap_built?_setup, config_settingsFor]
  exact flatMap_ite_singleton _ _ _

/-- The entries that are enabled and could be built are prepared. -/
lemma filterMap_prepared?_setup :
    o.setup.filterMap Event.prepared?
      = (o.enabledEntries.filter fun entry => (entry.2 (o.valueFor entry.1)).isOk).map
          Prod.fst := by
  simp only [setup, List.filterMap_flatMap, RunConfig.filterMap_prepared?_setup,
    config_settingsFor, enabledEntries, List.filter_filter]
  exact flatMap_ite_singleton _ _ _

/-- To get the crew ready clears up after none. -/
lemma filterMap_cleaned?_setup : o.setup.filterMap Event.cleaned? = [] := by
  simp only [setup, List.filterMap_flatMap, RunConfig.filterMap_cleaned?_setup,
    List.flatMap_eq_nil_iff, implies_true]

/-- What is prepared in a run has just been built. -/
lemma exists_built_of_setup {before after : List Event} {name : String}
    (h : o.setup = before ++ .prepared name :: after) :
    ∃ front settings, before = front ++ [.built name settings] := by
  rw [setup] at h
  generalize o.registry.entries = entries at h
  induction entries generalizing before with
  | nil => exact absurd h.symm (by simp)
  | cons entry rest ih =>
    rw [List.flatMap_cons] at h
    obtain ⟨mid, rfl, hrest⟩ | ⟨mid, hentry, hafter⟩ := List.append_eq_append_iff.1 h
    · obtain ⟨front, settings, rfl⟩ := ih hrest
      exact ⟨o.config.setup entry ++ front, settings, (List.append_assoc ..).symm⟩
    · cases mid with
      | nil =>
        -- the event would be the first one of the later entries, and nothing would have been built
        obtain ⟨front, settings, hfront⟩ := @ih [] hafter.symm
        exact absurd hfront.symm (List.append_ne_nil_of_right_ne_nil _ (List.cons_ne_nil _ _))
      | cons first mid =>
        obtain ⟨rfl, -⟩ := List.cons.inj hafter
        obtain ⟨settings, rfl⟩ := RunConfig.eq_singleton_built_of_setup hentry
        exact ⟨[], settings, rfl⟩

/-- An analyzer that takes part has been prepared. -/
lemma prepared_mem_setup {r : ReadyAnalyzer} (h : r ∈ participants o.config o.registry) :
    .prepared r.entry ∈ o.setup := by
  obtain ⟨entry, hentry, hr⟩ := List.mem_filterMap.1 h
  refine List.mem_flatMap.2 ⟨entry, hentry, ?_⟩
  rw [entry_of_participant? hr, RunConfig.setup]
  rw [participant?_eq, Option.bind_eq_some_iff] at hr
  obtain ⟨analyzer, hbuilt, hr⟩ := hr
  obtain ⟨⟨henabled, -⟩, -⟩ := Option.ite_none_right_eq_some.1 hr
  have hok : (entry.2 (o.config.settingsFor entry.1).config).isOk = true := by
    cases hfactory : entry.2 (o.config.settingsFor entry.1).config with
    | error fault =>
      rw [hfactory] at hbuilt
      exact absurd hbuilt.symm (Option.some_ne_none analyzer)
    | ok analyzer => rfl
  rw [if_pos henabled, if_pos hok]
  exact List.mem_cons_of_mem _ (List.mem_singleton_self _)

/-- When all analyzers have cleared up, this is what has been seen of the run. -/
lemma Lives.seen_eq (h : o.Lives workspace paths seen (.clearing [] s)) :
    ∃ trace, Progress.Recorded (o.terms workspace paths) o.outset trace s ∧ s.answer ≠ none ∧
      seen = o.setup.map .event ++ trace.map .moment
        ++ (cleanups (participants o.config o.registry)).map .event := by
  generalize hstage : RunStage.clearing [] s = stage at h
  cases h.staged with
  | preparing => exact absurd hstage nofun
  | executing => exact absurd hstage nofun
  | @clearing trace s' cleared left hrecorded hanswer hready =>
    obtain ⟨rfl, rfl⟩ := RunStage.clearing.inj hstage
    rw [hready, List.append_nil]
    exact ⟨trace, hrecorded, hanswer, rfl⟩

section Seen

variable (o) (trace : List Moment) (cleared : List ReadyAnalyzer)

/-- The events that are seen of a run are those before the moments and those after them. -/
lemma events_seen :
    Occurrence.events (o.setup.map .event ++ trace.map .moment ++ (cleanups cleared).map .event)
      = o.setup ++ cleanups cleared := by
  rw [Occurrence.events_append, Occurrence.events_append, Occurrence.events_map_event,
    Occurrence.events_map_moment, Occurrence.events_map_event, List.append_nil]

/-- The moments that are seen of a run lie between the events. -/
lemma moments_seen :
    Occurrence.moments (o.setup.map .event ++ trace.map .moment ++ (cleanups cleared).map .event)
      = trace := by
  rw [Occurrence.moments_append, Occurrence.moments_append, Occurrence.moments_map_event,
    Occurrence.moments_map_moment, Occurrence.moments_map_event, List.append_nil, List.nil_append]

/-- An event is none of some moments. -/
lemma event_not_mem_moments (e : Event) : .event e ∉ trace.map Occurrence.moment := by
  simp

/-- A moment is none of some events. -/
lemma moment_not_mem_events (m : Moment) (list : List Event) :
    .moment m ∉ list.map Occurrence.event := by
  simp

/-- To clear up prepares nothing. -/
lemma prepared_not_mem_cleanups (name : String) :
    .event (.prepared name) ∉ (cleanups cleared).map Occurrence.event := by
  simp [cleanups]

/-- To get the crew ready does not clear up. -/
lemma cleaned_not_mem_setup (name : String) : .cleaned name ∉ o.setup := by
  intro hmem
  have hcleaned : name ∈ o.setup.filterMap Event.cleaned? :=
    List.mem_filterMap.2 ⟨_, hmem, rfl⟩
  rw [filterMap_cleaned?_setup] at hcleaned
  exact absurd hcleaned List.not_mem_nil

variable {o trace cleared} {before after : List Occurrence} {name : String}

/-- What is prepared has been built just before. -/
lemma exists_built_of_seen
    (h : o.setup.map .event ++ trace.map .moment ++ (cleanups cleared).map .event
      = before ++ .event (.prepared name) :: after) :
    ∃ front settings, before = front ++ [.event (.built name settings)] := by
  obtain ⟨_, h, -⟩ :=
    exists_eq_append_cons_of_not_mem_right h (prepared_not_mem_cleanups cleared name)
  obtain ⟨_, h, -⟩ := exists_eq_append_cons_of_not_mem_right h (event_not_mem_moments trace _)
  obtain ⟨done, later, hsetup, rfl, hlater⟩ := List.map_eq_append_iff.1 h
  obtain ⟨e, rest, rfl, he, -⟩ := List.map_eq_cons_iff.1 hlater
  obtain rfl := Occurrence.event.inj he
  obtain ⟨front, settings, rfl⟩ := exists_built_of_setup hsetup
  exact ⟨front.map .event, settings, List.map_append⟩

/-- A moment is seen after all that is done to get the crew ready. -/
lemma setup_subset_of_seen {m : Moment}
    (h : o.setup.map .event ++ trace.map .moment ++ (cleanups cleared).map .event
      = before ++ .moment m :: after) :
    m ∈ trace ∧ ∀ e ∈ o.setup, .event e ∈ before := by
  obtain ⟨_, h, -⟩ := exists_eq_append_cons_of_not_mem_right h (moment_not_mem_events m _)
  obtain ⟨mid, rfl, htrace⟩ :=
    exists_eq_append_cons_of_not_mem_left h (moment_not_mem_events m _)
  constructor
  · have hmem : .moment m ∈ trace.map Occurrence.moment :=
      htrace ▸ List.mem_append_cons_self
    exact (List.mem_map_of_injective fun _ _ => Occurrence.moment.inj).1 hmem
  · intro e he
    exact List.mem_append_left _ (List.mem_map_of_mem he)

/-- The moments all come before the clearing up. -/
lemma moments_of_seen
    (h : o.setup.map .event ++ trace.map .moment ++ (cleanups cleared).map .event
      = before ++ .event (.cleaned name) :: after) :
    Occurrence.moments before = trace ∧ Occurrence.moments after = [] := by
  have hnot : .event (.cleaned name) ∉ o.setup.map Occurrence.event ++ trace.map .moment := by
    rw [List.mem_append, List.mem_map_of_injective fun _ _ => Occurrence.event.inj]
    rintro (hsetup | htrace)
    · exact cleaned_not_mem_setup o name hsetup
    · exact event_not_mem_moments trace _ htrace
  obtain ⟨mid, rfl, hcleared⟩ := exists_eq_append_cons_of_not_mem_left h hnot
  have hnil : Occurrence.moments (mid ++ .event (.cleaned name) :: after) = [] :=
    hcleared ▸ Occurrence.moments_map_event _
  rw [Occurrence.moments_append, List.append_eq_nil_iff] at hnil
  rw [Occurrence.moments_append, Occurrence.moments_append, Occurrence.moments_map_event,
    Occurrence.moments_map_moment, hnil.1, List.nil_append, List.append_nil]
  exact ⟨rfl, hnil.2⟩

end Seen

/-- To clear up after some analyzers is to do so for the entry of each. -/
lemma filterMap_cleaned?_cleanups (ready : List ReadyAnalyzer) :
    (cleanups ready).filterMap Event.cleaned? = ready.map ReadyAnalyzer.entry := by
  rw [cleanups, List.filterMap_map]
  exact congrFun (List.filterMap_eq_map (f := ReadyAnalyzer.entry)) ready

/-- Nothing is built or prepared in clearing up. -/
lemma filterMap_cleanups {α : Type} {f : Event → Option α} (hf : ∀ name, f (.cleaned name) = none)
    (ready : List ReadyAnalyzer) : (cleanups ready).filterMap f = [] := by
  rw [cleanups, List.filterMap_map]
  exact List.filterMap_eq_nil_iff.2 fun r _ => hf r.entry

/-- A run starts its batches in order, and possibly not all of them. -/
lemma started_course_prefix :
    (o.course workspace paths).started.flatten <+: participants o.config o.registry := by
  have hprefix := Course.started_run_prefix o.config.failFast (o.terms workspace paths).execute
    (batches o.config.batchSize (participants o.config o.registry))
  rw [← flatten_batches o.config.batchSize (participants o.config o.registry)]
  exact hprefix.flatten

/-- The events of batches are those of invocations. -/
lemma isInvocation_of_mem_courseEvents {files : List Path} {course : Course} {e : Event}
    (h : e ∈ courseEvents workspace files course) : e.isInvocation = true := by
  obtain ⟨⟨batch, index⟩, -, he⟩ := List.mem_flatMap.1 h
  obtain ⟨r, -, he⟩ := List.mem_flatMap.1 he
  obtain rfl | he := List.mem_cons.1 he
  · rfl
  · split at he
    · obtain rfl := List.mem_singleton.1 he
      rfl
    · exact absurd he List.not_mem_nil

/-- To get the crew ready invokes no analyzer. -/
lemma not_isInvocation_of_mem_setup {e : Event} (h : e ∈ o.setup) : e.isInvocation = false := by
  obtain ⟨entry, -, he⟩ := List.mem_flatMap.1 h
  exact o.config.not_isInvocation_setup entry e he

/-- Apart from the invocations, the record of a run has the setting up and the clearing up. -/
lemma calls_execute (hvalid : o.config.problem? = none) :
    (o.execute workspace now paths).events.filter (fun e => !e.isInvocation)
      = o.setup ++ cleanups (participants o.config o.registry) := by
  have hsetup : o.setup.filter (fun e => !e.isInvocation) = o.setup := by
    rw [List.filter_eq_self]
    intro e he
    rw [not_isInvocation_of_mem_setup he]
    rfl
  have hcourse : (courseEvents workspace (Path.distinct paths)
      (o.course workspace paths)).filter (fun e => !e.isInvocation) = [] := by
    rw [List.filter_eq_nil_iff]
    intro e he
    rw [isInvocation_of_mem_courseEvents he]
    exact Bool.false_ne_true
  have hcleanups : (cleanups (participants o.config o.registry)).filter
      (fun e => !e.isInvocation) = cleanups (participants o.config o.registry) := by
    rw [List.filter_eq_self, cleanups, List.forall_mem_map]
    exact fun _ _ => rfl
  rw [execute_of_valid hvalid, events_assemble]
  show (o.setup ++ _ ++ cleanups _).filter _ = _
  rw [List.filter_append, List.filter_append, hsetup, hcourse, hcleanups, List.append_nil]

end Orchestrator

end CodeAudit
