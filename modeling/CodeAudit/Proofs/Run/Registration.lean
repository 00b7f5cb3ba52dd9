import CodeAudit.Proofs.Except
import CodeAudit.Proofs.NameMap
import CodeAudit.Proofs.Run.Lifecycle
/-!
# Registries after registrations

A registry that has been filled by registrations has each name once, at the place where it was first
registered and with the factory that it was last registered with. So the analyzers of a run come in
the order of first registration: they are cut into batches in that order, and so are their results
and issues put together, whatever has been registered again in between.
-/
namespace CodeAudit

namespace Registry

/-- Registers factories one after the other. -/
def registerAll (r : Registry) (calls : List (String × Factory)) : Registry :=
  calls.foldl (fun r call => r.register call.1 call.2) r

/-- What a registry has after some registrations. -/
structure Keeps (r : Registry) (calls : List (String × Factory)) : Prop where
  distinct : r.names.Nodup
  named : ∀ name, name ∈ r.names ↔ name ∈ calls.map Prod.fst
  /-- A name comes before another if it was first registered before it. -/
  order : r.names.Pairwise fun name other =>
    (calls.map Prod.fst).idxOf name < (calls.map Prod.fst).idxOf other
  size : r.size = (calls.map Prod.fst).toFinset.card
  /-- Each name has the factory that it was last registered with. -/
  bound : ∀ entry ∈ r.entries, NameMap.IsLast calls entry

variable {r : Registry} {name : String} {factory : Factory} {calls : List (String × Factory)}

/-- A name that is registered already keeps its place. -/
lemma names_register (r : Registry) (name : String) (factory : Factory) :
    (r.register name factory).names = if name ∈ r.names then r.names else r.names ++ [name] := by
  obtain ⟨entries⟩ := r
  show (enter name factory entries).map Prod.fst
    = if name ∈ entries.map Prod.fst then entries.map Prod.fst else entries.map Prod.fst ++ [name]
  induction entries with
  | nil => rfl
  | cons head rest ih =>
    obtain ⟨other, old⟩ := head
    rw [enter]
    by_cases heq : other = name
    · subst heq
      rw [if_pos rfl, List.map_cons, List.map_cons, if_pos List.mem_cons_self]
    · rw [if_neg heq, List.map_cons, List.map_cons, ih]
      by_cases hmem : name ∈ rest.map Prod.fst
      · rw [if_pos hmem, if_pos (List.mem_cons_of_mem _ hmem)]
      · rw [if_neg hmem, if_neg (List.not_mem_cons_of_ne_of_not_mem (Ne.symm heq) hmem)]
        rfl

/-- Where each name is registered once, nothing is left of the old factory of a name. -/
lemma mem_entries_register (h : r.names.Nodup) {entry : String × Factory}
    (hentry : entry ∈ (r.register name factory).entries) :
    entry = (name, factory) ∨ entry ∈ r.entries ∧ entry.1 ≠ name := by
  obtain ⟨entries⟩ := r
  change entry ∈ enter name factory entries at hentry
  change (entries.map Prod.fst).Nodup at h
  show _ ∨ entry ∈ entries ∧ _
  induction entries with
  | nil => exact .inl (List.mem_singleton.1 hentry)
  | cons head rest ih =>
    obtain ⟨other, old⟩ := head
    obtain ⟨hother, hrest⟩ := List.nodup_cons.1 h
    rw [enter] at hentry
    by_cases heq : other = name
    · subst heq
      rw [if_pos rfl] at hentry
      obtain rfl | hentry := List.mem_cons.1 hentry
      · exact .inl rfl
      · have hmem : entry.1 ∈ rest.map Prod.fst := List.mem_map_of_mem hentry
        exact .inr ⟨List.mem_cons_of_mem _ hentry, fun heq => hother (heq ▸ hmem)⟩
    · rw [if_neg heq] at hentry
      obtain rfl | hentry := List.mem_cons.1 hentry
      · exact .inr ⟨List.mem_cons_self, heq⟩
      · obtain h | ⟨hmem, hne⟩ := ih hentry hrest
        · exact .inl h
        · exact .inr ⟨List.mem_cons_of_mem _ hmem, hne⟩

/-- One more registration. -/
lemma Keeps.register (h : r.Keeps calls) (name : String) (factory : Factory) :
    (r.register name factory).Keeps (calls ++ [(name, factory)]) := by
  have hcalls : (calls ++ [(name, factory)]).map Prod.fst = calls.map Prod.fst ++ [name] :=
    List.map_append
  have hnames := names_register r name factory
  have hdistinct : (r.register name factory).names.Nodup := by
    rw [hnames]
    split
    · exact h.distinct
    · next hmem => exact List.concat_eq_append ▸ h.distinct.concat hmem
  have hnamed : ∀ other, other ∈ (r.register name factory).names ↔
      other ∈ (calls ++ [(name, factory)]).map Prod.fst := by
    intro other
    rw [hnames, hcalls, List.mem_append, List.mem_singleton, ← h.named]
    split
    · next hmem =>
      constructor
      · exact Or.inl
      · rintro (hother | rfl)
        · exact hother
        · exact hmem
    · rw [List.mem_append, List.mem_singleton]
  constructor
  case distinct => exact hdistinct
  case named => exact hnamed
  case order =>
    -- the names that were there are first registered where they were before
    have hidx {other : String} (hother : other ∈ r.names) :
        (calls.map Prod.fst ++ [name]).idxOf other = (calls.map Prod.fst).idxOf other :=
      List.idxOf_append_of_mem ((h.named other).1 hother)
    have hold : r.names.Pairwise fun first second =>
        (calls.map Prod.fst ++ [name]).idxOf first < (calls.map Prod.fst ++ [name]).idxOf second := by
      refine h.order.imp_of_mem fun hfirst hsecond hlt => ?_
      rwa [hidx hfirst, hidx hsecond]
    rw [hnames, hcalls]
    split
    · exact hold
    · next hmem =>
      refine List.pairwise_append.2 ⟨hold, List.pairwise_singleton _ _, ?_⟩
      intro first hfirst second hsecond
      rw [List.mem_singleton.1 hsecond, hidx hfirst,
        List.idxOf_append_of_notMem (mt (h.named name).2 hmem), List.idxOf_cons_self, Nat.add_zero]
      exact List.idxOf_lt_length_of_mem ((h.named first).1 hfirst)
  case size =>
    have hset : (r.register name factory).names.toFinset
        = ((calls ++ [(name, factory)]).map Prod.fst).toFinset := by
      ext other
      rw [List.mem_toFinset, List.mem_toFinset, hnamed]
    rw [← hset, List.toFinset_card_of_nodup hdistinct, names, List.length_map]
    rfl
  case bound =>
    intro entry hentry
    rw [NameMap.isLast_concat_iff]
    obtain heq | ⟨hold, hne⟩ := mem_entries_register h.distinct hentry
    · exact .inl heq
    · exact .inr ⟨h.bound entry hold, hne⟩

/-- The empty registry keeps nothing. -/
lemma keeps_empty : empty.Keeps [] where
  distinct := List.nodup_nil
  named _ := .rfl
  order := .nil
  size := rfl
  bound _ h := absurd h List.not_mem_nil

/-- The built-in registry keeps its entries. -/
lemma keeps_builtin : builtin.Keeps builtin.entries :=
  keeps_empty.register MetricsAnalyzer.name MetricsAnalyzer.factory

/-- What a registry keeps after some calls it keeps after more of them. -/
lemma Keeps.registerAll {earlier : List (String × Factory)} (h : r.Keeps earlier)
    (calls : List (String × Factory)) : (r.registerAll calls).Keeps (earlier ++ calls) := by
  induction calls generalizing r earlier with
  | nil => rwa [List.append_nil]
  | cons call rest ih =>
    have hnext := ih (h.register call.1 call.2)
    rwa [List.append_assoc] at hnext

/-- A call is the last one of its name if and only if the registry has it. -/
lemma Keeps.mem_entries_iff (h : r.Keeps calls) {entry : String × Factory} :
    entry ∈ r.entries ↔ NameMap.IsLast calls entry := by
  refine ⟨h.bound entry, fun hlast => ?_⟩
  have hname : entry.1 ∈ r.names := (h.named _).2 (List.mem_map_of_mem hlast.mem)
  obtain ⟨kept, hkept, hsame⟩ := List.mem_map.1 hname
  rwa [hlast.unique (h.bound kept hkept) hsame.symm]

end Registry

/-- The entry whose analyzer is invoked in an event, with the number of the batch. -/
def Event.placed? : Event → Option (String × Nat)
  | invoked entry batch => some (entry, batch)
  | _ => none

/-- An event that is not of an invocation places nothing. -/
lemma Event.placed?_of_not_isInvocation {e : Event} (h : e.isInvocation = false) :
    e.placed? = none := by
  cases e with
  | invoked => cases h
  | noticed => cases h
  | built => rfl
  | prepared => rfl
  | cleaned => rfl

section Batches

variable {α : Type}

/-- A batch that is full up to its number has the items at the places of that number. -/
lemma map_zipIdx_div {size : Nat} {batch : List α} (h : batch.length ≤ size) (number : Nat) :
    (batch.zipIdx (number * size)).map (fun c => (c.1, c.2 / size))
      = batch.map fun a => (a, number) := by
  apply List.ext_getElem
  · rw [List.length_map, List.length_zipIdx, List.length_map]
  · intro i hi _
    rw [List.length_map, List.length_zipIdx] at hi
    have hnumber : (number * size + i) / size = number := by
      rw [Nat.mul_comm, Nat.mul_add_div (by omega), Nat.div_eq_of_lt (by omega), Nat.add_zero]
    rw [List.getElem_map, List.getElem_zipIdx, List.getElem_map, hnumber]

/-- The batch of an item is told by its place: before it come as many batches as its place has room
for. -/
lemma flatMap_zipIdx_batches {size : Nat} (hsize : 1 ≤ size) (items : List α) (number : Nat) :
    ((batches size items).zipIdx number).flatMap (fun c => c.1.map fun a => (a, c.2))
      = (items.zipIdx (number * size)).map fun c => (c.1, c.2 / size) := by
  induction hlength : items.length using Nat.strong_induction_on generalizing items number with
  | _ n ih =>
    subst hlength
    by_cases hnil : items = []
    · subst hnil
      rw [batches]
      rfl
    · have hpos : 0 < items.length := List.length_pos_iff.2 hnil
      have hfirst : (items.take size).length ≤ size := List.length_take_le _ _
      have hlater : (items.drop size).zipIdx (number * size + (items.take size).length)
          = (items.drop size).zipIdx ((number + 1) * size) := by
        -- the first batch is full, or it is the only one
        obtain hle | hle := Nat.le_total size items.length
        · rw [List.length_take_of_le hle, Nat.succ_mul]
        · rw [List.drop_of_length_le hle]
          rfl
      have hsplit : items.zipIdx (number * size)
          = (items.take size).zipIdx (number * size)
            ++ (items.drop size).zipIdx ((number + 1) * size) := by
        rw [← hlater, ← List.zipIdx_append, List.take_append_drop]
      rw [batches_of_ne_nil size hnil, max_eq_left hsize, List.zipIdx_cons, List.flatMap_cons,
        ih _ (by rw [List.length_drop]; omega) (items.drop size) (number + 1) rfl,
        ← map_zipIdx_div hfirst number, ← List.map_append, ← hsplit]

end Batches

/-- A run that has all executions has started all batches. -/
lemma Course.started_run_of_ok {failFast : Bool} {execute : Analyzer → Execution}
    {waiting : List (List ReadyAnalyzer)} {executions : List Execution}
    (h : (run failFast execute waiting).outcome = .ok executions) :
    (run failFast execute waiting).started = waiting := by
  induction waiting generalizing executions with
  | nil => rfl
  | cons batch rest ih =>
    cases habort : abort? failFast (batch.map fun r => execute r.analyzer) with
    | some error =>
      rw [run_cons_of_abort execute habort] at h
      cases h
    | none =>
      rw [run_cons_of_goes_on execute habort] at h ⊢
      obtain ⟨later, hlater, -⟩ := exists_of_map_eq_ok h
      exact congrArg (batch :: ·) (ih hlater)

/-- The events of an invocation place its entry in its batch. -/
lemma placed_invocationEvents (workspace : Workspace) (files : List Path) (batch : Nat)
    (r : ReadyAnalyzer) :
    (invocationEvents workspace files batch r).filterMap Event.placed? = [(r.entry, batch)] := by
  rw [invocationEvents]
  cases (r.analyzer.analyze workspace files).noticesCancellation <;> rfl

/-- The events of a course have the invocations of the batches that it starts, with their numbers. -/
lemma placed_courseEvents (workspace : Workspace) (files : List Path) (course : Course) :
    (courseEvents workspace files course).filterMap Event.placed?
      = course.started.zipIdx.flatMap fun c => c.1.map fun r => (r.entry, c.2) := by
  rw [courseEvents, List.filterMap_flatMap]
  refine List.flatMap_congr fun c _ => ?_
  rw [List.filterMap_flatMap]
  simp only [placed_invocationEvents]
  exact List.map_eq_flatMap.symm

namespace Orchestrator

variable {o : Orchestrator} {workspace : Workspace} {now : Timestamp} {paths : List Path}

/-- The record of a run has the invocations of the batches that the course of the run starts, with the
numbers of the batches. -/
lemma placed_execute (hvalid : o.config.problem? = none) :
    (o.execute workspace now paths).events.filterMap Event.placed?
      = (o.course workspace paths).started.zipIdx.flatMap
          fun c => c.1.map fun r => (r.entry, c.2) := by
  have hsetup : o.setup.filterMap Event.placed? = [] := by
    rw [List.filterMap_eq_nil_iff]
    exact fun e he => Event.placed?_of_not_isInvocation (not_isInvocation_of_mem_setup he)
  have hcleaned : (cleanups (participants o.config o.registry)).filterMap Event.placed? = [] :=
    filterMap_cleanups (fun _ => rfl) _
  rw [execute_of_valid hvalid, events_assemble, List.filterMap_append, List.filterMap_append, hsetup,
    placed_courseEvents, List.nil_append]
  exact (congrArg _ hcleaned).trans (List.append_nil _)

/-- The invocations of some analyzers in batches of the size that an orchestrator has. -/
def placements (o : Orchestrator) (ready : List ReadyAnalyzer) : List (String × Nat) :=
  ready.zipIdx.map fun (r, place) => (r.entry, place / o.config.batchSize)

/-- A run takes some analyzers in their order: it has them analyze the files in that order, one batch
after the other, and puts their results and their issues together in that order. -/
structure TakesInOrder (o : Orchestrator) (workspace : Workspace) (now : Timestamp)
    (paths : List Path) (ready : List ReadyAnalyzer) : Prop where
  invoked : (o.execute workspace now paths).events.filterMap Event.placed? <+: o.placements ready
  /-- A run that comes to a report has invoked them all. -/
  all : ∀ report, o.Ends workspace now paths (.ok report) →
    (o.execute workspace now paths).events.filterMap Event.placed? = o.placements ready
  results : ∀ report, o.Ends workspace now paths (.ok report) →
    report.analyzerResults = ready.map fun r =>
      (Execution.run workspace o.config.timeoutMs (Path.distinct paths) r.analyzer).result
  issues : ∀ report, o.Ends workspace now paths (.ok report) →
    report.issues = ready.flatMap fun r =>
      ((r.analyzer.analyze workspace (Path.distinct paths)).found o.config.timeoutMs).filter
        fun i => paths.any i.location.file.same

/-- The batches place the analyzers that take part. -/
lemma placements_participants :
    (batches o.config.batchSize (participants o.config o.registry)).zipIdx.flatMap
        (fun c => c.1.map fun r => (r.entry, c.2))
      = o.placements (participants o.config o.registry) := by
  have hbatches := flatMap_zipIdx_batches o.config.one_le_batchSize
    (participants o.config o.registry) 0
  have hentries := congrArg (List.map (Prod.map ReadyAnalyzer.entry id)) hbatches
  rw [List.map_flatMap, List.map_map, Nat.zero_mul] at hentries
  simp only [List.map_map] at hentries
  exact hentries

/-- What is placed in a run are the first ones of those that take part. -/
lemma placed_execute_prefix :
    (o.execute workspace now paths).events.filterMap Event.placed?
      <+: o.placements (participants o.config o.registry) := by
  by_cases hvalid : o.config.problem? = none
  · obtain ⟨later, hlater⟩ := Course.started_run_prefix o.config.failFast
      (o.terms workspace paths).execute
      (batches o.config.batchSize (participants o.config o.registry))
    rw [placed_execute hvalid, ← placements_participants, ← hlater, List.zipIdx_append,
      List.flatMap_append]
    exact List.prefix_append _ _
  · rw [events_execute_of_problem hvalid]
    exact List.nil_prefix

/-- In a run that ends with a report all that take part are placed. -/
lemma placed_execute_of_ends {report : Report} (h : o.Ends workspace now paths (.ok report)) :
    (o.execute workspace now paths).events.filterMap Event.placed?
      = o.placements (participants o.config o.registry) := by
  cases h with
  | reported hvalid hreaches hanswer =>
    have hstarted : (o.course workspace paths).started
        = batches o.config.batchSize (participants o.config o.registry) :=
      Course.started_run_of_ok (course_of_answer hreaches hanswer).1
    rw [placed_execute hvalid, hstarted, placements_participants]

/-- A run takes those that take part in their order. -/
lemma takesInOrder_participants (o : Orchestrator) (workspace : Workspace) (now : Timestamp)
    (paths : List Path) :
    o.TakesInOrder workspace now paths (participants o.config o.registry) where
  invoked := placed_execute_prefix
  all _ := placed_execute_of_ends
  results report h := by
    rw [results_of_ends h, executions, List.map_map]
    rfl
  issues report h := by
    rw [(records_of_ends h).issues, findings, List.flatMap_map]

/-- The analyzers that take part come in the order in which their names were first registered. -/
lemma participants_pairwise {calls : List (String × Factory)} (h : o.registry.Keeps calls) :
    (participants o.config o.registry).Pairwise fun r s =>
      (calls.map Prod.fst).idxOf r.entry < (calls.map Prod.fst).idxOf s.entry := by
  have horder := h.order.sublist (entries_participants_sublist o.config o.registry)
  rwa [List.pairwise_map] at horder

/-- An analyzer takes part if it does so as its entry was last registered. -/
lemma mem_participants_iff {calls : List (String × Factory)} (h : o.registry.Keeps calls)
    (r : ReadyAnalyzer) :
    r ∈ participants o.config o.registry ↔
      ∃ factory, NameMap.IsLast calls (r.entry, factory) ∧
        participant? o.config (r.entry, factory) = some r := by
  rw [participants, List.mem_filterMap]
  constructor
  · rintro ⟨⟨name, factory⟩, hentry, hr⟩
    obtain rfl : r.entry = name := entry_of_participant? hr
    exact ⟨factory, h.mem_entries_iff.1 hentry, hr⟩
  · rintro ⟨factory, hlast, hr⟩
    exact ⟨_, h.mem_entries_iff.2 hlast, hr⟩

/-- However often names are registered, a registry that begins empty or with the analyzers that come
with the program has each name once, at the place of its first registration and with the factory of
its last one. Every run over it takes the analyzers in the order of first registration, each as it
was last registered. -/
theorem registered_in_order {start : Registry} (hstart : start = .empty ∨ start = .builtin)
    (calls : List (String × Factory)) :
    (start.registerAll calls).Keeps (start.entries ++ calls) ∧
      ∀ o : Orchestrator, o.registry = start.registerAll calls →
        (∀ r, r ∈ participants o.config o.registry ↔
          ∃ factory, NameMap.IsLast (start.entries ++ calls) (r.entry, factory) ∧
            participant? o.config (r.entry, factory) = some r) ∧
        ((participants o.config o.registry).Pairwise fun r s =>
          ((start.entries ++ calls).map Prod.fst).idxOf r.entry
            < ((start.entries ++ calls).map Prod.fst).idxOf s.entry) ∧
        ∀ workspace now paths,
          o.TakesInOrder workspace now paths (participants o.config o.registry) := by
  have hkeeps : (start.registerAll calls).Keeps (start.entries ++ calls) := by
    obtain rfl | rfl := hstart
    · exact Registry.keeps_empty.registerAll calls
    · exact Registry.keeps_builtin.registerAll calls
  refine ⟨hkeeps, fun o ho => ?_⟩
  rw [← ho] at hkeeps
  exact ⟨mem_participants_iff hkeeps, participants_pairwise hkeeps, o.takesInOrder_participants⟩

/-- Registrations that replace the analyzer that comes with the program, and one of their own. -/
def revisedCalls : List (String × Factory) :=
  [("lint", fun _ => .error .timeout),
    ("style", fun _ => .ok (steadyAnalyzer "style" (.settles 1 (.issues [findingAt "s" "a.ts"])))),
    (MetricsAnalyzer.name, fun _ => .ok (steadyAnalyzer "counter" (.settles 9 (.issues [])))),
    ("lint", fun _ => .ok (steadyAnalyzer "lint" (.settles 5 (.issues [findingAt "l" "a.ts"]))))]

/-- Batches of two over the registry after these registrations. -/
def revisedOrchestrator : Orchestrator where
  config := { maxConcurrent := 2 }
  registry := Registry.builtin.registerAll revisedCalls

/-- The linter keeps the place of a factory that built nothing, between the analyzer that now goes by
another name and the one that was registered after it. -/
theorem revisedOrchestrator_in_order :
    (Registry.builtin = .empty ∨ Registry.builtin = .builtin) ∧
      revisedOrchestrator.registry.names = ["metrics", "lint", "style"] ∧
      revisedOrchestrator.registry.Keeps (Registry.builtin.entries ++ revisedCalls) ∧
      ∃ report, revisedOrchestrator.Ends emptyWorkspace default [⟨"a.ts"⟩] (.ok report) ∧
        (revisedOrchestrator.execute emptyWorkspace default [⟨"a.ts"⟩]).events.filterMap
          Event.placed? = [("metrics", 0), ("lint", 0), ("style", 1)] ∧
        report.analyzerResults.map AnalyzerResult.name = ["counter", "lint", "style"] ∧
        report.issues = [findingAt "l" "a.ts", findingAt "s" "a.ts"] := by
  obtain ⟨hkeeps, hruns⟩ := registered_in_order (.inr rfl) revisedCalls
  obtain ⟨-, -, htakes⟩ := hruns revisedOrchestrator rfl
  obtain ⟨report, hends⟩ : ∃ report, revisedOrchestrator.Ends emptyWorkspace default [⟨"a.ts"⟩]
      (.ok report) := ⟨_, (ends_iff_of_goes_on rfl rfl).2 rfl⟩
  have h := htakes emptyWorkspace default [⟨"a.ts"⟩]
  refine ⟨.inr rfl, rfl, hkeeps, report, hends, ?_, ?_, ?_⟩
  · rw [h.all report hends]
    rfl
  · rw [h.results report hends]
    rfl
  · rw [h.issues report hends]
    decide +kernel

end Orchestrator

end CodeAudit
