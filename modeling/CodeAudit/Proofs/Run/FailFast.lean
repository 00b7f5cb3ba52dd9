import CodeAudit.Proofs.Run.Invocations
import CodeAudit.Proofs.Run.Rescheduling
/-!
# Runs that end at the first failure

A batch is looked through for failures after all of it has settled, and from its first analyzer on.
So a run that ends at a failure names the analyzer that is registered first of all that fail, for
every cut into batches and whichever of them settles first. What is invoked until then is all that
is registered up to the end of the batch of that analyzer.
-/
namespace CodeAudit

namespace Course

/-- Nothing ends a run if there is no fault. -/
lemma abort?_eq_none {settled : List Execution} (h : ∀ e ∈ settled, e.fault = none)
    (failFast : Bool) : abort? failFast settled = none := by
  cases failFast with
  | false => rfl
  | true =>
    rw [abort?_true, List.findSome?_eq_none_iff]
    intro e he
    rw [h e he]
    rfl

/-- The first execution with a fault ends a run that is to end at a failure. -/
lemma abort?_of_first {before after : List Execution} {e : Execution} {fault : Fault}
    (hbefore : ∀ e ∈ before, e.fault = none) (he : e.fault = some fault) :
    abort? true (before ++ e :: after) = some (.analyzer e.result.name fault) := by
  rw [abort?_append, abort?_eq_none hbefore, Option.none_or, abort?_true, List.findSome?_cons, he]
  rfl

section FirstFault

variable {execute : Analyzer → Execution} {size : Nat} {before : List ReadyAnalyzer}
  {r : ReadyAnalyzer} {after : List ReadyAnalyzer} {fault : Fault}

/-- If the first fault is in the first batch, only that one is started. -/
lemma started_run_of_lt (hbefore : ∀ q ∈ before, (execute q.analyzer).fault = none)
    (hr : (execute r.analyzer).fault = some fault) (hlt : before.length < size) :
    (run true execute (batches size (before ++ r :: after))).started.flatten
      = (before ++ r :: after).take size := by
  have hne : before ++ r :: after ≠ [] := List.append_ne_nil_of_right_ne_nil _ (List.cons_ne_nil _ _)
  obtain ⟨k, rfl⟩ : ∃ k, size = before.length + (k + 1) := ⟨size - before.length - 1, by omega⟩
  have hbatch : (before ++ r :: after).take (before.length + (k + 1))
      = before ++ r :: after.take k := by
    rw [List.take_length_add_append, List.take_succ_cons]
  have habort : abort? true (((before ++ r :: after).take (before.length + (k + 1))).map
      fun q => execute q.analyzer) = some (.analyzer (execute r.analyzer).result.name fault) := by
    rw [hbatch, List.map_append, List.map_cons]
    exact abort?_of_first (List.forall_mem_map.2 hbefore) hr
  rw [batches_of_ne_nil _ hne, max_eq_left (by omega), run_cons_of_abort execute habort,
    List.flatten_singleton]

/-- If the first fault comes after the first batch, that one is started and the run goes on. -/
lemma started_run_of_le (hsize : 1 ≤ size)
    (hbefore : ∀ q ∈ before, (execute q.analyzer).fault = none) (hle : size ≤ before.length) :
    (run true execute (batches size (before ++ r :: after))).started.flatten
      = before.take size
        ++ (run true execute (batches size (before.drop size ++ r :: after))).started.flatten := by
  have hne : before ++ r :: after ≠ [] := List.append_ne_nil_of_right_ne_nil _ (List.cons_ne_nil _ _)
  have hgoes : abort? true ((before.take size).map fun q => execute q.analyzer) = none := by
    apply abort?_eq_none
    rw [List.forall_mem_map]
    intro q hq
    exact hbefore q (List.mem_of_mem_take hq)
  rw [batches_of_ne_nil size hne, max_eq_left hsize, List.take_append_of_le_length hle,
    List.drop_append_of_le_length hle, run_cons_of_goes_on execute hgoes, List.flatten_cons]

/-- The batches up to the one that has the first fault are started. -/
lemma started_run_of_first (hsize : 1 ≤ size)
    (hbefore : ∀ q ∈ before, (execute q.analyzer).fault = none)
    (hr : (execute r.analyzer).fault = some fault) :
    (run true execute (batches size (before ++ r :: after))).started.flatten
      = (before ++ r :: after).take ((before.length / size + 1) * size) := by
  -- each batch without a fault takes its size off the way to the first one
  induction hlength : before.length using Nat.strong_induction_on generalizing before with
  | _ n ih =>
    subst hlength
    obtain hlt | hle := Nat.lt_or_ge before.length size
    · rw [started_run_of_lt hbefore hr hlt, Nat.div_eq_of_lt hlt, Nat.zero_add, Nat.one_mul]
    · have hlater := ih (before.length - size) (by omega)
        (fun q hq => hbefore q (List.mem_of_mem_drop hq)) List.length_drop
      have hindex : (before.length / size + 1) * size
          = size + ((before.length - size) / size + 1) * size := by
        rw [Nat.div_eq_sub_div hsize hle]
        ring
      rw [started_run_of_le hsize hbefore hle, hlater, hindex, List.take_add,
        List.take_append_of_le_length hle, List.drop_append_of_le_length hle]

end FirstFault

end Course

/-- A batch has an analyzer at least. -/
lemma RunConfig.one_le_batchSize (c : RunConfig) : 1 ≤ c.batchSize := by
  rw [batchSize]
  split
  · exact Nat.le_max_right _ _
  · exact Nat.le_refl 1

namespace Orchestrator

variable {o p : Orchestrator} {workspace : Workspace} {now : Timestamp} {paths : List Path}

/-- The analyzers that take part, up to the end of the batch of the one that comes after `before`. -/
def throughBatchAfter (o : Orchestrator) (before : List ReadyAnalyzer) : List ReadyAnalyzer :=
  (participants o.config o.registry).take
    ((before.length / o.config.batchSize + 1) * o.config.batchSize)

/-- Of the analyzers that take part, the first one that fails, and those before it. -/
structure FirstFailure (o : Orchestrator) (workspace : Workspace) (paths : List Path)
    (before : List ReadyAnalyzer) (r : ReadyAnalyzer) (fault : Fault) : Prop where
  place : ∃ after, participants o.config o.registry = before ++ r :: after
  before : ∀ q ∈ before, o.fault? workspace paths q = none
  fault : o.fault? workspace paths r = some fault

/-- If an analyzer fails, there is a first one that does. -/
lemma exists_firstFailure
    (h : ∃ r ∈ participants o.config o.registry, o.fault? workspace paths r ≠ none) :
    ∃ before r fault, o.FirstFailure workspace paths before r fault := by
  have hfound : ((participants o.config o.registry).findSome? (o.fault? workspace paths)).isSome := by
    obtain ⟨r, hr, hfault⟩ := h
    rw [List.findSome?_isSome_iff]
    exact ⟨r, hr, Option.isSome_iff_ne_none.2 hfault⟩
  obtain ⟨fault, hfault⟩ := Option.isSome_iff_exists.1 hfound
  obtain ⟨before, r, after, hplace, hr, hbefore⟩ := List.findSome?_eq_some_iff.1 hfault
  exact ⟨before, r, fault, ⟨after, hplace⟩, hbefore, hr⟩

/-- What ends a run is the fault of the first analyzer that fails. -/
lemma FirstFailure.abort? {before : List ReadyAnalyzer} {r : ReadyAnalyzer} {fault : Fault}
    (h : o.FirstFailure workspace paths before r fault) :
    Course.abort? true (o.executions workspace paths) = some (.analyzer r.analyzer.name fault) := by
  obtain ⟨after, hplace⟩ := h.place
  have hbefore : ∀ e ∈ before.map fun q => (o.terms workspace paths).execute q.analyzer,
      e.fault = none := by
    rw [List.forall_mem_map]
    intro q hq
    rw [fault_execute, h.before q hq]
  have hfault : ((o.terms workspace paths).execute r.analyzer).fault = some fault := by
    rw [fault_execute, h.fault]
  have hname : ((o.terms workspace paths).execute r.analyzer).result.name = r.analyzer.name :=
    Execution.name_run ..
  rw [executions, hplace, List.map_append, List.map_cons, Course.abort?_of_first hbefore hfault,
    hname]

/-- The fault of the first analyzer that fails is the first fault. -/
lemma FirstFailure.findSome?_faults {before : List ReadyAnalyzer} {r : ReadyAnalyzer} {fault : Fault}
    (h : o.FirstFailure workspace paths before r fault) :
    (o.faults workspace paths).findSome? id = some fault := by
  obtain ⟨after, hplace⟩ := h.place
  rw [faults, List.findSome?_map]
  exact List.findSome?_eq_some_iff.2 ⟨before, r, after, hplace, h.fault, h.before⟩

/-- A run that is to end at the first failure ends with the fault of the first analyzer that fails. -/
lemma FirstFailure.ends_iff {before : List ReadyAnalyzer} {r : ReadyAnalyzer} {fault : Fault}
    (h : o.FirstFailure workspace paths before r fault) (hvalid : o.config.problem? = none)
    (hfast : o.config.failFast = true) {result : Except RunError Report} :
    o.Ends workspace now paths result ↔ result = .error (.analyzer r.analyzer.name fault) :=
  ends_iff_of_abort hvalid (hfast ▸ h.abort?)

/-- If no analyzer fails, nothing ends a run before its report. -/
lemma abort?_executions_of_none
    (h : ∀ r ∈ participants o.config o.registry, o.fault? workspace paths r = none)
    (failFast : Bool) : Course.abort? failFast (o.executions workspace paths) = none := by
  apply Course.abort?_eq_none
  rw [executions, List.forall_mem_map]
  intro r hr
  rw [fault_execute, h r hr]

/-- Of analyzers that are alike both fail alike or none does. -/
lemma SameWork.fault? (h : SameWork workspace paths o p) {r s : ReadyAnalyzer}
    (hrs : r.Alike (o.terms workspace paths) s) :
    Option.Rel Fault.Alike (o.fault? workspace paths r) (p.fault? workspace paths s) := by
  rw [← fault_execute, ← fault_execute]
  exact (h.execute hrs).fault

/-- If an analyzer does not fail, neither does one that is like it. -/
lemma SameWork.fault?_eq_none (h : SameWork workspace paths o p) {r s : ReadyAnalyzer}
    (hrs : r.Alike (o.terms workspace paths) s) (hr : o.fault? workspace paths r = none) :
    p.fault? workspace paths s = none := by
  have hfault := h.fault? hrs
  rw [hr] at hfault
  generalize p.fault? workspace paths s = faulted at hfault ⊢
  cases hfault
  rfl

/-- The first analyzers that fail in runs of the same work are alike and fail alike. -/
lemma SameWork.firstFailure (h : SameWork workspace paths o p) {before : List ReadyAnalyzer}
    {r : ReadyAnalyzer} {fault : Fault} (hfirst : o.FirstFailure workspace paths before r fault) :
    ∃ before' s fault', p.FirstFailure workspace paths before' s fault' ∧
      List.Forall₂ (ReadyAnalyzer.Alike (o.terms workspace paths)) before before' ∧
      r.Alike (o.terms workspace paths) s ∧ fault.Alike fault' := by
  obtain ⟨after, hplace⟩ := hfirst.place
  have hparticipants := h.participants
  rw [hplace] at hparticipants
  obtain ⟨before', rest, hplace', hbefore, hrest⟩ := exists_append_of_forall₂ hparticipants
  cases hrest with
  | @cons _ s _ after' hs hafter =>
    have hfault := h.fault? hs
    rw [hfirst.fault] at hfault
    generalize hfault' : p.fault? workspace paths s = faulted at hfault
    cases hfault with
    | @some _ fault' halike =>
      refine ⟨before', s, fault', ⟨⟨after', hplace'⟩, ?_, hfault'⟩, hbefore, hs, halike⟩
      intro q' hq'
      obtain ⟨q, hq, hqq'⟩ := exists_mem_of_forall₂ hbefore hq'
      exact h.fault?_eq_none hqq' (hfirst.before q hq)

/-- Analyzers that are alike one by one have the same entries. -/
lemma map_entry_of_alike {t : Terms} {workers workers' : List ReadyAnalyzer}
    (h : List.Forall₂ (ReadyAnalyzer.Alike t) workers workers') :
    workers.map ReadyAnalyzer.entry = workers'.map ReadyAnalyzer.entry := by
  rw [← List.forall₂_eq_eq_eq, List.forall₂_map_left_iff, List.forall₂_map_right_iff]
  exact h.imp fun _ _ hrs => hrs.entry

/-- If no analyzer fails in one run, the faults of the other run are the same. -/
lemma SameWork.faults_eq_of_none (h : SameWork workspace paths o p)
    (hnone : ∀ r ∈ CodeAudit.participants o.config o.registry, o.fault? workspace paths r = none) :
    o.faults workspace paths = p.faults workspace paths := by
  have hfaults : List.Forall₂ (Option.Rel Fault.Alike) (o.faults workspace paths)
      (p.faults workspace paths) := by
    rw [faults, faults, List.forall₂_map_left_iff, List.forall₂_map_right_iff]
    exact h.participants.imp fun _ _ => h.fault?
  exact Fault.eq_of_forall_eq_none hfaults (List.forall_mem_map.2 hnone)

/-- The course of a run that ends at the first failure starts the batches up to that of the
failure. -/
lemma FirstFailure.started {before : List ReadyAnalyzer} {r : ReadyAnalyzer} {fault : Fault}
    (h : o.FirstFailure workspace paths before r fault) (hfast : o.config.failFast = true) :
    (o.course workspace paths).started.flatten = o.throughBatchAfter before := by
  obtain ⟨after, hplace⟩ := h.place
  rw [course, throughBatchAfter, hfast, hplace]
  apply Course.started_run_of_first o.config.one_le_batchSize
  · intro q hq
    rw [fault_execute, h.before q hq]
  · rw [fault_execute, h.fault]

/-- A run that is to end at the first failure ends with an error if and only if an analyzer fails.
The error is the fault of the first analyzer that fails, in whatever batches and in whatever time the
work is done; only the number of the task may differ if the analyzer broke off. The analyzers up to
the end of the batch of that one are invoked. If none fails, the report is the one of a run that goes
on after failures. -/
theorem ends_at_first_failure (hvalid : o.config.problem? = none)
    (hfast : o.config.failFast = true) :
    ((∃ error, o.Ends workspace now paths (.error error)) ↔
      ∃ r ∈ participants o.config o.registry, o.fault? workspace paths r ≠ none) ∧
    (∀ before r fault, o.FirstFailure workspace paths before r fault →
      (∀ result, o.Ends workspace now paths result ↔
        result = .error (.analyzer r.analyzer.name fault)) ∧
      (∀ p : Orchestrator, SameWork workspace paths o p → p.config.problem? = none →
        p.config.failFast = true → ∃ before' s fault',
        p.FirstFailure workspace paths before' s fault' ∧
        before'.map ReadyAnalyzer.entry = before.map ReadyAnalyzer.entry ∧ s.entry = r.entry ∧
        fault.Alike fault' ∧
        (o.faults workspace paths = p.faults workspace paths → fault' = fault) ∧
        ∀ now' result, p.Ends workspace now' paths result ↔
          result = .error (.analyzer r.analyzer.name fault')) ∧
      (∃ log, o.Invokes workspace paths log) ∧
      (∀ log, o.Invokes workspace paths log → log.Perm (o.throughBatchAfter before)) ∧
      (o.execute workspace now paths).events.filterMap Event.invoked?
        = (o.throughBatchAfter before).map ReadyAnalyzer.entry) ∧
    ((∀ r ∈ participants o.config o.registry, o.fault? workspace paths r = none) →
      ∀ p : Orchestrator, SameWork workspace paths o p → p.config.problem? = none →
        p.config.failFast = false → ∀ now', ∃ report report',
        (∀ result, o.Ends workspace now paths result ↔ result = .ok report) ∧
        (∀ result, p.Ends workspace now' paths result ↔ result = .ok report') ∧
        report.untimed = report'.untimed) := by
  refine ⟨⟨?_, ?_⟩, ?_, ?_⟩
  · rintro ⟨error, hends⟩
    by_contra hnone
    push Not at hnone
    have hreport := (ends_iff_of_no_abort hvalid (abort?_executions_of_none hnone _)).1 hends
    exact absurd hreport nofun
  · intro hfails
    obtain ⟨before, r, fault, hfirst⟩ := exists_firstFailure hfails
    exact ⟨_, (hfirst.ends_iff hvalid hfast).2 rfl⟩
  · intro before r fault hfirst
    refine ⟨fun result => hfirst.ends_iff hvalid hfast, ?_, exists_invokes o workspace paths, ?_, ?_⟩
    · intro p hwork hvalid' hfast'
      obtain ⟨before', s, fault', hfirst', hbefore, hs, halike⟩ := hwork.firstFailure hfirst
      refine ⟨before', s, fault', hfirst', ?_, hs.entry.symm, halike, ?_, ?_⟩
      · exact (map_entry_of_alike hbefore).symm
      · intro hfaults
        have hfound := hfirst'.findSome?_faults
        rw [← hfaults, hfirst.findSome?_faults] at hfound
        exact (Option.some.inj hfound).symm
      · intro now' result
        rw [hs.analyzer.name]
        exact hfirst'.ends_iff hvalid' hfast'
    · intro log hlog
      rw [← hfirst.started hfast]
      exact hlog.perm_started
    · rw [invoked_execute hvalid, hfirst.started hfast]
  · intro hnone p hwork hvalid' hgoes now'
    have hfaults : o.faults workspace paths = p.faults workspace paths :=
      hwork.faults_eq_of_none hnone
    obtain ⟨report, hends⟩ : ∃ report, ∀ result,
        o.Ends workspace now paths result ↔ result = .ok report :=
      ⟨_, fun _ => ends_iff_of_no_abort hvalid (abort?_executions_of_none hnone _)⟩
    obtain ⟨report', hends'⟩ := exists_ends_iff workspace now' paths hvalid' hgoes
    obtain ⟨-, huntimed⟩ := alike_of_ends hwork.executions hwork.templates hwork.recommendations
      ((hends _).2 rfl) ((hends' _).2 rfl)
    exact ⟨report, report', hends, hends', huntimed hfaults⟩

/-- Batches of two, of which the second has a slow failure before a quick one; what breaks off slowly
has the task of the given number. -/
def strictOrchestrator (parallel : Bool) (slow quick task : Nat) : Orchestrator where
  config := { parallel, maxConcurrent := 2, timeoutMs := 100, failFast := true }
  registry := ⟨[
    ("calm", fun _ => .ok (steadyAnalyzer "calm" (.settles 50 (.issues [findingAt "c" "a.ts"])))),
    ("broken", fun _ => .error .timeout),
    ("empty", fun _ => .ok (steadyAnalyzer "empty" (.settles 1 (.issues [])))),
    ("slow", fun _ => .ok (steadyAnalyzer "slow" (.settles slow (.panic "s" task)))),
    ("quick", fun _ => .ok (steadyAnalyzer "quick" (.settles quick (.fault (.execution "q"))))),
    ("last", fun _ => .ok (steadyAnalyzer "last" .never))]⟩

/-- The failures are alike as long as they come in time. -/
lemma strictOrchestrator_sameWork (parallel : Bool) (slow quick task : Nat) (hslow : slow < 100)
    (hquick : quick < 100) :
    SameWork emptyWorkspace [⟨"a.ts"⟩] (strictOrchestrator true 90 1 17)
      (strictOrchestrator parallel slow quick task) := by
  have hsettle {after : Nat} (hafter : after < 100) (ending : Ending) :
      ((Invocation.settles after ending).settle 100).2 = ending.result := by
    rw [Invocation.settle, if_pos hafter]
  refine ⟨rfl, rfl, rfl, rfl, ?_⟩
  refine .cons (.refl _) ?_
  refine .cons ⟨rfl, fun _ => .none⟩ ?_
  refine .cons (.refl _) ?_
  refine .cons ⟨rfl, fun _ => .some ⟨rfl, rfl, rfl, ?_⟩⟩ ?_
  · show OutcomesAlike _ ((Invocation.settles slow (.panic "s" task)).settle 100).2
    rw [hsettle hslow]
    exact .error (.panic "s" (some 17) (some task))
  refine .cons ⟨rfl, fun _ => .some ⟨rfl, rfl, rfl, ?_⟩⟩ ?_
  · show OutcomesAlike _ ((Invocation.settles quick (.fault (.execution "q"))).settle 100).2
    rw [hsettle hquick]
    exact .error (.refl _)
  exact .cons (.refl _) .nil

/-- The slow failure is the first one, also where the quick one is over long before it and where the
batches have one analyzer; each run tells it with a task of its own, and the last analyzer is not
invoked. -/
theorem strictOrchestrator_ends :
    (strictOrchestrator true 90 1 17).config.problem? = none ∧
    (strictOrchestrator true 90 1 17).config.failFast = true ∧
    (strictOrchestrator true 90 1 17).Ends emptyWorkspace default [⟨"a.ts"⟩]
      (.error (.analyzer "slow" (panicFault "s" (some 17)))) ∧
    (∃ fault, (panicFault "s" (some 17)).Alike fault ∧
      (strictOrchestrator false 5 99 4).Ends emptyWorkspace default [⟨"a.ts"⟩]
        (.error (.analyzer "slow" fault))) ∧
    ((strictOrchestrator true 90 1 17).execute emptyWorkspace default [⟨"a.ts"⟩]).events.filterMap
      Event.invoked? = ["calm", "empty", "slow", "quick"] := by
  have hfirst : (strictOrchestrator true 90 1 17).FirstFailure emptyWorkspace [⟨"a.ts"⟩]
      [⟨"calm", steadyAnalyzer "calm" (.settles 50 (.issues [findingAt "c" "a.ts"]))⟩,
        ⟨"empty", steadyAnalyzer "empty" (.settles 1 (.issues []))⟩]
      ⟨"slow", steadyAnalyzer "slow" (.settles 90 (.panic "s" (some 17)))⟩
      (panicFault "s" (some 17)) := by
    refine ⟨⟨_, rfl⟩, ?_, rfl⟩
    intro q hq
    cases hq with
    | head => rfl
    | tail _ hq =>
      cases hq with
      | head => rfl
      | tail _ hq => cases hq
  obtain ⟨-, hfails, -⟩ :=
    @ends_at_first_failure (strictOrchestrator true 90 1 17) emptyWorkspace default [⟨"a.ts"⟩] rfl rfl
  obtain ⟨hends, hothers, -, -, hinvoked⟩ := hfails _ _ _ hfirst
  have hwork := strictOrchestrator_sameWork false 5 99 4 (by decide) (by decide)
  obtain ⟨_, _, fault', -, -, -, halike, -, hends'⟩ := hothers _ hwork rfl rfl
  refine ⟨rfl, rfl, (hends _).2 rfl, ⟨fault', halike, (hends' _ _).2 rfl⟩, ?_⟩
  rw [hinvoked]
  rfl

end Orchestrator

end CodeAudit
