import CodeAudit.Run.Orchestrator
import Mathlib
/-!
# What a run comes to

A run whose failures do not end it gives one execution for each analyzer that takes part, in the
order of registration: cutting the analyzers into batches leaves no trace. Which analyzers take part
is said of each entry of the registry alone.
-/
namespace CodeAudit

/-- The analyzer of an entry that takes part in a run: it is enabled, built and prepared. -/
def participant? (config : RunConfig) (entry : String × Factory) : Option ReadyAnalyzer := do
  guard (config.settingsFor entry.1).enabled
  let analyzer ← (entry.2 (config.settingsFor entry.1).config).toOption
  let _ ← analyzer.prepare.toOption
  return ⟨entry.1, analyzer⟩

/-- The analyzers that take part in a run, in the order of registration. -/
def participants (config : RunConfig) (registry : Registry) : List ReadyAnalyzer :=
  registry.entries.filterMap (participant? config)

/-- The analyzer of an entry takes part under the name of the entry. -/
lemma entry_of_participant? {config : RunConfig} {entry : String × Factory} {r : ReadyAnalyzer}
    (h : participant? config entry = some r) : r.entry = entry.1 := by
  simp only [participant?, Option.bind_eq_bind, Option.bind_eq_some_iff, Option.pure_def,
    Option.some.injEq] at h
  obtain ⟨-, -, analyzer, -, -, -, rfl⟩ := h
  rfl

/-- The analyzers that take part are under names of the registry, in its order. -/
lemma entries_participants_sublist (config : RunConfig) (registry : Registry) :
    ((participants config registry).map ReadyAnalyzer.entry).Sublist registry.names := by
  rw [participants, Registry.names]
  induction registry.entries with
  | nil => exact .slnil
  | cons entry rest ih =>
    rw [List.filterMap_cons, List.map_cons]
    cases hr : participant? config entry with
    | none => exact ih.cons _
    | some r =>
      rw [List.map_cons, entry_of_participant? hr]
      exact ih.cons_cons _

/-- An analyzer takes part if it is built, it is enabled and its preparation succeeds. -/
lemma participant?_eq (config : RunConfig) (entry : String × Factory) :
    participant? config entry
      = (entry.2 (config.settingsFor entry.1).config).toOption.bind fun analyzer =>
        if (config.settingsFor entry.1).enabled ∧ analyzer.prepare.isOk then
          some ⟨entry.1, analyzer⟩
        else none := by
  cases henabled : (config.settingsFor entry.1).enabled with
  | false => simp [participant?, henabled]
  | true =>
    cases hbuilt : entry.2 (config.settingsFor entry.1).config with
    | error fault => simp [participant?, henabled, hbuilt, Except.toOption]
    | ok analyzer =>
      cases hprepared : analyzer.prepare <;>
        simp [participant?, henabled, hbuilt, hprepared, Except.toOption, Except.isOk, Except.toBool]

/-- An analyzer that has been built takes part if it is enabled and its preparation succeeds. -/
lemma participant?_of_built {config : RunConfig} {name : String} {factory : Factory}
    {analyzer : Analyzer} (h : factory (config.settingsFor name).config = .ok analyzer) :
    participant? config (name, factory)
      = if (config.settingsFor name).enabled ∧ analyzer.prepare.isOk then some ⟨name, analyzer⟩
        else none := by
  rw [participant?_eq]
  show (factory (config.settingsFor name).config).toOption.bind _ = _
  rw [h]
  rfl

namespace Crew

/-- An entry adds its analyzer to the crew if it takes part. -/
lemma ready_enlist (config : RunConfig) (crew : Crew) (entry : String × Factory) :
    (enlist config crew entry).ready = crew.ready ++ (participant? config entry).toList := by
  obtain ⟨name, factory⟩ := entry
  cases henabled : (config.settingsFor name).enabled with
  | false => simp [enlist, participant?, henabled]
  | true =>
    cases hbuilt : factory (config.settingsFor name).config with
    | error fault => simp [enlist, participant?, henabled, hbuilt, Except.toOption]
    | ok analyzer =>
      cases hprepared : analyzer.prepare <;>
        simp [enlist, participant?, henabled, hbuilt, hprepared, Except.toOption]

/-- The crew of a run is made of the analyzers that take part. -/
lemma ready_assemble (config : RunConfig) (registry : Registry) :
    (assemble config registry).ready = participants config registry := by
  rw [assemble, participants]
  induction registry.entries using List.reverseRecOn with
  | nil => rfl
  | append_singleton front entry ih =>
    rw [List.foldl_append, List.filterMap_append, ← ih]
    show (enlist config _ entry).ready = _
    rw [ready_enlist]
    congr 1

end Crew

section Batches

variable {α : Type}

/-- Batches hold the items in their order. -/
lemma flatten_batches (size : Nat) (items : List α) : (batches size items).flatten = items := by
  induction items using batches.induct size with
  | case1 => simp [batches]
  | case2 first rest ih => rw [batches, List.flatten_cons, ih, List.cons_append, List.take_append_drop]

/-- Where a list is cut does not depend on its items. -/
lemma batches_map {β : Type} (size : Nat) (f : α → β) (items : List α) :
    batches size (items.map f) = (batches size items).map (List.map f) := by
  induction items using batches.induct size with
  | case1 => simp [batches]
  | case2 first rest ih =>
    rw [List.map_cons, batches, batches, List.map_cons, List.map_cons, List.map_take,
      ← List.map_drop, ih]

/-- The first batch takes its size off the list, and one item if the size is zero. -/
lemma batches_of_ne_nil (size : Nat) {items : List α} (h : items ≠ []) :
    batches size items = items.take (max size 1) :: batches size (items.drop (max size 1)) := by
  obtain ⟨first, rest, rfl⟩ := List.exists_cons_of_ne_nil h
  have hsize : max size 1 = size - 1 + 1 := by omega
  rw [batches, hsize]
  rfl

/-- The first batch is cut off the front, and the others are those of what is left. -/
lemma batches_eq_cons {size : Nat} {items batch : List α} {rest : List (List α)}
    (h : batches size items = batch :: rest) :
    items ≠ [] ∧ batch = items.take (max size 1) ∧
      rest = batches size (items.drop (max size 1)) := by
  have hne : items ≠ [] := by
    rintro rfl
    rw [batches] at h
    exact List.cons_ne_nil _ _ h.symm
  rw [batches_of_ne_nil size hne] at h
  obtain ⟨rfl, rfl⟩ := List.cons.inj h
  exact ⟨hne, rfl, rfl⟩

end Batches

namespace Course

variable (execute : Analyzer → Execution)

/-- Nothing ends a run that is to go on. -/
lemma abort?_false (settled : List Execution) : abort? false settled = none :=
  rfl

/-- The first fault ends a run that is to end at a failure. -/
lemma abort?_true (settled : List Execution) :
    abort? true settled
      = settled.findSome? fun e => e.fault.map fun fault => .analyzer e.result.name fault :=
  rfl

/-- What ends a run is the fault of an execution. -/
lemma exists_of_abort?_eq_some {failFast : Bool} {settled : List Execution} {error : RunError}
    (h : abort? failFast settled = some error) :
    failFast = true ∧ ∃ e ∈ settled, ∃ fault, e.fault = some fault ∧
      error = .analyzer e.result.name fault := by
  obtain ⟨hfast, h⟩ := Option.ite_none_right_eq_some.1 h
  obtain ⟨e, he, herror⟩ := List.exists_of_findSome?_eq_some h
  obtain ⟨fault, hfault, rfl⟩ := Option.map_eq_some_iff.1 herror
  exact ⟨hfast, e, he, fault, hfault, rfl⟩

/-- Of the failures in two parts, one in the first part comes first. -/
lemma abort?_append (failFast : Bool) (first second : List Execution) :
    abort? failFast (first ++ second) = (abort? failFast first).or (abort? failFast second) := by
  cases failFast with
  | false => rfl
  | true => exact List.findSome?_append

/-- However the analyzers are cut into batches, the run ends at the first failure of them all, or has
an execution for each. -/
lemma outcome_run (failFast : Bool) (waiting : List (List ReadyAnalyzer)) :
    (run failFast execute waiting).outcome
      = match abort? failFast (waiting.flatten.map fun r => execute r.analyzer) with
        | some error => .error error
        | none => .ok (waiting.flatten.map fun r => execute r.analyzer) := by
  induction waiting with
  | nil => cases failFast <;> rfl
  | cons batch rest ih =>
    rw [run, List.flatten_cons, List.map_append, abort?_append]
    cases habort : abort? failFast (batch.map fun r => execute r.analyzer) with
    | some error => rfl
    | none =>
      rw [Option.none_or]
      simp only [ih]
      cases abort? failFast (rest.flatten.map fun r => execute r.analyzer) <;> rfl

/-- The time of a run that goes on after failures is that of its batches. -/
lemma milliseconds_run_false (waiting : List (List ReadyAnalyzer)) :
    (run false execute waiting).milliseconds
      = (waiting.map fun batch => longest (batch.map fun r => execute r.analyzer)).sum := by
  induction waiting with
  | nil => rfl
  | cons batch rest ih =>
    rw [run, abort?_false, List.map_cons, List.sum_cons, ← ih]

/-- An empty batch is started, and comes to nothing. -/
lemma run_nil_cons (failFast : Bool) (rest : List (List ReadyAnalyzer)) :
    run failFast execute ([] :: rest)
      = { run failFast execute rest with started := [] :: (run failFast execute rest).started } := by
  have habort : abort? failFast [] = none := by
    cases failFast <;> rfl
  have houtcome : (run failFast execute rest).outcome.map ([] ++ ·)
      = (run failFast execute rest).outcome := by
    cases (run failFast execute rest).outcome <;> rfl
  have hmilliseconds : longest [] + (run failFast execute rest).milliseconds
      = (run failFast execute rest).milliseconds := Nat.zero_add _
  rw [run, List.map_nil, habort]
  simp only [houtcome, hmilliseconds]

/-- An empty batch does not change what a run comes to. -/
lemma outcome_run_nil_cons (failFast : Bool) (rest : List (List ReadyAnalyzer)) :
    (run failFast execute ([] :: rest)).outcome = (run failFast execute rest).outcome := by
  rw [run_nil_cons]

/-- An empty batch takes no time. -/
lemma milliseconds_run_nil_cons (failFast : Bool) (rest : List (List ReadyAnalyzer)) :
    (run failFast execute ([] :: rest)).milliseconds
      = (run failFast execute rest).milliseconds := by
  rw [run_nil_cons]

/-- An empty batch starts nothing. -/
lemma started_run_nil_cons (failFast : Bool) (rest : List (List ReadyAnalyzer)) :
    (run failFast execute ([] :: rest)).started.flatten
      = (run failFast execute rest).started.flatten := by
  rw [run_nil_cons]
  rfl

/-- A batch that ends the run. -/
lemma run_cons_of_abort {failFast : Bool} {batch : List ReadyAnalyzer} {error : RunError}
    (h : abort? failFast (batch.map fun r => execute r.analyzer) = some error)
    (rest : List (List ReadyAnalyzer)) :
    run failFast execute (batch :: rest)
      = ⟨[batch], longest (batch.map fun r => execute r.analyzer), .error error⟩ := by
  rw [run, h]

/-- A run that goes on after a batch comes to the executions of the batch and of the others. -/
lemma run_cons_of_goes_on {failFast : Bool} {batch : List ReadyAnalyzer}
    (h : abort? failFast (batch.map fun r => execute r.analyzer) = none)
    (rest : List (List ReadyAnalyzer)) :
    run failFast execute (batch :: rest) =
      { started := batch :: (run failFast execute rest).started
        milliseconds := longest (batch.map fun r => execute r.analyzer)
          + (run failFast execute rest).milliseconds
        outcome := (run failFast execute rest).outcome.map
          (batch.map (fun r => execute r.analyzer) ++ ·) } := by
  rw [run, h]

end Course

end CodeAudit
