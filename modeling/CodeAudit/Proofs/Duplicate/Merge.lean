import CodeAudit.Duplicate.Block
import Mathlib
/-!
# Merging loses no group

A run stands for several windows, each a number of lines below its first one. Merging shares out
the groups among the windows of the runs: its table tells what each run goes on with, so every group
becomes one window of one run, and every window of a run comes from one group. So a place that lies in
one group lies in one window of one run, at one of its starts.
-/
namespace CodeAudit.Duplicate

namespace Run

/-- The places of the windows that a run stands for, one list for each window. -/
def windows (r : Run) : List (List Occurrence) :=
  (List.range (r.extension + 1)).map fun e => r.starts.map (·.shift e)

/-- A run that is made of a group has one window, the starts of the group. -/
lemma windows_ofGroup (g : Group) : (ofGroup g).windows = [g.starts] := by
  have hshift : (fun o : Occurrence => o.shift 0) = id := rfl
  simp [windows, ofGroup, hshift]

/-- The places where the window after the last one of a run would start. -/
def next (r : Run) : List Occurrence :=
  r.starts.map (·.shift (r.extension + 1))

/-- A run that is extended stands for the next window besides. -/
lemma windows_extend (r : Run) : r.extend.windows = r.windows ++ [r.next] := by
  rw [windows, extend, List.range_succ, List.map_append]
  rfl

/-- An extended run goes on one line further. -/
lemma next_extend (r : Run) : r.extend.next = shifted r.next := by
  rw [next, next, shifted, List.map_map]
  rfl

end Run

namespace Merging

/-- The table of a merging expects the runs to go on right after their last windows. -/
def Sound (m : Merging) : Prop :=
  ∀ starts i, m.expected[starts]? = some i → ∃ r : Run, m.runs[i]? = some r ∧ r.next = starts

/-- A group that is added leaves the table sound: the run that it continues is moved to its next
window, and no other entry is touched. -/
lemma Sound.add {m : Merging} (h : m.Sound) (g : Group) : (m.add g).Sound := by
  intro starts j hj
  rw [Merging.add] at hj ⊢
  cases hi : m.expected[g.starts]? with
  | some i =>
    rw [hi] at hj
    obtain ⟨r, hr, hnext⟩ := h g.starts i hi
    rw [Std.HashMap.getElem?_insert, Std.HashMap.getElem?_erase] at hj
    dsimp only at hj ⊢
    rw [Array.getElem?_modify]
    split at hj
    · next heq =>
      obtain rfl := Option.some.inj hj
      refine ⟨r.extend, ?_, ?_⟩
      · rw [if_pos rfl, hr]
        rfl
      · rw [Run.next_extend, hnext]
        exact beq_iff_eq.1 heq
    · split at hj
      · exact absurd hj.symm (Option.some_ne_none j)
      · next hne =>
        obtain ⟨r', hr', hnext'⟩ := h starts j hj
        refine ⟨r', ?_, hnext'⟩
        rw [if_neg, hr']
        rintro rfl
        obtain rfl := Option.some.inj (hr.symm.trans hr')
        exact hne (beq_iff_eq.2 (hnext.symm.trans hnext'))
  | none =>
    rw [hi] at hj
    rw [Std.HashMap.getElem?_insert] at hj
    dsimp only at hj ⊢
    split at hj
    · next heq =>
      obtain rfl := Option.some.inj hj
      refine ⟨Run.ofGroup g, Array.getElem?_push_size, ?_⟩
      exact beq_iff_eq.1 heq
    · obtain ⟨r, hr, hnext⟩ := h starts j hj
      refine ⟨r, ?_, hnext⟩
      rw [Array.getElem?_push_lt (Array.getElem?_eq_some_iff.1 hr).1]
      exact congrArg some (Array.getElem?_eq_some_iff.1 hr).2

/-- Whatever groups are added, the runs are sound. -/
lemma sound_foldl (groups : List Group) : (groups.foldl add {}).Sound := by
  induction groups using List.reverseRecOn with
  | nil =>
    intro starts i hi
    have hnone : (∅ : Std.HashMap (List Occurrence) Nat)[starts]? = none := Std.HashMap.getElem?_empty
    exact absurd (hi.symm.trans hnone) (Option.some_ne_none i)
  | append_singleton front g ih =>
    rw [List.foldl_append]
    exact ih.add g

/-- Adding a group adds one window. -/
lemma windows_add_perm {m : Merging} (h : m.Sound) (g : Group) :
    ((m.add g).runs.toList.flatMap Run.windows).Perm
      (m.runs.toList.flatMap Run.windows ++ [g.starts]) := by
  rw [add]
  split
  · next i hi =>
    obtain ⟨r, hr, hnext⟩ := h g.starts i hi
    rw [← Array.getElem?_toList] at hr
    obtain ⟨hlt, hget⟩ := List.getElem?_eq_some_iff.1 hr
    -- the run that is extended grows by the window that it expected next
    obtain ⟨front, r', back, hsplit, hlength, hmodify⟩ := List.exists_of_modify Run.extend hlt
    obtain rfl : r' = r := by
      have := hget
      simpa [hsplit, ← hlength] using this
    dsimp only
    rw [Array.toList_modify, hmodify, hsplit, List.flatMap_append, List.flatMap_cons,
      Run.windows_extend, hnext, List.flatMap_append, List.flatMap_cons]
    simp only [List.append_assoc]
    exact ((List.perm_append_comm).append_left _).append_left _
  · dsimp only
    rw [Array.toList_push, List.flatMap_append, List.flatMap_singleton, Run.windows_ofGroup]

/-- A run that is extended keeps its first window, and a run that is added has that of its group. -/
lemma mem_runs_add {m : Merging} {g : Group} {r : Run} (h : r ∈ (m.add g).runs.toList) :
    (∃ r' ∈ m.runs.toList, r'.hash = r.hash ∧ r'.starts = r.starts)
      ∨ g.hash = r.hash ∧ g.starts = r.starts := by
  rw [add] at h
  split at h
  · next i hi =>
    left
    dsimp only at h
    rw [Array.toList_modify] at h
    obtain ⟨j, hj⟩ := List.mem_iff_getElem?.1 h
    rw [List.getElem?_modify, Option.map_eq_map, Option.map_eq_some_iff] at hj
    obtain ⟨r', hr', hmodified⟩ := hj
    refine ⟨r', List.mem_of_getElem? hr', ?_⟩
    split at hmodified
    · rw [← hmodified]
      exact ⟨rfl, rfl⟩
    · rw [← hmodified]
      exact ⟨rfl, rfl⟩
  · dsimp only at h
    rw [Array.toList_push, List.mem_append, List.mem_singleton] at h
    obtain h | rfl := h
    · exact Or.inl ⟨r, h, rfl, rfl⟩
    · exact Or.inr ⟨rfl, rfl⟩

end Merging

namespace Run

/-- The windows of the merged runs are the groups, each once. -/
lemma windows_merge_perm (groups : List Group) :
    ((merge groups).flatMap windows).Perm (groups.map Group.starts) := by
  rw [merge]
  induction groups using List.reverseRecOn with
  | nil => exact List.Perm.refl _
  | append_singleton front g ih =>
    rw [List.foldl_append, List.map_append]
    exact (Merging.windows_add_perm (Merging.sound_foldl front) g).trans (ih.append_right _)

/-- The first window of a merged run is that of a group. -/
lemma exists_group_of_mem_merge {groups : List Group} {r : Run} (h : r ∈ merge groups) :
    ∃ g ∈ groups, g.hash = r.hash ∧ g.starts = r.starts := by
  rw [merge] at h
  induction groups using List.reverseRecOn generalizing r with
  | nil => exact absurd h List.not_mem_nil
  | append_singleton front g ih =>
    rw [List.foldl_append] at h
    obtain ⟨r', hr', hhash, hstarts⟩ | hfirst := Merging.mem_runs_add h
    · obtain ⟨g', hg', hhash', hstarts'⟩ := ih hr'
      exact ⟨g', List.mem_append_left _ hg', hhash'.trans hhash, hstarts'.trans hstarts⟩
    · exact ⟨g, List.mem_append_right _ (List.mem_singleton_self _), hfirst⟩

/-- Every window of a merged run is that of a group. -/
lemma exists_group_of_window {groups : List Group} {r : Run} (h : r ∈ merge groups) {e : Nat}
    (he : e ≤ r.extension) : ∃ g ∈ groups, g.starts = r.starts.map (·.shift e) := by
  have hwindow : r.starts.map (·.shift e) ∈ (merge groups).flatMap windows :=
    List.mem_flatMap.2 ⟨r, h, List.mem_map.2 ⟨e, List.mem_range.2 (Nat.lt_succ_of_le he), rfl⟩⟩
  rw [(windows_merge_perm groups).mem_iff] at hwindow
  exact List.mem_map.1 hwindow

end Run

/-- Where a window is reported: in which block, at which of its locations, how many lines below. -/
structure Spot where
  block : Nat
  location : Nat
  offset : Nat
deriving DecidableEq, Repr

/-- The window that a spot of some runs points at starts at a place. -/
def Run.At (runs : List Run) (spot : Spot) (place : Occurrence) : Prop :=
  ∃ r o, runs[spot.block]? = some r ∧ r.starts[spot.location]? = some o
    ∧ spot.offset ≤ r.extension ∧ o.shift spot.offset = place

namespace Run

/-- A place is pointed at exactly if it is a place of a window of the runs. -/
lemma exists_at_iff {runs : List Run} {place : Occurrence} :
    (∃ spot, At runs spot place) ↔ place ∈ (runs.flatMap windows).flatten := by
  rw [List.mem_flatten]
  constructor
  · rintro ⟨spot, r, o, hr, ho, he, rfl⟩
    refine ⟨r.starts.map (·.shift spot.offset), ?_, ?_⟩
    · refine List.mem_flatMap.2 ⟨r, List.mem_of_getElem? hr, List.mem_map.2 ⟨spot.offset, ?_, rfl⟩⟩
      exact List.mem_range.2 (Nat.lt_succ_of_le he)
    · exact List.mem_map.2 ⟨o, List.mem_of_getElem? ho, rfl⟩
  · rintro ⟨window, hwindow, hplace⟩
    obtain ⟨r, hr, hwindow⟩ := List.mem_flatMap.1 hwindow
    obtain ⟨e, he, rfl⟩ := List.mem_map.1 hwindow
    obtain ⟨o, ho, rfl⟩ := List.mem_map.1 hplace
    obtain ⟨i, hi⟩ := List.mem_iff_getElem?.1 hr
    obtain ⟨j, hj⟩ := List.mem_iff_getElem?.1 ho
    exact ⟨⟨i, j, e⟩, r, o, hi, hj, Nat.le_of_lt_succ (List.mem_range.1 he), rfl⟩

/-- An item of a list of lists without repeats is in one list only. -/
lemma index_unique {α β : Type} {items : List α} {f : α → List β} (h : (items.flatMap f).Nodup)
    {i j : Nat} {a b : α} {x : β} (ha : items[i]? = some a) (hb : items[j]? = some b)
    (hxa : x ∈ f a) (hxb : x ∈ f b) : i = j := by
  obtain ⟨hi, rfl⟩ := List.getElem?_eq_some_iff.1 ha
  obtain ⟨hj, rfl⟩ := List.getElem?_eq_some_iff.1 hb
  have hpairs := List.pairwise_iff_getElem.1 (List.nodup_flatMap.1 h).2
  by_contra hne
  obtain hlt | hgt := Nat.lt_or_gt_of_ne hne
  · exact hpairs i j hi hj hlt hxa hxb
  · exact hpairs j i hj hi hgt hxb hxa

/-- If no place is in two windows, at most one spot points at a place. -/
lemma At.unique {runs : List Run} (h : (runs.flatMap windows).flatten.Nodup) {place : Occurrence}
    {s t : Spot} (hs : At runs s place) (ht : At runs t place) : s = t := by
  obtain ⟨i, j, e⟩ := s
  obtain ⟨i', j', e'⟩ := t
  obtain ⟨r, o, (hr : runs[i]? = some r), (ho : r.starts[j]? = some o),
    (he : e ≤ r.extension), rfl⟩ := hs
  obtain ⟨r', o', (hr' : runs[i']? = some r'), (ho' : r'.starts[j']? = some o'),
    (he' : e' ≤ r'.extension), (hplace : o'.shift e' = o.shift e)⟩ := ht
  have mem_window {r : Run} {o : Occurrence} {j : Nat} (e : Nat) (ho : r.starts[j]? = some o) :
      o.shift e ∈ r.starts.map (·.shift e) :=
    List.mem_map.2 ⟨o, List.mem_of_getElem? ho, rfl⟩
  have mem_windows {r : Run} {o : Occurrence} {j e : Nat} (ho : r.starts[j]? = some o)
      (he : e ≤ r.extension) : o.shift e ∈ r.windows.flatten :=
    List.mem_flatten.2 ⟨_, List.mem_map.2 ⟨e, List.mem_range.2 (Nat.lt_succ_of_le he), rfl⟩,
      mem_window e ho⟩
  -- first the run, then the window in the run, then the start in the window
  have hruns : (runs.flatMap fun r => r.windows.flatten).Nodup := by
    rwa [List.flatMap_def, List.flatten_flatten, List.map_map] at h
  obtain rfl : i = i' :=
    index_unique hruns hr hr' (mem_windows ho he) (hplace ▸ mem_windows ho' he')
  obtain rfl : r = r' := Option.some.inj (hr.symm.trans hr')
  have hwindows : ((List.range (r.extension + 1)).flatMap
      fun e => r.starts.map (·.shift e)).Nodup :=
    (List.nodup_flatMap.1 hruns).1 r (List.mem_of_getElem? hr)
  obtain rfl : e = e' :=
    index_unique hwindows (List.getElem?_range (Nat.lt_succ_of_le he))
      (List.getElem?_range (Nat.lt_succ_of_le he')) (mem_window e ho) (hplace ▸ mem_window e' ho')
  have hstarts : (r.starts.map (·.shift e)).Nodup :=
    (List.nodup_flatMap.1 hwindows).1 e (List.mem_range.2 (Nat.lt_succ_of_le he))
  have hj : (r.starts.map (·.shift e))[j]? = some (o.shift e) := by
    rw [List.getElem?_map, ho, Option.map_some]
  have hj' : (r.starts.map (·.shift e))[j']? = some (o.shift e) := by
    rw [List.getElem?_map, ho', Option.map_some, hplace]
  obtain rfl : j = j' :=
    (List.getElem?_inj (List.getElem?_eq_some_iff.1 hj).1 hstarts).1 (hj.trans hj'.symm)
  rfl

end Run

end CodeAudit.Duplicate
