import CodeAudit.Proofs.Duplicate.Merge
/-!
# Runs are maximal chains

Merging is one pass over the groups, which come in the order of their places, so a group is met
after the group it goes on from. Then the table has an entry for every run, no two runs claim one
entry, and no run goes on with a group that was met before. So a run neither ends where a group goes
on nor starts where a group ends: the runs are the longest chains of groups, each group one line
below the one before it.
-/
namespace CodeAudit.Duplicate

/-- The places some lines further down. -/
def below (starts : List Occurrence) (lines : Nat) : List Occurrence :=
  starts.map (·.shift lines)

/-- No lines below some places are the places themselves. -/
@[simp]
lemma below_zero (starts : List Occurrence) : below starts 0 = starts :=
  List.map_id _

/-- Lines below places that are below some places add up. -/
lemma below_below (starts : List Occurrence) (d e : Nat) :
    below (below starts d) e = below starts (d + e) := by
  rw [below, below, below, List.map_map]
  apply List.map_congr_left
  intro o _
  simp only [Function.comp_apply, Occurrence.shift, Nat.add_assoc]

/-- Places that are the same one line on are the same. -/
lemma shifted_injective {starts others : List Occurrence} (h : shifted starts = shifted others) :
    starts = others := by
  refine List.map_injective_iff.2 ?_ h
  intro o p e
  obtain ⟨hfile, hstart⟩ := Occurrence.mk.inj e
  exact Occurrence.mk.injEq .. ▸ ⟨hfile, Nat.add_right_cancel hstart⟩

/-- Places are not the same after different numbers of lines. -/
lemma below_inj {starts : List Occurrence} (hne : starts ≠ []) {d e : Nat} :
    below starts d = below starts e ↔ d = e := by
  constructor
  · intro h
    cases starts with
    | nil => exact absurd rfl hne
    | cons o rest => exact Nat.add_left_cancel (Occurrence.mk.inj (List.cons.inj h).1).2
  · rintro rfl
    rfl

/-- Windows that follow one another line by line, with none before them and none after them. -/
structure MaximalChain (complete : List Occurrence → Prop) (starts : List Occurrence)
    (extension : Nat) : Prop where
  windows : ∀ e ≤ extension, complete (below starts e)
  first : ∀ others, complete others → below others 1 ≠ starts
  last : ¬ complete (below starts (extension + 1))

/-- Different groups, of which none comes after one that goes on from it. -/
structure InOrder (groups : List Group) : Prop where
  some : ∀ g ∈ groups, g.starts ≠ []
  different : (groups.map Group.starts).Nodup
  forward : groups.Pairwise fun g h => shifted h.starts ≠ g.starts

namespace InOrder

variable {front : List Group} {g : Group}

/-- All groups but the last are in order if all are. -/
lemma of_append (h : InOrder (front ++ [g])) : InOrder front where
  some g' hg' := h.some g' (List.mem_append_left _ hg')
  different := by
    have hdifferent := h.different
    rw [List.map_append] at hdifferent
    exact hdifferent.of_append_left
  forward := (List.pairwise_append.1 h.forward).1

/-- The last of some groups in order has starts that no other one has. -/
lemma not_mem_front (h : InOrder (front ++ [g])) : g.starts ∉ front.map Group.starts := by
  have hdifferent := h.different
  rw [List.map_append, List.nodup_append'] at hdifferent
  exact fun hmem => hdifferent.2.2 hmem (List.mem_singleton_self _)

/-- What goes on from the last group has not been met. -/
lemma shifted_ne (h : InOrder (front ++ [g])) {g' : Group} (hg' : g' ∈ front ++ [g]) :
    shifted g.starts ≠ g'.starts := by
  obtain hfront | hlast := List.mem_append.1 hg'
  · exact (List.pairwise_append.1 h.forward).2.2 g' hfront g (List.mem_singleton_self g)
  · obtain rfl := List.mem_singleton.1 hlast
    intro e
    have hone : below g'.starts 1 = below g'.starts 0 := e.trans (below_zero _).symm
    exact absurd ((below_inj (h.some g' hg')).1 hone) Nat.one_ne_zero

end InOrder

namespace Merging

/-- The table of a merging has an entry for every run. -/
def Complete (m : Merging) : Prop :=
  ∀ (i : Nat) (r : Run), m.runs[i]? = some r → m.expected[r.next]? = some i

/-- Adding a group touches two entries of the table: that of its places and the one below it. -/
lemma expected_add_of_ne {m : Merging} {g : Group} {starts : List Occurrence}
    (hhere : starts ≠ g.starts) (hbelow : starts ≠ shifted g.starts) :
    (m.add g).expected[starts]? = m.expected[starts]? := by
  rw [add]
  cases hi : m.expected[g.starts]? with
  | some i =>
    dsimp only
    rw [Std.HashMap.getElem?_insert, Std.HashMap.getElem?_erase, if_neg, if_neg]
    · exact fun e => hhere (beq_iff_eq.1 e).symm
    · exact fun e => hbelow (beq_iff_eq.1 e).symm
  | none =>
    dsimp only
    rw [Std.HashMap.getElem?_insert, if_neg]
    exact fun e => hbelow (beq_iff_eq.1 e).symm

/-- After a group is added, a run either ends with it, or is an old one that did not expect it. -/
lemma getElem?_runs_add {m : Merging} (h : m.Sound) {g : Group} {i : Nat} {r : Run}
    (hr : (m.add g).runs[i]? = some r) :
    (r.next = shifted g.starts ∧ (m.add g).expected[shifted g.starts]? = some i)
      ∨ (m.runs[i]? = some r ∧ m.expected[g.starts]? ≠ some i) := by
  rw [add] at hr ⊢
  cases hj : m.expected[g.starts]? with
  | some j =>
    rw [hj] at hr
    dsimp only at hr ⊢
    rw [Array.getElem?_modify] at hr
    split at hr
    · next heq =>
      subst heq
      obtain ⟨r', hr', hnext⟩ := h g.starts j hj
      rw [hr'] at hr
      obtain rfl := Option.some.inj hr
      refine Or.inl ⟨?_, Std.HashMap.getElem?_insert_self⟩
      rw [Run.next_extend, hnext]
    · next hne => exact Or.inr ⟨hr, fun e => hne (Option.some.inj e)⟩
  | none =>
    rw [hj] at hr
    dsimp only at hr ⊢
    rw [Array.getElem?_push] at hr
    split at hr
    · next heq =>
      subst heq
      obtain rfl := Option.some.inj hr
      exact Or.inl ⟨rfl, Std.HashMap.getElem?_insert_self⟩
    · exact Or.inr ⟨hr, (Option.some_ne_none i).symm⟩

/-- In complete runs, nothing but the expected run goes on with the starts of a group. -/
lemma Complete.next_ne {m : Merging} (h : m.Complete) {g : Group} {i : Nat} {r : Run}
    (hr : m.runs[i]? = some r) (hg : m.expected[g.starts]? ≠ some i) : r.next ≠ g.starts := by
  intro e
  exact hg (e ▸ h i r hr)

/-- The table stays complete if the runs so far do not end with the group that is added. -/
lemma Complete.add {m : Merging} (h : m.Complete) (sound : m.Sound) {g : Group}
    (hlast : ∀ (i : Nat) (r : Run), m.runs[i]? = some r → r.next ≠ shifted g.starts) : (m.add g).Complete := by
  intro i r hr
  obtain ⟨hnext, hentry⟩ | ⟨hold, hother⟩ := getElem?_runs_add sound hr
  · rw [hnext]
    exact hentry
  · rw [expected_add_of_ne (h.next_ne hold hother) (hlast i r hold)]
    exact h i r hold

end Merging

namespace Run

variable {gs : List Group}

/-- A run starts where a group does. -/
lemma exists_group_of_starts {r : Run} (hr : r ∈ merge gs) : ∃ g ∈ gs, g.starts = r.starts := by
  obtain ⟨g, hg, hstarts⟩ := exists_group_of_window hr (Nat.zero_le _)
  exact ⟨g, hg, hstarts.trans (below_zero _)⟩

/-- The last window of a run is that of a group that has been added. -/
lemma exists_group_of_next {i : Nat} {r : Run} (hr : (gs.foldl Merging.add {}).runs[i]? = some r) :
    ∃ g ∈ gs, shifted g.starts = r.next := by
  rw [← Array.getElem?_toList] at hr
  obtain ⟨g, hg, hstarts⟩ := exists_group_of_window (List.mem_of_getElem? hr) (le_refl _)
  refine ⟨g, hg, ?_⟩
  rw [hstarts]
  exact below_below r.starts r.extension 1

/-- Whatever groups come in order, the runs are complete. -/
lemma complete_foldl (h : InOrder gs) : (gs.foldl Merging.add {}).Complete := by
  induction gs using List.reverseRecOn with
  | nil =>
    intro i r hr
    cases hr
  | append_singleton front g ih =>
    rw [List.foldl_append]
    have complete : (front.foldl Merging.add {}).Complete := ih h.of_append
    apply complete.add (Merging.sound_foldl front)
    intro i r hr e
    -- a run that has the next entry already would end with the group that is being added
    obtain ⟨g', hg', hnext⟩ := exists_group_of_next hr
    have hstarts : g'.starts = g.starts := shifted_injective (hnext.trans e)
    exact h.not_mem_front (List.mem_map.2 ⟨g', hg', hstarts⟩)

/-- No group goes on where a run ends. -/
lemma next_ne_of_mem_merge (h : InOrder gs) {r : Run} (hr : r ∈ merge gs) {g : Group}
    (hg : g ∈ gs) : r.next ≠ g.starts := by
  obtain ⟨i, hi⟩ := List.mem_iff_getElem?.1 hr
  rw [merge, Array.getElem?_toList] at hi
  clear hr
  induction gs using List.reverseRecOn generalizing i g r with
  | nil => exact absurd hg List.not_mem_nil
  | append_singleton front last ih =>
    rw [List.foldl_append] at hi
    obtain ⟨hnext, -⟩ | ⟨hold, hother⟩ := Merging.getElem?_runs_add (Merging.sound_foldl front) hi
    · -- what the last group is continued by comes after all groups that have been met
      rw [hnext]
      exact h.shifted_ne hg
    · obtain hfront | hlast := List.mem_append.1 hg
      · exact ih h.of_append hfront i hold
      · obtain rfl := List.mem_singleton.1 hlast
        exact (complete_foldl h.of_append).next_ne hold hother

/-- No window is in two runs, nor twice in one. -/
lemma windows_nodup (h : InOrder gs) : ((merge gs).flatMap windows).Nodup :=
  (windows_merge_perm gs).nodup_iff.2 h.different

/-- The windows of a run are those below its starts. -/
lemma below_mem_windows {r : Run} {e : Nat} (he : e ≤ r.extension) :
    below r.starts e ∈ r.windows :=
  List.mem_map.2 ⟨e, List.mem_range.2 (Nat.lt_succ_of_le he), rfl⟩

/-- No two runs have the same starts. -/
lemma starts_nodup (h : InOrder gs) : ((merge gs).map Run.starts).Nodup := by
  refine List.pairwise_map.2 ((List.nodup_flatMap.1 (windows_nodup h)).2.imp ?_)
  intro r s hdisjoint heq
  have hr : r.starts ∈ r.windows := below_zero r.starts ▸ below_mem_windows (Nat.zero_le _)
  have hs : s.starts ∈ s.windows := below_zero s.starts ▸ below_mem_windows (Nat.zero_le _)
  exact hdisjoint hr (heq ▸ hs)

/-- Windows of the runs are the same only if they are one window of one run. -/
lemma window_unique (h : InOrder gs) {r s : Run} (hr : r ∈ merge gs) (hs : s ∈ merge gs)
    {d e : Nat} (hd : d ≤ r.extension) (he : e ≤ s.extension)
    (heq : below r.starts d = below s.starts e) : r = s ∧ d = e := by
  obtain ⟨i, hi⟩ := List.mem_iff_getElem?.1 hr
  obtain ⟨j, hj⟩ := List.mem_iff_getElem?.1 hs
  obtain rfl : i = j :=
    index_unique (windows_nodup h) hi hj (below_mem_windows hd) (heq ▸ below_mem_windows he)
  obtain rfl : r = s := Option.some.inj (hi.symm.trans hj)
  obtain ⟨g, hg, hstarts⟩ := exists_group_of_starts hr
  exact ⟨rfl, (below_inj (hstarts ▸ h.some g hg)).1 heq⟩

/-- The starts of each group are a window of a run. -/
lemma exists_window_of_mem {g : Group} (hg : g ∈ gs) :
    ∃ r ∈ merge gs, ∃ e ≤ r.extension, below r.starts e = g.starts := by
  have hmem : g.starts ∈ (merge gs).flatMap windows :=
    (windows_merge_perm gs).mem_iff.2 (List.mem_map_of_mem hg)
  obtain ⟨r, hr, hwindow⟩ := List.mem_flatMap.1 hmem
  obtain ⟨e, he, hstarts⟩ := List.mem_map.1 hwindow
  exact ⟨r, hr, e, Nat.le_of_lt_succ (List.mem_range.1 he), hstarts⟩

/-- No run starts where a group goes on. -/
lemma shifted_ne_starts (h : InOrder gs) {r : Run} (hr : r ∈ merge gs) {g : Group} (hg : g ∈ gs) :
    shifted g.starts ≠ r.starts := by
  intro heq
  obtain ⟨s, hs, e, he, hstarts⟩ := exists_window_of_mem hg
  rw [← hstarts] at heq
  have hbelow : below s.starts (e + 1) = r.starts := (below_below s.starts e 1).symm.trans heq
  obtain hlast | hlt := Nat.eq_or_lt_of_le he
  · -- the group is the last window of its run, which cannot go on
    obtain ⟨first, hfirst, hstarts'⟩ := exists_group_of_starts hr
    refine next_ne_of_mem_merge h hs hfirst ?_
    subst hlast
    exact hbelow.trans hstarts'.symm
  · -- it is followed by a window of its run, which is not the first one of a run
    rw [← below_zero r.starts] at hbelow
    obtain ⟨-, hzero⟩ := window_unique h hs hr hlt (Nat.zero_le _) hbelow
    exact Nat.succ_ne_zero e hzero

/-- Groups that follow one another line by line are windows of one run. -/
lemma exists_run_of_chain (h : InOrder gs) {starts : List Occurrence} {extension : Nat}
    (hchain : ∀ e ≤ extension, ∃ g ∈ gs, g.starts = below starts e) :
    ∃ r ∈ merge gs, ∃ d, below r.starts d = starts ∧ d + extension ≤ r.extension := by
  induction extension with
  | zero =>
    obtain ⟨g, hg, hstarts⟩ := hchain 0 (le_refl _)
    obtain ⟨r, hr, d, hd, hwindow⟩ := exists_window_of_mem hg
    rw [hstarts, below_zero] at hwindow
    exact ⟨r, hr, d, hwindow, hd⟩
  | succ extension ih =>
    obtain ⟨r, hr, d, hwindow, hd⟩ := ih fun e he => hchain e (Nat.le_succ_of_le he)
    obtain hlast | hlt := Nat.eq_or_lt_of_le hd
    · exfalso
      obtain ⟨g, hg, hstarts⟩ := hchain (extension + 1) (le_refl _)
      refine next_ne_of_mem_merge h hr hg ?_
      rw [hstarts, ← hwindow, below_below, ← Nat.add_assoc, hlast]
      rfl
    · exact ⟨r, hr, d, hwindow, hlt⟩

/-- The runs are the maximal chains of the groups. -/
lemma maximalChain_iff (h : InOrder gs) {starts : List Occurrence} {extension : Nat} :
    MaximalChain (fun places => ∃ g ∈ gs, g.starts = places) starts extension ↔
      ∃ r ∈ merge gs, r.starts = starts ∧ r.extension = extension := by
  constructor
  · intro hchain
    obtain ⟨r, hr, d, hwindow, hd⟩ := exists_run_of_chain h hchain.windows
    cases d with
    | succ d =>
      exfalso
      refine hchain.first (below r.starts d) (exists_group_of_window hr (by omega)) ?_
      rw [below_below, hwindow]
    | zero =>
      rw [below_zero] at hwindow
      subst hwindow
      rw [Nat.zero_add] at hd
      refine ⟨r, hr, rfl, ?_⟩
      obtain heq | hlt := Nat.eq_or_lt_of_le hd
      · exact heq.symm
      · exact absurd (exists_group_of_window hr hlt) hchain.last
  · rintro ⟨r, hr, rfl, rfl⟩
    constructor
    case windows => exact fun e he => exists_group_of_window hr he
    case first =>
      rintro others ⟨g, hg, rfl⟩
      exact shifted_ne_starts h hr hg
    case last =>
      rintro ⟨g, hg, hstarts⟩
      exact next_ne_of_mem_merge h hr hg hstarts.symm

/-- Groups that all lie in one chain make one run. -/
lemma merge_eq_singleton (h : InOrder gs) {starts : List Occurrence} {extension : Nat}
    (hall : ∀ places, (∃ g ∈ gs, g.starts = places) ↔ ∃ e ≤ extension, below starts e = places) :
    ∃ r, merge gs = [r] ∧ r.starts = starts ∧ r.extension = extension := by
  have hne : starts ≠ [] := by
    obtain ⟨g, hg, hstarts⟩ := (hall starts).2 ⟨0, Nat.zero_le _, below_zero _⟩
    exact hstarts ▸ h.some g hg
  have hchain : MaximalChain (fun places => ∃ g ∈ gs, g.starts = places) starts extension := by
    constructor
    case windows => exact fun e he => (hall _).2 ⟨e, he, rfl⟩
    case first =>
      intro others hothers heq
      obtain ⟨e, -, rfl⟩ := (hall others).1 hothers
      rw [below_below, ← below_zero starts, below_below, below_inj hne] at heq
      omega
    case last =>
      intro hlast
      obtain ⟨e, he, heq⟩ := (hall _).1 hlast
      rw [below_inj hne] at heq
      omega
  obtain ⟨r, hr, rfl, rfl⟩ := (maximalChain_iff h).1 hchain
  have hsame : ∀ s ∈ merge gs, s = r := by
    intro s hs
    obtain ⟨e, he, heq⟩ := (hall _).1 (exists_group_of_starts hs)
    rw [← below_zero s.starts] at heq
    exact (window_unique h hr hs he (Nat.zero_le _) heq).1.symm
  have hperm : (merge gs).Perm [r] := by
    refine (List.perm_ext_iff_of_nodup (starts_nodup h).of_map (List.nodup_singleton r)).2 fun s => ?_
    rw [List.mem_singleton]
    exact ⟨hsame s, fun e => e ▸ hr⟩
  exact ⟨r, List.perm_singleton.1 hperm, rfl, rfl⟩

end Run

end CodeAudit.Duplicate
