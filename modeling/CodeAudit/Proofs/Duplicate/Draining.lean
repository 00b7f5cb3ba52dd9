import CodeAudit.Proofs.Duplicate.Reports
/-!
# The order of the table does not count

The groups come out of a hash table in no particular order and are sorted by their places. No two of
them share a place, so their first places differ and the order of the groups is strict: however the
table is drained, and whatever sorts the groups, they end up in one order. Merging keeps it, so the
blocks come out in the order of their first locations.
-/
namespace CodeAudit.Duplicate

/-- The order of groups by all of their places, the first difference counting. -/
def Group.Before (g h : Group) : Prop :=
  List.Lex (fun o p => o.before p = true) g.starts h.starts

/-- The order of locations: by the position of the file in the list, then by line. -/
def Location.Before (files : List SourceText) (l m : Location) : Prop :=
  l.fileNumber files < m.fileNumber files
    ∨ l.fileNumber files = m.fileNumber files ∧ l.startLine < m.startLine

/-- The order of blocks: by their first locations. -/
def Block.Before (files : List SourceText) (a b : Block) : Prop :=
  ∃ l ∈ a.locations.head?, ∃ m ∈ b.locations.head?, l.Before files m

/-- The groups that a pass keeps, in some order in which the table may be drained. -/
def Drained (files : List SourceText) (size : Nat) (keep : Group → Bool) (gs : List Group) : Prop :=
  gs.Perm ((groups files size).filter keep)

/-- The groups that the search within a file keeps, in some order. -/
def DrainedWithin (f : SourceText) (size : Nat) (gs : List Group) : Prop :=
  Drained [f] size (fun g => 2 ≤ g.starts.length) gs

/-- The groups that the search across files keeps, in some order. -/
def DrainedAcross (files : List SourceText) (size : Nat) (gs : List Group) : Prop :=
  Drained (distinctFiles files) size (fun g => 2 ≤ g.fileCount) gs

/-- Blocks that come of the groups in whatever order these are drained, and stand in the order of their
first locations in the files that are listed. -/
structure Reproducible (listed files : List SourceText) (size : Nat) (keep : Group → Bool)
    (blocks : List Block) : Prop where
  drained : ∀ gs, Drained files size keep gs → blocksOf files size gs = blocks
  /-- Any way to sort the groups by all of their places will do. -/
  sorted : ∀ gs, Drained files size keep gs → gs.Pairwise (fun g h => ¬ h.Before g) →
    (Run.merge gs).map (Run.toBlock files size) = blocks
  ordered : blocks.Pairwise (Block.Before listed)

section Groups

variable {files : List SourceText} {size : Nat} {keep : Group → Bool} {g h : Group}
  {gs : List Group}

/-- Only groups are drained. -/
lemma Drained.mem_groups (hgs : Drained files size keep gs) (hg : g ∈ gs) :
    g ∈ groups files size :=
  List.mem_of_mem_filter (hgs.mem_iff.1 hg)

/-- A group that no place of another one comes before stands before it. -/
lemma Group.le_of_not_before (hbefore : ¬ h.Before g) : g.le h = true := by
  rw [Group.Before] at hbefore
  rw [le_iff]
  intro o ho
  cases hg : g.starts with
  | nil =>
    rw [hg] at ho
    exact absurd ho (Option.not_mem_none o)
  | cons first rest =>
    rw [hg] at hbefore ho
    obtain rfl := Option.some.inj ho
    cases hh : h.starts with
    | nil =>
      rw [hh] at hbefore
      exact absurd .nil hbefore
    | cons p ps =>
      rw [hh] at hbefore
      refine ⟨p, rfl, ?_⟩
      rw [← Bool.not_eq_true]
      exact fun hlt => hbefore (.rel hlt)

/-- Groups that share a place are one group. -/
lemma eq_of_mem_starts (hg : g ∈ groups files size) (hh : h ∈ groups files size) {o : Occurrence}
    (hog : o ∈ g.starts) (hoh : o ∈ h.starts) : g = h := by
  obtain ⟨f, hf, -, hhash⟩ := hasWindow_of_mem_starts hg hog
  obtain ⟨f', hf', -, hhash'⟩ := hasWindow_of_mem_starts hh hoh
  obtain rfl : f = f' := Option.some.inj (hf.symm.trans hf')
  exact List.inj_on_of_nodup_map groups_hash_nodup hg hh (hhash.symm.trans hhash')

/-- A group has a first start. -/
lemma exists_first (hg : g ∈ groups files size) :
    ∃ o, g.starts.head? = some o ∧ o ∈ g.starts := by
  obtain ⟨o, rest, hstarts⟩ := List.exists_cons_of_ne_nil (mem_groups_iff.1 hg).2
  rw [hstarts]
  exact ⟨o, rfl, List.mem_cons_self⟩

/-- The groups are told apart by their first places. -/
lemma first_before (hg : g ∈ groups files size) (hh : h ∈ groups files size) (hne : g ≠ h)
    (hle : g.le h = true) :
    ∃ o ∈ g.starts.head?, ∃ p ∈ h.starts.head?, o.before p = true := by
  obtain ⟨o, ho, hog⟩ := exists_first hg
  obtain ⟨p, hp, hbefore⟩ := Group.le_iff.1 hle o ho
  refine ⟨o, ho, p, hp, ?_⟩
  -- two groups share no place, so the first places are not equal and the order is strict
  have hop : o ≠ p := by
    rintro rfl
    exact hne (eq_of_mem_starts hg hh hog (List.mem_of_mem_head? hp))
  rw [← Bool.not_eq_true, Occurrence.before_iff] at hbefore
  rw [Occurrence.before_iff]
  rw [ne_eq, Occurrence.mk.injEq] at hop
  omega

/-- No two groups are each before the other. -/
lemma eq_of_le_of_le (hg : g ∈ groups files size) (hh : h ∈ groups files size)
    (hgh : g.le h = true) (hhg : h.le g = true) : g = h := by
  by_contra hne
  obtain ⟨o, ho, p, hp, hop⟩ := first_before hg hh hne hgh
  obtain ⟨q, hq, hbefore⟩ := Group.le_iff.1 hhg p hp
  obtain rfl := Option.some.inj (ho.symm.trans hq)
  exact Bool.noConfusion (hop.symm.trans hbefore)

/-- There is one way to sort the groups that are kept. -/
lemma Drained.eq_mergeSort (hgs : Drained files size keep gs)
    (hsorted : gs.Pairwise fun g h => g.le h = true) :
    gs = ((groups files size).filter keep).mergeSort Group.le := by
  have hkept : (((groups files size).filter keep).mergeSort Group.le).Pairwise
      fun g h => g.le h = true := List.pairwise_mergeSort Group.le_trans Group.le_total _
  -- both are sorted, and the order has no ties
  refine List.Perm.eq_of_pairwise ?_ hsorted hkept
    (hgs.trans (List.mergeSort_perm _ _).symm)
  intro g h hg hh
  rw [List.mem_mergeSort] at hh
  exact eq_of_le_of_le (hgs.mem_groups hg) (List.mem_of_mem_filter hh)

/-- In order, each group has its first start before those of the groups after it. -/
lemma first_before_mergeSort :
    (((groups files size).filter keep).mergeSort Group.le).Pairwise fun g h =>
      ∃ o ∈ g.starts.head?, ∃ p ∈ h.starts.head?, o.before p = true := by
  have hdifferent : (((groups files size).filter keep).mergeSort Group.le).Pairwise (· ≠ ·) := by
    rw [← List.Nodup, (List.mergeSort_perm _ _).nodup_iff]
    exact groups_hash_nodup.of_map.filter _
  have hmem {g : Group} (hg : g ∈ ((groups files size).filter keep).mergeSort Group.le) :
      g ∈ groups files size := by
    rw [List.mem_mergeSort] at hg
    exact List.mem_of_mem_filter hg
  refine ((List.pairwise_mergeSort Group.le_trans Group.le_total _).and hdifferent).imp_of_mem ?_
  rintro g h hg hh ⟨hle, hne⟩
  exact first_before (hmem hg) (hmem hh) hne hle

end Groups

section Runs

/-- A group that is added continues a run or starts one, and moves the start of none. -/
lemma Merging.map_starts_add (m : Merging) (g : Group) :
    (m.add g).runs.toList.map Run.starts = m.runs.toList.map Run.starts ∨
      (m.add g).runs.toList.map Run.starts = m.runs.toList.map Run.starts ++ [g.starts] := by
  rw [add]
  split
  · next i _ =>
    -- the run that is continued keeps its starts and is extended only
    left
    dsimp only
    rw [Array.toList_modify]
    apply List.ext_getElem?
    intro j
    rw [List.getElem?_map, List.getElem?_map, List.getElem?_modify]
    cases m.runs.toList[j]? with
    | none => rfl
    | some r =>
      show some (Run.starts (if i = j then r.extend else r)) = some r.starts
      split <;> rfl
  · right
    dsimp only
    rw [Array.toList_push, List.map_append]
    rfl

/-- The runs start at the places of groups, in the order of the groups. -/
lemma Run.map_starts_merge_sublist (gs : List Group) :
    ((merge gs).map starts).Sublist (gs.map Group.starts) := by
  rw [merge]
  induction gs using List.reverseRecOn with
  | nil => exact List.Sublist.refl _
  | append_singleton front g ih =>
    rw [List.foldl_append, List.map_append]
    show (((front.foldl Merging.add {}).add g).runs.toList.map starts).Sublist _
    obtain h | h := (front.foldl Merging.add {}).map_starts_add g
    · rw [h]
      exact ih.trans (List.sublist_append_left _ _)
    · rw [h]
      exact ih.append (List.Sublist.refl _)

variable {listed files : List SourceText} {size : Nat} {keep : Group → Bool}

/-- In order, each run has its first start before those of the runs after it. -/
lemma runsOf_ordered :
    (runsOf files size keep).Pairwise fun r s =>
      ∃ o ∈ r.starts.head?, ∃ p ∈ s.starts.head?, o.before p = true := by
  have hstarts : ((runsOf files size keep).map Run.starts).Pairwise fun places others =>
      ∃ o ∈ places.head?, ∃ p ∈ others.head?, o.before p = true := by
    refine List.Pairwise.sublist (Run.map_starts_merge_sublist _) ?_
    exact List.pairwise_map.2 first_before_mergeSort
  exact List.pairwise_map.1 hstarts

/-- In order, each block comes before those after it. -/
lemma detect_ordered :
    (detect (distinctFiles listed) size keep).Pairwise (Block.Before listed) := by
  obtain rfl | hsize := Nat.eq_zero_or_pos size
  · exact List.Pairwise.nil
  rw [detect_eq_map_runsOf hsize, List.pairwise_map]
  refine runsOf_ordered.imp_of_mem ?_
  rintro r s hr hs ⟨o, ho, p, hp, hbefore⟩
  obtain ⟨f, hf⟩ := getElem?_file_of_mem_starts hr (List.mem_of_mem_head? ho)
  obtain ⟨g, hg⟩ := getElem?_file_of_mem_starts hs (List.mem_of_mem_head? hp)
  have hfirst {r : Run} {o : Occurrence} (ho : o ∈ r.starts.head?) :
      r.locationAt (distinctFiles listed) size o
        ∈ (r.toBlock (distinctFiles listed) size).locations.head? := by
    rw [Run.locations_toBlock, List.head?_map, Option.mem_def, ho]
    rfl
  exact ⟨_, hfirst ho, _, hfirst hp, locationAt_ordered hf hg hbefore⟩

/-- No window of no lines is looked at, so there is nothing to keep. -/
lemma groups_zero (files : List SourceText) : groups files 0 = [] := by
  rw [List.eq_nil_iff_forall_not_mem]
  intro g hg
  obtain ⟨o, -, ho⟩ := exists_first hg
  obtain ⟨f, -, hwindow, -⟩ := hasWindow_of_mem_starts hg ho
  obtain ⟨line, hline, -⟩ := hwindow.notBlank
  exact List.not_mem_nil hline

/-- The blocks are those of the groups that are kept. -/
lemma detect_eq_blocksOf :
    detect files size keep = blocksOf files size ((groups files size).filter keep) := by
  obtain rfl | hsize := Nat.eq_zero_or_pos size
  · rw [groups_zero, List.filter_nil, blocksOf, List.mergeSort_nil]
    rfl
  · exact if_neg (Nat.one_le_iff_ne_zero.1 hsize)

/-- In whatever order the groups are drained, the blocks are the same. -/
lemma Drained.blocksOf_eq (hgs : Drained files size keep gs) :
    blocksOf files size gs = blocksOf files size ((groups files size).filter keep) := by
  have hsort : Drained files size keep (gs.mergeSort Group.le) :=
    (List.mergeSort_perm _ _).trans hgs
  rw [blocksOf, blocksOf,
    hsort.eq_mergeSort (List.pairwise_mergeSort Group.le_trans Group.le_total _)]

/-- However the groups are drained and sorted, the blocks are those that are detected. -/
lemma reproducible_detect :
    Reproducible listed (distinctFiles listed) size keep
      (detect (distinctFiles listed) size keep) := by
  constructor
  case drained =>
    intro gs hgs
    rw [detect_eq_blocksOf, hgs.blocksOf_eq]
  case sorted =>
    intro gs hgs hsorted
    rw [detect_eq_blocksOf, blocksOf, ← hgs.eq_mergeSort (hsorted.imp Group.le_of_not_before)]
  case ordered => exact detect_ordered

/-- What is found within a file can be reproduced. -/
lemma reproducible_withinFile (f : SourceText) (size : Nat) :
    Reproducible [f] [f] size (fun g => 2 ≤ g.starts.length) (withinFile f size) :=
  reproducible_detect

/-- What is found across files can be reproduced. -/
lemma reproducible_acrossFiles (files : List SourceText) (size : Nat) :
    Reproducible files (distinctFiles files) size (fun g => 2 ≤ g.fileCount)
      (acrossFiles files size) :=
  reproducible_detect

end Runs

end CodeAudit.Duplicate
