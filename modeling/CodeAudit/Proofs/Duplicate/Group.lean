import CodeAudit.Proofs.Duplicate.Window
/-!
# Groups share out the windows

Every window that is looked at belongs to exactly one group, that of its hash, and a group lists the
places of its windows once each and in order.
-/
namespace CodeAudit.Duplicate

/-- The places of the windows with a hash. -/
def placesOf (windows : List (String × Occurrence)) (hash : String) : List Occurrence :=
  (windows.filter fun w => w.1 == hash).map Prod.snd

/-- A place belongs to a hash exactly if its window has that hash. -/
lemma mem_placesOf {windows : List (String × Occurrence)} {hash : String} {o : Occurrence} :
    o ∈ placesOf windows hash ↔ (hash, o) ∈ windows := by
  simp [placesOf]

/-- The places of a hash, one window at a time. -/
lemma placesOf_cons (first hash : String) (o : Occurrence) (rest : List (String × Occurrence)) :
    placesOf ((first, o) :: rest) hash
      = if first = hash then o :: placesOf rest hash else placesOf rest hash := by
  by_cases h : first = hash <;> simp [placesOf, h]

/-- Gathering lists, under every hash that occurs, the places of the windows with that hash. -/
lemma gather_getElem? (windows : List (String × Occurrence)) (hash : String) :
    (gather windows)[hash]?
      = if placesOf windows hash = [] then none else some (placesOf windows hash) := by
  induction windows generalizing hash with
  | nil => simp [gather, placesOf]
  | cons w rest ih =>
    obtain ⟨first, o⟩ := w
    have hcons : gather ((first, o) :: rest)
        = (gather rest).insert first (o :: (gather rest).getD first []) := rfl
    rw [hcons, Std.HashMap.getElem?_insert, placesOf_cons]
    by_cases h : first = hash
    · subst h
      rw [Std.HashMap.getD_eq_getD_getElem?, ih]
      by_cases hp : placesOf rest first = [] <;> simp [hp]
    · rw [if_neg (by simpa using h), if_neg h, ih]

variable {files : List SourceText} {size : Nat}

/-- A group has exactly the places of the windows with its hash, and there is one. -/
lemma mem_groups_iff {g : Group} :
    g ∈ groups files size ↔
      g.starts = placesOf (hashedWindows files size) g.hash ∧ g.starts ≠ [] := by
  have hmem : g ∈ groups files size
      ↔ (g.hash, g.starts) ∈ (gather (hashedWindows files size)).toList := by
    rw [groups, List.mem_map]
    constructor
    · rintro ⟨⟨hash, starts⟩, hin, rfl⟩
      exact hin
    · exact fun hin => ⟨(g.hash, g.starts), hin, rfl⟩
  rw [hmem, Std.HashMap.mem_toList_iff_getElem?_eq_some, gather_getElem?]
  split
  · next hnil =>
    rw [hnil]
    exact ⟨nofun, fun ⟨h, hne⟩ => absurd h hne⟩
  · next hne =>
    rw [Option.some_inj]
    constructor
    · exact fun h => ⟨h.symm, h ▸ hne⟩
    · exact fun h => h.1.symm

/-- No two groups have one hash. -/
lemma groups_hash_nodup : ((groups files size).map Group.hash).Nodup := by
  rw [groups, List.map_map, List.Nodup, List.pairwise_map]
  exact Std.HashMap.distinct_keys_toList.imp fun h => beq_eq_false_iff_ne.1 h

/-- The windows that are looked at, with their hashes. -/
lemma mem_hashedWindows {hash : String} {o : Occurrence} :
    (hash, o) ∈ hashedWindows files size ↔
      ∃ f, files[o.file]? = some f ∧ f.HasWindow size o.start ∧ f.hashAt size o.start = hash := by
  simp only [hashedWindows, List.mem_flatMap, Prod.exists, List.mem_map]
  constructor
  · rintro ⟨f, index, hf, start, hstart, e⟩
    obtain ⟨rfl, rfl⟩ := Prod.mk.inj e
    exact ⟨f, List.mk_mem_zipIdx_iff_getElem?.1 hf, mem_scannedStarts.1 hstart, rfl⟩
  · rintro ⟨f, hf, hwindow, rfl⟩
    exact ⟨f, o.file, List.mk_mem_zipIdx_iff_getElem?.2 hf, o.start,
      mem_scannedStarts.2 hwindow, rfl⟩

/-- No place is looked at twice. -/
lemma hashedWindows_nodup (files : List SourceText) (size : Nat) :
    ((hashedWindows files size).map Prod.snd).Nodup := by
  rw [hashedWindows, List.map_flatMap, List.nodup_flatMap]
  constructor
  · rintro ⟨f, index⟩ -
    rw [List.map_map]
    refine (scannedStarts_nodup _ size).map fun s t e => ?_
    exact (Occurrence.mk.inj e).2
  · have hindex : (files.zipIdx.map Prod.snd).Nodup := by
      rw [List.zipIdx_map_snd]
      exact List.nodup_range'
    refine (List.pairwise_map.1 hindex).imp ?_
    rintro ⟨f, i⟩ ⟨g, j⟩ hij o hof hog
    simp only [List.map_map, List.mem_map, Function.comp_apply] at hof hog
    obtain ⟨s, -, rfl⟩ := hof
    obtain ⟨t, -, e⟩ := hog
    exact hij (Occurrence.mk.inj e).1.symm

/-- A place stands before those in later files and those further down in its own. -/
lemma Occurrence.before_iff {o p : Occurrence} :
    o.before p = true ↔ o.file < p.file ∨ o.file = p.file ∧ o.start < p.start := by
  simp [before]

/-- The windows are looked at in the order of their places. -/
lemma hashedWindows_pairwise (files : List SourceText) (size : Nat) :
    ((hashedWindows files size).map Prod.snd).Pairwise fun o p => o.before p = true := by
  rw [hashedWindows, List.map_flatMap, List.pairwise_flatMap]
  constructor
  · rintro ⟨f, index⟩ -
    rw [List.map_map, List.pairwise_map]
    refine (scannedStarts_pairwise _ size).imp fun {s t} hlt => ?_
    exact Occurrence.before_iff.2 (Or.inr ⟨rfl, hlt⟩)
  · have hindex : (files.zipIdx.map Prod.snd).Pairwise (· < ·) := by
      rw [List.zipIdx_map_snd]
      exact List.pairwise_lt_range'
    refine (List.pairwise_map.1 hindex).imp ?_
    rintro ⟨f, i⟩ ⟨g, j⟩ hij o ho p hp
    simp only [List.map_map, List.mem_map, Function.comp_apply] at ho hp
    obtain ⟨s, -, rfl⟩ := ho
    obtain ⟨t, -, rfl⟩ := hp
    exact Occurrence.before_iff.2 (Or.inl hij)

/-- The places of a group stand in their order. -/
lemma starts_pairwise_of_mem_groups {g : Group} (hg : g ∈ groups files size) :
    g.starts.Pairwise fun o p => o.before p = true := by
  rw [(mem_groups_iff.1 hg).1]
  exact (hashedWindows_pairwise files size).sublist (List.filter_sublist.map _)

/-- The places of one hash are listed once each. -/
lemma placesOf_nodup (hash : String) : (placesOf (hashedWindows files size) hash).Nodup :=
  (hashedWindows_nodup files size).sublist (List.filter_sublist.map _)

/-- No two groups share a place. -/
lemma groups_starts_nodup : ((groups files size).flatMap Group.starts).Nodup := by
  rw [List.nodup_flatMap]
  constructor
  · intro g hg
    rw [(mem_groups_iff.1 hg).1]
    exact placesOf_nodup g.hash
  · refine (List.pairwise_map.1 groups_hash_nodup).imp_of_mem fun {g h} hg hh hne o hog hoh => hne ?_
    rw [(mem_groups_iff.1 hg).1, mem_placesOf, mem_hashedWindows] at hog
    rw [(mem_groups_iff.1 hh).1, mem_placesOf, mem_hashedWindows] at hoh
    obtain ⟨f, hf, -, hfg⟩ := hog
    obtain ⟨f', hf', -, hfh⟩ := hoh
    obtain rfl : f = f' := Option.some.inj (hf.symm.trans hf')
    exact hfg.symm.trans hfh

/-- Two different items are left of some exactly if there were two. -/
lemma two_le_length_eraseDups_iff {items : List Nat} :
    2 ≤ items.eraseDups.length ↔ ∃ m ∈ items, ∃ n ∈ items, m ≠ n := by
  constructor
  · intro h
    cases items with
    | nil => simp at h
    | cons m rest =>
      rw [List.eraseDups_cons, List.length_cons] at h
      obtain ⟨n, hn⟩ := List.exists_mem_of_length_pos (Nat.succ_le_succ_iff.1 h)
      rw [List.mem_eraseDups, List.mem_filter, Bool.not_eq_true', beq_eq_false_iff_ne] at hn
      exact ⟨m, List.mem_cons_self, n, List.mem_cons_of_mem _ hn.1, hn.2.symm⟩
  · rintro ⟨m, hm, n, hn, hne⟩
    rw [← List.mem_eraseDups] at hm hn
    exact two_le_length_of_ne hm hn hne

/-- A group occurs in two files exactly if two of its places are in different files. -/
lemma two_le_fileCount_iff {g : Group} :
    2 ≤ g.fileCount ↔ ∃ o ∈ g.starts, ∃ p ∈ g.starts, o.file ≠ p.file := by
  rw [Group.fileCount, two_le_length_eraseDups_iff]
  simp only [List.mem_map, exists_exists_and_eq_and]

namespace Group

/-- A group stands before those whose first place does not come before its own. -/
lemma le_iff {g h : Group} :
    g.le h = true ↔ ∀ o ∈ g.starts.head?, ∃ p ∈ h.starts.head?, p.before o = false := by
  rw [le]
  cases g.starts with
  | nil => simp
  | cons o os =>
    cases h.starts with
    | nil => simp
    | cons p ps => simp

/-- Of two groups one is before the other or has its place. -/
lemma le_total (g h : Group) : (g.le h || h.le g) = true := by
  rw [Bool.or_eq_true, le_iff, le_iff]
  cases g.starts with
  | nil => exact Or.inl fun o ho => absurd ho (Option.not_mem_none o)
  | cons o os =>
    cases h.starts with
    | nil => exact Or.inr fun p hp => absurd hp (Option.not_mem_none p)
    | cons p ps =>
      simp only [List.head?_cons, Option.mem_some_iff, forall_eq', exists_eq_left',
        ← Bool.not_eq_true, Occurrence.before_iff]
      omega

/-- The order of groups is transitive. -/
lemma le_trans (g h k : Group) (hgh : g.le h = true) (hhk : h.le k = true) : g.le k = true := by
  rw [le_iff] at hgh hhk ⊢
  intro o ho
  obtain ⟨p, hp, hpo⟩ := hgh o ho
  obtain ⟨q, hq, hqp⟩ := hhk p hp
  refine ⟨q, hq, ?_⟩
  rw [← Bool.not_eq_true, Occurrence.before_iff] at hpo hqp ⊢
  omega

end Group

end CodeAudit.Duplicate
