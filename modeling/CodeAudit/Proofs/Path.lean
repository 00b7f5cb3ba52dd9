import CodeAudit.Path
import CodeAudit.Proofs.List
/-!
# Paths that are the same

Equality by components is an equivalence, and of some items with paths the first of each class can
be kept: no two of the kept items have the same path, and an item is kept exactly if no item before
it has the same path.
-/
namespace CodeAudit.Path

/-- Two paths are the same exactly if they have the same components. -/
lemma same_iff {p q : Path} : p.same q = true ↔ p.components = q.components := by
  rw [same, beq_iff_eq]

/-- A path is the same as itself. -/
lemma same_refl (p : Path) : p.same p = true :=
  same_iff.2 rfl

/-- Being the same does not depend on the order of two paths. -/
lemma same_comm (p q : Path) : p.same q = q.same p := by
  rw [Bool.eq_iff_iff, same_iff, same_iff]
  exact eq_comm

/-- Paths that are the same as a third one are the same. -/
lemma same_trans {p q r : Path} (hpq : p.same q = true) (hqr : q.same r = true) :
    p.same r = true :=
  same_iff.2 ((same_iff.1 hpq).trans (same_iff.1 hqr))

/-- Paths that are not the same are not equal. -/
lemma ne_of_same_eq_false {p q : Path} (h : p.same q = false) : p ≠ q := by
  rintro rfl
  rw [same_refl] at h
  exact Bool.noConfusion h

section Firsts

variable {α : Type} (key : α → Path)

/-- Adds an item unless the path of one that is kept already is the same. -/
def keepNew (kept : List α) (item : α) : List α :=
  if kept.any fun other => (key item).same (key other) then kept else kept ++ [item]

/-- Keeps the first of each group of items whose paths are the same, in order. -/
def firsts (items : List α) : List α :=
  items.foldl (keepNew key) []

/-- The last of some items is kept unless one of the same path is. -/
lemma firsts_concat (items : List α) (item : α) :
    firsts key (items ++ [item]) = keepNew key (firsts key items) item := by
  rw [firsts, List.foldl_append]
  rfl

/-- Every item has the same path as one that is kept. -/
lemma exists_mem_firsts {items : List α} {item : α} (h : item ∈ items) :
    ∃ first ∈ firsts key items, (key item).same (key first) = true := by
  induction items using List.reverseRecOn with
  | nil => exact absurd h List.not_mem_nil
  | append_singleton front last ih =>
    rw [firsts_concat, keepNew]
    rw [List.mem_append, List.mem_singleton] at h
    split
    · next hany =>
      obtain h | rfl := h
      · exact ih h
      · exact List.any_eq_true.1 hany
    · obtain h | rfl := h
      · obtain ⟨first, hfirst, hsame⟩ := ih h
        exact ⟨first, List.mem_append_left _ hfirst, hsame⟩
      · exact ⟨item, List.mem_append_right _ (List.mem_singleton_self _), same_refl _⟩

/-- What is kept has been given. -/
lemma firsts_subset (items : List α) : firsts key items ⊆ items := by
  induction items using List.reverseRecOn with
  | nil => exact List.Subset.refl _
  | append_singleton front last ih =>
    rw [firsts_concat, keepNew]
    split
    · exact fun x hx => List.mem_append_left _ (ih hx)
    · exact List.append_subset.2 ⟨fun x hx => List.mem_append_left _ (ih hx),
        List.subset_append_right _ _⟩

/-- The kept items stand in the order in which they were given. -/
lemma firsts_sublist (items : List α) : (firsts key items).Sublist items := by
  induction items using List.reverseRecOn with
  | nil => exact List.Sublist.refl _
  | append_singleton front last ih =>
    rw [firsts_concat, keepNew]
    split
    · exact ih.trans (List.sublist_append_left _ _)
    · exact ih.append (List.Sublist.refl _)

/-- No two of the kept items have the same path. -/
lemma firsts_pairwise (items : List α) :
    (firsts key items).Pairwise fun a b => (key a).same (key b) = false := by
  induction items using List.reverseRecOn with
  | nil => exact List.Pairwise.nil
  | append_singleton front last ih =>
    rw [firsts_concat, keepNew]
    split
    · exact ih
    · next hany =>
      rw [Bool.not_eq_true, List.any_eq_false] at hany
      refine List.pairwise_append.2 ⟨ih, List.pairwise_singleton _ _, ?_⟩
      intro a ha b hb
      rw [List.mem_singleton] at hb
      subst hb
      rw [same_comm]
      exact Bool.eq_false_iff.2 (hany a ha)

/-- Items of which no two have the same path are all kept. -/
lemma firsts_eq_self {items : List α}
    (h : items.Pairwise fun a b => (key a).same (key b) = false) : firsts key items = items := by
  induction items using List.reverseRecOn with
  | nil => rfl
  | append_singleton front last ih =>
    obtain ⟨hfront, -, hlast⟩ := List.pairwise_append.1 h
    rw [firsts_concat, ih hfront, keepNew, if_neg]
    rw [Bool.not_eq_true, List.any_eq_false]
    intro other hother
    rw [same_comm, hlast other hother last (List.mem_singleton_self _)]
    exact Bool.false_ne_true

/-- What is kept stays when one more item comes. -/
lemma subset_keepNew (kept : List α) (item : α) : kept ⊆ keepNew key kept item := by
  rw [keepNew]
  split
  · exact List.Subset.refl _
  · exact List.subset_append_left _ _

/-- An item is kept exactly if it stands somewhere with no item of the same path before it. -/
lemma mem_firsts_iff {items : List α} {item : α} :
    item ∈ firsts key items ↔ ∃ before after, items = before ++ item :: after ∧
      ∀ other ∈ before, (key item).same (key other) = false := by
  induction items using List.reverseRecOn with
  | nil => simp [firsts]
  | append_singleton front last ih =>
    constructor
    · intro h
      by_cases hfront : item ∈ firsts key front
      · obtain ⟨before, after, rfl, hbefore⟩ := ih.1 hfront
        exact ⟨before, after ++ [last], by simp, hbefore⟩
      · rw [firsts_concat, keepNew] at h
        split at h
        · exact absurd h hfront
        · next hany =>
          rw [List.mem_append, List.mem_singleton] at h
          obtain rfl := h.resolve_left hfront
          refine ⟨front, [], rfl, fun other hother => Bool.eq_false_iff.2 fun hsame => hany ?_⟩
          obtain ⟨first, hfirst, hother'⟩ := exists_mem_firsts key hother
          exact List.any_eq_true.2 ⟨first, hfirst, same_trans hsame hother'⟩
    · rintro ⟨before, after, hsplit, hbefore⟩
      rw [firsts_concat]
      obtain rfl | ⟨after, other, rfl⟩ := after.eq_nil_or_concat
      · obtain ⟨rfl, rfl⟩ := List.append_singleton_inj.1 hsplit
        rw [keepNew, if_neg]
        · exact List.mem_append_right _ (List.mem_singleton_self _)
        · rw [Bool.not_eq_true, List.any_eq_false]
          exact fun first hfirst =>
            Bool.eq_false_iff.1 (hbefore first (firsts_subset key front hfirst))
      · rw [List.concat_eq_append, ← List.cons_append, ← List.append_assoc] at hsplit
        obtain ⟨rfl, rfl⟩ := List.append_singleton_inj.1 hsplit
        exact subset_keepNew key _ _ (ih.2 ⟨before, after, rfl, hbefore⟩)

/-- Of items that are matched with others of the same paths the matching ones are kept. -/
lemma firsts_forall₂ {β : Type} {key : α → Path} {key' : β → Path} {R : α → β → Prop}
    (hkey : ∀ a b, R a b → key a = key' b) {items : List α} {others : List β}
    (h : List.Forall₂ R items others) : List.Forall₂ R (firsts key items) (firsts key' others) := by
  have hany {kept : List α} {kept' : List β} (hkept : List.Forall₂ R kept kept') (p : Path) :
      (kept.any fun a => p.same (key a)) = kept'.any fun b => p.same (key' b) := by
    induction hkept with
    | nil => rfl
    | cons hab _ ih => rw [List.any_cons, List.any_cons, hkey _ _ hab, ih]
  have hloop : ∀ kept kept', List.Forall₂ R kept kept' →
      List.Forall₂ R (items.foldl (keepNew key) kept) (others.foldl (keepNew key') kept') := by
    induction h with
    | nil => exact fun _ _ hkept => hkept
    | cons hab _ ih =>
      intro kept kept' hkept
      apply ih
      rw [keepNew, keepNew, hkey _ _ hab, hany hkept]
      split
      · exact hkept
      · exact List.rel_append hkept (.cons hab .nil)
  exact hloop [] [] .nil

/-- Whether a path is the same as that of an item can be asked of the kept items. -/
lemma any_firsts (items : List α) (p : Path) :
    ((firsts key items).any fun item => p.same (key item))
      = items.any fun item => p.same (key item) := by
  rw [Bool.eq_iff_iff, List.any_eq_true, List.any_eq_true]
  constructor
  · rintro ⟨item, hitem, hsame⟩
    exact ⟨item, firsts_subset key items hitem, hsame⟩
  · rintro ⟨item, hitem, hsame⟩
    obtain ⟨first, hfirst, hfirst'⟩ := exists_mem_firsts key hitem
    exact ⟨first, hfirst, same_trans hsame hfirst'⟩

/-- An item that is kept is the first one with its path. -/
lemma exists_split_of_mem_firsts {items : List α} {item : α} (h : item ∈ firsts key items) :
    ∃ before after, items = before ++ item :: after ∧
      (items.findIdx fun other => (key other).same (key item)) = before.length := by
  obtain ⟨before, after, rfl, hbefore⟩ := (mem_firsts_iff key).1 h
  refine ⟨before, after, rfl, ?_⟩
  have hnone : ∀ other ∈ before, (key other).same (key item) = false := by
    intro other hother
    rw [same_comm]
    exact hbefore other hother
  rw [List.findIdx_append, List.findIdx_eq_length_of_false hnone, if_neg (lt_irrefl _),
    List.findIdx_cons, same_refl]
  exact Nat.zero_add _

/-- Of the items of one path, the one that is kept comes first. -/
lemma getElem?_findIdx_of_mem_firsts {items : List α} {item : α} (h : item ∈ firsts key items) :
    items[items.findIdx fun other => (key other).same (key item)]? = some item := by
  obtain ⟨before, after, hsplit, hindex⟩ := exists_split_of_mem_firsts key h
  rw [hindex, hsplit, List.getElem?_append_right (le_refl _), Nat.sub_self]
  rfl

/-- What is kept keeps its order. -/
lemma firsts_pairwise_findIdx (items : List α) :
    (firsts key items).Pairwise fun a b =>
      (items.findIdx fun other => (key other).same (key a))
        < items.findIdx fun other => (key other).same (key b) := by
  have hindex {front : List α} {a : α} (last : α) (ha : a ∈ firsts key front) :
      (front ++ [last]).findIdx (fun other => (key other).same (key a))
        = front.findIdx fun other => (key other).same (key a) := by
    obtain ⟨before, after, hsplit, hbefore⟩ := exists_split_of_mem_firsts key ha
    rw [List.findIdx_append, if_pos]
    rw [hbefore, hsplit]
    simp
  induction items using List.reverseRecOn with
  | nil => exact List.Pairwise.nil
  | append_singleton front last ih =>
    have hfront : (firsts key front).Pairwise fun a b =>
        (front ++ [last]).findIdx (fun other => (key other).same (key a))
          < (front ++ [last]).findIdx fun other => (key other).same (key b) := by
      apply ih.imp_of_mem
      intro a b ha hb hlt
      rwa [hindex last ha, hindex last hb]
    rw [firsts_concat, keepNew]
    split
    · exact hfront
    · next hnew =>
      refine List.pairwise_append.2 ⟨hfront, List.pairwise_singleton _ _, ?_⟩
      intro a ha b hb
      obtain rfl := List.mem_singleton.1 hb
      -- the last item has a path of its own, so no item before it is found in its place
      have hnone : ∀ other ∈ front, (key other).same (key b) = false := by
        rw [any_firsts key front (key b), Bool.not_eq_true, List.any_eq_false] at hnew
        intro other hother
        rw [same_comm]
        exact Bool.eq_false_iff.2 (hnew other hother)
      obtain ⟨before, after, hsplit, hbefore⟩ := exists_split_of_mem_firsts key ha
      rw [hindex b ha, hbefore, List.findIdx_append, List.findIdx_eq_length_of_false hnone,
        if_neg (lt_irrefl _), hsplit, List.length_append, List.length_cons]
      omega

end Firsts

/-- The different ones of some paths. -/
lemma distinct_eq_firsts (paths : List Path) : distinct paths = firsts id paths :=
  rfl

/-- Different paths are all kept. -/
lemma distinct_distinct (paths : List Path) : distinct (distinct paths) = distinct paths :=
  firsts_eq_self id (firsts_pairwise id paths)

/-- Items that are counted for each of some different paths are counted once. -/
lemma sum_countP_same {α : Type} (key : α → Path) {paths : List Path}
    (hpaths : paths.Pairwise fun p q => p.same q = false) (items : List α) :
    (paths.map fun p => items.countP fun a => (key a).same p).sum
      = items.countP fun a => paths.any (key a).same := by
  induction paths with
  | nil => simp
  | cons p rest ih =>
    obtain ⟨hp, hrest⟩ := List.pairwise_cons.1 hpaths
    simp only [List.map_cons, List.sum_cons, List.any_cons, ih hrest]
    rw [countP_or_of_disjoint items]
    intro a _ hsame
    rw [List.any_eq_false]
    intro q hq hsame'
    have hpq : p.same q = true := same_trans ((same_comm p (key a)).trans hsame) hsame'
    rw [hp q hq] at hpq
    exact Bool.false_ne_true hpq

/-- A path that is the same as one of some different paths is the same as one of them only. -/
lemma countP_same {p : Path} {paths : List Path}
    (hpaths : paths.Pairwise fun p q => p.same q = false) (h : paths.any p.same = true) :
    paths.countP p.same = 1 := by
  induction paths with
  | nil => exact absurd h Bool.false_ne_true
  | cons q rest ih =>
    obtain ⟨hq, hrest⟩ := List.pairwise_cons.1 hpaths
    rw [List.any_cons, Bool.or_eq_true] at h
    by_cases hsame : p.same q = true
    · have hnone : rest.countP p.same = 0 := by
        rw [List.countP_eq_zero]
        intro r hr hsame'
        have hqr : q.same r = true := same_trans ((same_comm q p).trans hsame) hsame'
        rw [hq r hr] at hqr
        exact Bool.false_ne_true hqr
      rw [List.countP_cons_of_pos hsame, hnone]
    · rw [List.countP_cons_of_neg hsame, ih hrest (h.resolve_left hsame)]

/-- There are two different ones of some paths exactly if two of them are not the same. -/
lemma two_le_length_distinct_iff {paths : List Path} :
    2 ≤ (distinct paths).length ↔ ∃ p ∈ paths, ∃ q ∈ paths, p.same q = false := by
  rw [distinct_eq_firsts]
  constructor
  · intro h
    have hpairs := List.pairwise_iff_getElem.1 (firsts_pairwise id paths)
    refine ⟨(firsts id paths)[0], ?_, (firsts id paths)[1], ?_, hpairs 0 1 _ _ Nat.zero_lt_one⟩
    · exact firsts_subset id paths (List.getElem_mem _)
    · exact firsts_subset id paths (List.getElem_mem _)
  · rintro ⟨p, hp, q, hq, hne⟩
    obtain ⟨p', hp', hpp' : p.same p' = true⟩ := exists_mem_firsts id hp
    obtain ⟨q', hq', hqq' : q.same q' = true⟩ := exists_mem_firsts id hq
    apply two_le_length_of_ne hp' hq'
    rintro rfl
    rw [same_comm] at hqq'
    rw [same_trans hpp' hqq'] at hne
    exact Bool.noConfusion hne

/-- Where there are paths, there is a first one of them. -/
lemma length_distinct_pos {paths : List Path} (h : paths ≠ []) : 0 < (distinct paths).length := by
  obtain ⟨p, hp⟩ := List.exists_mem_of_ne_nil paths h
  obtain ⟨first, hfirst, -⟩ := exists_mem_firsts id hp
  exact List.length_pos_of_mem hfirst

end CodeAudit.Path
