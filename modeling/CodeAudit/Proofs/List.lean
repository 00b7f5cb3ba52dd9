import Mathlib
/-!
# Lists

A few facts about lists in general.
-/
namespace CodeAudit

variable {α : Type}

/-- A list with two different items has two items at least. -/
lemma two_le_length_of_ne {items : List α} {a b : α} (ha : a ∈ items) (hb : b ∈ items)
    (hne : a ≠ b) : 2 ≤ items.length := by
  have hsub : [a, b] ⊆ items := by
    simp [ha, hb]
  have hnodup : [a, b].Nodup := by
    simp [hne]
  exact (hnodup.subperm hsub).length_le

/-- Every item passes a test or does not. -/
lemma length_eq_countP_add_countP_not (p : α → Bool) (items : List α) :
    items.length = items.countP p + items.countP (!p ·) := by
  rw [List.length_eq_countP_add_countP p]
  simp only [Bool.not_eq_true, Bool.decide_eq_false]

/-- Items that pass one of two tests, no item both, can be counted apart. -/
lemma countP_or_of_disjoint {p q : α → Bool} (items : List α)
    (h : ∀ a ∈ items, p a = true → q a = false) :
    (items.countP fun a => p a || q a) = items.countP p + items.countP q := by
  induction items with
  | nil => rfl
  | cons a rest ih =>
    obtain ⟨ha, hrest⟩ := List.forall_mem_cons.1 h
    rw [List.countP_cons, List.countP_cons, List.countP_cons, ih hrest]
    cases hp : p a with
    | true =>
      rw [ha hp]
      simp only [Bool.or_false, if_true, Bool.false_eq_true, if_false]
      omega
    | false =>
      simp only [Bool.false_or, Bool.false_eq_true, if_false]
      omega

/-- An item is put at the end of the different items of a list unless it is among them. -/
lemma eraseDups_concat [DecidableEq α] (items : List α) (item : α) :
    (items ++ [item]).eraseDups
      = if item ∈ items.eraseDups then items.eraseDups else items.eraseDups ++ [item] := by
  rw [List.eraseDups_append]
  by_cases hitem : item ∈ items
  · have hnone : [item].removeAll items = [] :=
      List.filter_cons_of_neg (by simp [hitem])
    rw [if_pos (List.mem_eraseDups.2 hitem), hnone]
    exact List.append_nil _
  · have hone : [item].removeAll items = [item] :=
      List.filter_cons_of_pos (by simp [hitem])
    rw [if_neg (mt List.mem_eraseDups.1 hitem), hone]
    rfl

/-- An item that is not in the second part of a list stands in the first. -/
lemma exists_eq_append_cons_of_not_mem_right {front back before after : List α} {a : α}
    (h : front ++ back = before ++ a :: after) (ha : a ∉ back) :
    ∃ rest, front = before ++ a :: rest ∧ after = rest ++ back := by
  obtain ⟨rest, -, hback⟩ | ⟨rest, hfront, hafter⟩ := List.append_eq_append_iff.1 h
  · exact absurd (hback ▸ List.mem_append_cons_self) ha
  · cases rest with
    | nil =>
      rw [List.nil_append] at hafter
      exact absurd (hafter ▸ List.mem_cons_self) ha
    | cons b rest =>
      obtain ⟨rfl, hrest⟩ := List.cons.inj hafter
      exact ⟨rest, hfront, hrest⟩

/-- An item that is not in the first part of a list stands in the second. -/
lemma exists_eq_append_cons_of_not_mem_left {front back before after : List α} {a : α}
    (h : front ++ back = before ++ a :: after) (ha : a ∉ front) :
    ∃ rest, before = front ++ rest ∧ back = rest ++ a :: after := by
  obtain ⟨rest, hbefore, hback⟩ | ⟨rest, hfront, hafter⟩ := List.append_eq_append_iff.1 h
  · exact ⟨rest, hbefore, hback⟩
  · cases rest with
    | nil => exact ⟨[], hfront ▸ by simp, hafter.symm⟩
    | cons b rest =>
      obtain ⟨rfl, -⟩ := List.cons.inj hafter
      exact absurd (hfront ▸ List.mem_append_cons_self) ha

/-- One item for each that passes a test. -/
lemma flatMap_ite_singleton {β : Type} (p : α → Bool) (f : α → β) (items : List α) :
    (items.flatMap fun a => if p a then [f a] else []) = (items.filter p).map f := by
  induction items with
  | nil => rfl
  | cons a rest ih =>
    rw [List.flatMap_cons, ih, List.filter_cons]
    split <;> rfl

/-- A list that matches two parts of another one item by item comes in two parts itself. -/
lemma exists_append_of_forall₂ {β : Type} {R : α → β → Prop} {front back : List α} {items : List β}
    (h : List.Forall₂ R (front ++ back) items) :
    ∃ front' back', items = front' ++ back' ∧ List.Forall₂ R front front' ∧
      List.Forall₂ R back back' := by
  induction front generalizing items with
  | nil => exact ⟨[], items, rfl, .nil, h⟩
  | cons a rest ih =>
    cases h with
    | @cons _ b _ items hhead hrest =>
      obtain ⟨front', back', rfl, hfront, hback⟩ := ih hrest
      exact ⟨b :: front', back', rfl, .cons hhead hfront, hback⟩

/-- Of two lists that match item by item, every item of the second one has its match in the first. -/
lemma exists_mem_of_forall₂ {β : Type} {R : α → β → Prop} {items : List α} {others : List β}
    (h : List.Forall₂ R items others) {b : β} (hb : b ∈ others) : ∃ a ∈ items, R a b := by
  induction h with
  | nil => cases hb
  | @cons a c rest others hac _ ih =>
    cases hb with
    | head => exact ⟨a, List.mem_cons_self, hac⟩
    | tail _ hb =>
      obtain ⟨a', ha', hab⟩ := ih hb
      exact ⟨a', List.mem_cons_of_mem a ha', hab⟩

/-- Every item of a list can be matched with one of another list. -/
lemma exists_forall₂ {β : Type} {R : α → β → Prop} {items : List α} {others : List β}
    (h : ∀ a ∈ items, ∃ b ∈ others, R a b) :
    ∃ matched, matched ⊆ others ∧ List.Forall₂ R items matched := by
  induction items with
  | nil => exact ⟨[], List.nil_subset _, .nil⟩
  | cons a rest ih =>
    obtain ⟨b, hb, hab⟩ := h a List.mem_cons_self
    obtain ⟨matched, hsub, hmatched⟩ := ih fun c hc => h c (List.mem_cons_of_mem a hc)
    exact ⟨b :: matched, List.cons_subset.2 ⟨hb, hsub⟩, .cons hab hmatched⟩

/-- Lists whose items match one to one match item by item in some order. -/
lemma exists_perm_forall₂ {β : Type} {R : α → β → Prop} (hunique : Relator.BiUnique R)
    {items : List α} {others : List β} (hitems : items.Nodup) (hothers : others.Nodup)
    (hforth : ∀ a ∈ items, ∃ b ∈ others, R a b) (hback : ∀ b ∈ others, ∃ a ∈ items, R a b) :
    ∃ matched, matched.Perm others ∧ List.Forall₂ R items matched := by
  obtain ⟨matched, hsub, hmatched⟩ := exists_forall₂ hforth
  have hnodup : matched.Nodup := (List.rel_nodup hunique hmatched).1 hitems
  refine ⟨matched, (List.perm_ext_iff_of_nodup hnodup hothers).2 fun b => ?_, hmatched⟩
  constructor
  · exact fun hb => hsub hb
  · intro hb
    obtain ⟨a, ha, hab⟩ := hback b hb
    exact (List.rel_mem hunique hab hmatched).1 ha

end CodeAudit
