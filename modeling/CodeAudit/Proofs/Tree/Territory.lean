import CodeAudit.Proofs.Tree.Walk
/-!
# Territories

A test cuts a tree up: the territory of a node that passes is made of the nodes whose innermost node
that passes is this one. In a tree whose identities are different the territories are apart, and they
cover all nodes but those that are below no node that passes.
-/
namespace CodeAudit

/-- The nodes whose innermost node that passes a test, themselves included, is a given one. -/
def territory (test : Node → Bool) (lineages : List Lineage) (n : Node) : List Node :=
  (lineages.filter fun l => (l.nearest? test).map Node.id = some n.id).map Lineage.node

/-- The nodes that pass no test and are below none that does. -/
def wilderness (test : Node → Bool) (lineages : List Lineage) : List Node :=
  (lineages.filter fun l => (l.nearest? test).isNone).map Lineage.node

/-- The lineages that end in a node which passes a test. -/
def heads (test : Node → Bool) (lineages : List Lineage) : List Lineage :=
  lineages.filter fun l => test l.node

variable {test : Node → Bool} {lineages : List Lineage} {l : Lineage} {n : Node}

/-- The innermost node of a lineage that passes is one of its nodes. -/
lemma Lineage.mem_of_nearest? (h : l.nearest? test = some n) : n ∈ l.nodes :=
  List.mem_of_find?_eq_some h

/-- The nearest node that passes a test passes it. -/
lemma Lineage.test_of_nearest? (h : l.nearest? test = some n) : test n = true :=
  List.find?_some h

/-- One more lineage whose node passes. -/
lemma heads_concat_of_pos (h : test l.node = true) :
    heads test (lineages ++ [l]) = heads test lineages ++ [l] := by
  simp [heads, List.filter_append, h]

/-- A node that does not pass the test is no head. -/
lemma heads_concat_of_neg (h : test l.node = false) :
    heads test (lineages ++ [l]) = heads test lineages := by
  simp [heads, List.filter_append, h]

/-- One more node is in the territory of the innermost node that passes. -/
lemma territory_concat_of_eq (h : (l.nearest? test).map Node.id = some n.id) :
    territory test (lineages ++ [l]) n = territory test lineages n ++ [l.node] := by
  rw [territory, List.filter_append, List.filter_cons_of_pos (by simpa using h), List.filter_nil,
    List.map_append]
  rfl

/-- A node that belongs to another head is in no one else's territory. -/
lemma territory_concat_of_ne (h : (l.nearest? test).map Node.id ≠ some n.id) :
    territory test (lineages ++ [l]) n = territory test lineages n := by
  rw [territory, List.filter_append, List.filter_cons_of_neg (by simpa using h), List.filter_nil,
    List.append_nil]
  rfl

/-- The lineages of some nodes fit together: what is above a node is among them, and other than it. -/
structure Lineage.Placed (lineages : List Lineage) : Prop where
  closed : ∀ l ∈ lineages, l.nodes ⊆ lineages.map Lineage.node
  apart : ∀ l ∈ lineages, ∀ a ∈ l.above, a.id ≠ l.node.id

/-- A new node whose parents are there fits with the others. -/
lemma Lineage.Placed.concat (h : Placed lineages) (habove : l.above ⊆ lineages.map Lineage.node)
    (hnew : ((lineages ++ [l]).map (·.node.id)).Nodup) : Placed (lineages ++ [l]) := by
  have hsubset : lineages.map Lineage.node ⊆ (lineages ++ [l]).map Lineage.node := by
    rw [List.map_append]
    exact List.subset_append_left _ _
  constructor
  · intro m hm
    rw [List.mem_append, List.mem_singleton] at hm
    obtain hm | rfl := hm
    · exact fun a ha => hsubset (h.closed m hm ha)
    · rw [nodes, List.cons_subset, List.map_append]
      exact ⟨List.mem_append_right _ (List.mem_singleton_self _),
        fun a ha => List.mem_append_left _ (habove ha)⟩
  · intro m hm
    rw [List.mem_append, List.mem_singleton] at hm
    obtain hm | rfl := hm
    · exact h.apart m hm
    -- what is above has been there before, and the identity of the node has not
    · intro a ha heq
      obtain ⟨other, hother, rfl⟩ := List.mem_map.1 (habove ha)
      rw [List.map_append, List.nodup_append] at hnew
      exact hnew.2.2 _ (List.mem_map.2 ⟨other, hother, rfl⟩) _ (List.mem_singleton_self _) heq

/-- The territory of a node that has not been met is empty. -/
lemma territory_eq_nil (h : Lineage.Placed lineages) (hnew : n.id ∉ lineages.map (·.node.id)) :
    territory test lineages n = [] := by
  rw [territory, List.map_eq_nil_iff, List.filter_eq_nil_iff]
  intro l hl
  rw [decide_eq_true_iff, Option.map_eq_some_iff]
  rintro ⟨a, ha, heq⟩
  obtain ⟨other, hother, rfl⟩ := List.mem_map.1 (h.closed l hl (Lineage.mem_of_nearest? ha))
  exact hnew (List.mem_map.2 ⟨other, hother, heq⟩)

/-- Where identities are different, no node is in two territories. -/
lemma territory_unique (hids : (lineages.map (·.node.id)).Nodup) {d m : Node}
    (hn : d ∈ territory test lineages n) (hm : d ∈ territory test lineages m) : n.id = m.id := by
  obtain ⟨l, hl, rfl⟩ := List.mem_map.1 hn
  obtain ⟨k, hk, hkl⟩ := List.mem_map.1 hm
  rw [List.mem_filter, decide_eq_true_iff] at hl hk
  obtain rfl : k = l := List.inj_on_of_nodup_map hids hk.1 hl.1 (congrArg Node.id hkl)
  exact Option.some.inj (hl.2.symm.trans hk.2)

/-- Counting in a territory is counting in the tree. -/
lemma countP_territory (q : Node → Bool) :
    (territory test lineages n).countP q = lineages.countP fun l =>
      q l.node && decide ((l.nearest? test).map Node.id = some n.id) := by
  rw [territory, List.countP_map, List.countP_filter]
  rfl

/-- The wilderness counts the nodes that neither pass the test nor are below one that does. -/
lemma countP_wilderness (q : Node → Bool) :
    (wilderness test lineages).countP q = lineages.countP fun l =>
      q l.node && (l.nearest? test).isNone := by
  rw [wilderness, List.countP_map, List.countP_filter]
  rfl

/-- Adding one for each place of an item counts the item. -/
lemma sum_indicator (ids : List Nat) (id : Nat) :
    (ids.map fun other => if some id = some other then 1 else 0).sum = ids.count id := by
  induction ids with
  | nil => rfl
  | cons other rest ih =>
    rw [List.map_cons, List.sum_cons, ih, List.count_cons, Nat.add_comm]
    simp only [Option.some.injEq, beq_iff_eq, @eq_comm _ id other]

/-- Whatever is counted, what is in the territories and what is in the wilderness make up the tree. -/
lemma sum_countP_territory (q : Node → Bool) {owners : List Lineage}
    (howners : (owners.map (·.node.id)).Nodup)
    (hcover : ∀ l ∈ lineages, ∀ a, l.nearest? test = some a → a.id ∈ owners.map (·.node.id)) :
    (owners.map fun h => (territory test lineages h.node).countP q).sum
        + (wilderness test lineages).countP q
      = lineages.countP fun l => q l.node := by
  simp only [countP_territory, countP_wilderness]
  induction lineages with
  | nil => simp
  | cons l rest ih =>
    rw [List.forall_mem_cons] at hcover
    obtain ⟨hl, hrest⟩ := hcover
    -- the node is counted in one territory, or else in the wilderness
    have hnode : (owners.map fun h =>
          if q l.node && decide ((l.nearest? test).map Node.id = some h.node.id) then 1 else 0).sum
        + (if q l.node && (l.nearest? test).isNone then 1 else 0)
        = if q l.node then 1 else 0 := by
      cases hq : q l.node with
      | false => simp
      | true =>
        cases hnearest : l.nearest? test with
        | none => simp
        | some a =>
          have hsum := sum_indicator (owners.map (·.node.id)) a.id
          rw [List.count_eq_one_of_mem howners (hl a hnearest), List.map_map] at hsum
          simpa [Function.comp_def] using hsum
    simp only [List.countP_cons, List.sum_map_add]
    have ihrest := ih hrest
    omega

/-- The innermost node of a lineage that passes is the end of one of the lineages. -/
lemma Lineage.Placed.mem_heads (h : Placed lineages) (hl : l ∈ lineages)
    (hn : l.nearest? test = some n) : n.id ∈ (heads test lineages).map (·.node.id) := by
  obtain ⟨other, hother, rfl⟩ := List.mem_map.1 (h.closed l hl (mem_of_nearest? hn))
  exact List.mem_map.2 ⟨other, List.mem_filter.2 ⟨hother, test_of_nearest? hn⟩, rfl⟩

/-- Whatever is counted in a tree, the territories and the wilderness make up the tree. -/
theorem Lineage.Placed.sum_countP (h : Placed lineages)
    (hids : (lineages.map (·.node.id)).Nodup) (q : Node → Bool) :
    ((heads test lineages).map fun l => (territory test lineages l.node).countP q).sum
        + (wilderness test lineages).countP q
      = lineages.countP fun l => q l.node :=
  sum_countP_territory q (hids.sublist (List.filter_sublist.map _))
    fun _ hl _ hn => h.mem_heads hl hn

end CodeAudit
