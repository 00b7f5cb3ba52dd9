import CodeAudit.Metrics.Complexity
import CodeAudit.Proofs.Tree.Territory
/-!
# Ledgers

A ledger has an entry for each node of a tree that passes a test: what the node shows by itself, and
then the charges of the nodes in its territory, one after the other. The functions of a source make
up one ledger and its classes another one.
-/
namespace CodeAudit

/-- What the entries of a ledger are made of. -/
structure Ledger (α : Type) where
  /-- The nodes that have entries. -/
  opens : Node → Bool
  /-- What an entry is before anything is charged to it. -/
  header : Lineage → α
  /-- What a node of the territory adds to an entry. -/
  charge : Node → α → α

namespace Ledger

variable {α : Type} (b : Ledger α) {opened counted : List Lineage} {l : Lineage} {n : Node}

/-- The entry of a node, with the charges of the nodes that have been counted. -/
def entry (counted : List Lineage) (l : Lineage) : α :=
  (territory b.opens counted l.node).foldl (fun a n => b.charge n a) (b.header l)

/-- The entries of the nodes that have been met. -/
def entries (opened counted : List Lineage) : List α :=
  (heads b.opens opened).map (b.entry counted)

/-- The entry of a node stands at a place. -/
def At (opened : List Lineage) (index : Nat) (n : Node) : Prop :=
  (heads b.opens opened)[index]?.map Lineage.node = some n

/-- The place of a node among those of a tree that have entries. -/
def place (root n : Node) : Nat :=
  ((heads b.opens root.lineages).map (·.node.id)).idxOf n.id

variable {b}

/-- An entry keeps its place when more nodes are met. -/
lemma At.concat {index : Nat} (h : b.At opened index n) (l : Lineage) :
    b.At (opened ++ [l]) index n := by
  obtain ⟨k, hk, -⟩ := Option.map_eq_some_iff.1 h
  cases hopens : b.opens l.node with
  | false =>
    rw [At, heads_concat_of_neg hopens]
    exact h
  | true =>
    rw [At, heads_concat_of_pos hopens,
      List.getElem?_append_left (List.getElem?_eq_some_iff.1 hk).1]
    exact h

/-- The entry of a node that is met stands at the end. -/
lemma at_length (h : b.opens l.node = true) :
    b.At (opened ++ [l]) (b.entries opened counted).length l.node := by
  rw [At, heads_concat_of_pos h, entries, List.length_map, List.getElem?_concat_length]
  rfl

/-- If the nodes of a tree are met in order, an entry stands at the place of its node in the tree. -/
lemma At.place_eq {index : Nat} {root : Node} (h : b.At opened index n)
    (hfront : opened <+: root.lineages) (hids : root.ids.Nodup) : b.place root n = index := by
  obtain ⟨l, hl, rfl⟩ := Option.map_eq_some_iff.1 h
  have hheads : heads b.opens opened <+: heads b.opens root.lineages := hfront.filter _
  obtain ⟨rest, hrest⟩ := hheads
  have htree : (heads b.opens root.lineages)[index]? = some l := by
    rw [← hrest, List.getElem?_append_left (List.getElem?_eq_some_iff.1 hl).1]
    exact hl
  have hplace : ((heads b.opens root.lineages).map (·.node.id))[index]? = some l.node.id := by
    rw [List.getElem?_map, htree]
    rfl
  have hnodup : ((heads b.opens root.lineages).map (·.node.id)).Nodup :=
    hids.sublist (List.filter_sublist.map _)
  obtain ⟨hindex, hid⟩ := List.getElem?_eq_some_iff.1 hplace
  rw [place, ← hid]
  exact hnodup.idxOf_getElem index hindex

/-- The entry of a node that has been met is found at the place of the node. -/
lemma getElem?_entries_place {root : Node} (hfront : opened <+: root.lineages)
    (hids : root.ids.Nodup) (hl : l ∈ opened) (hopens : b.opens l.node = true) :
    (b.entries opened counted)[b.place root l.node]? = some (b.entry counted l) := by
  have hmem : l ∈ heads b.opens opened := List.mem_filter.2 ⟨hl, hopens⟩
  obtain ⟨index, hindex⟩ := List.mem_iff_getElem?.1 hmem
  have hat : b.At opened index l.node := by
    rw [At, hindex]
    rfl
  rw [hat.place_eq hfront hids, entries, List.getElem?_map, hindex]
  rfl

/-- A node that has no entry leaves the entries alone when it is met. -/
lemma entries_concat_of_neg (h : b.opens l.node = false) :
    b.entries (opened ++ [l]) counted = b.entries opened counted := by
  rw [entries, heads_concat_of_neg h]
  rfl

/-- A node that has an entry adds its header when it is met. -/
lemma entries_concat_of_pos (h : b.opens l.node = true)
    (hnew : territory b.opens counted l.node = []) :
    b.entries (opened ++ [l]) counted = b.entries opened counted ++ [b.header l] := by
  rw [entries, heads_concat_of_pos h, List.map_append, List.map_singleton, entry, hnew]
  rfl

/-- An entry that a node is not charged to stays as it is. -/
lemma entry_charge_of_ne {owner : Lineage}
    (h : (l.nearest? b.opens).map Node.id ≠ some owner.node.id) :
    b.entry (counted ++ [l]) owner = b.entry counted owner := by
  rw [entry, territory_concat_of_ne h]
  rfl

/-- The innermost entry around a node is charged with it. -/
lemma entry_charge_of_eq {owner : Lineage}
    (h : (l.nearest? b.opens).map Node.id = some owner.node.id) :
    b.entry (counted ++ [l]) owner = b.charge l.node (b.entry counted owner) := by
  rw [entry, territory_concat_of_eq h, List.foldl_append]
  rfl

/-- A node that is below none with an entry is charged to none. -/
lemma entries_charge_none (h : l.nearest? b.opens = none) :
    b.entries opened (counted ++ [l]) = b.entries opened counted := by
  refine List.map_congr_left fun owner _ => entry_charge_of_ne ?_
  rw [h]
  exact nofun

/-- A node is charged to the entry of the innermost node that has one. -/
lemma entries_charge_some (hids : (opened.map (·.node.id)).Nodup) {index : Nat}
    (h : l.nearest? b.opens = some n) (hat : b.At opened index n) :
    b.entries opened (counted ++ [l])
      = (b.entries opened counted).modify index (b.charge l.node) := by
  have hheads : ((heads b.opens opened).map (·.node.id)).Nodup :=
    hids.sublist (List.filter_sublist.map _)
  obtain ⟨owner, howner, rfl⟩ := Option.map_eq_some_iff.1 hat
  refine List.ext_getElem? fun i => ?_
  by_cases heq : index = i
  · subst heq
    have hcharge : (l.nearest? b.opens).map Node.id = some owner.node.id := by
      rw [h]
      rfl
    rw [List.getElem?_modify_eq, entries, entries, List.getElem?_map, List.getElem?_map, howner]
    exact congrArg some (entry_charge_of_eq hcharge)
  · rw [List.getElem?_modify_ne _ _ heq, entries, entries, List.getElem?_map, List.getElem?_map]
    -- an entry at another place is that of another node, whose identity is different
    refine Option.map_congr fun other hother => entry_charge_of_ne ?_
    rw [h]
    intro hid
    have hplaces : ((heads b.opens opened).map (·.node.id))[index]?
        = ((heads b.opens opened).map (·.node.id))[i]? := by
      rw [List.getElem?_map, List.getElem?_map, howner, hother]
      exact hid
    have hindex : index < ((heads b.opens opened).map (·.node.id)).length := by
      rw [List.length_map]
      exact (List.getElem?_eq_some_iff.1 howner).1
    exact heq ((List.getElem?_inj hindex hheads).1 hplaces)

/-- A node that adds nothing leaves the entries alone. -/
lemma entries_charge_id (h : ∀ a, b.charge l.node a = a) :
    b.entries opened (counted ++ [l]) = b.entries opened counted := by
  refine List.map_congr_left fun owner _ => ?_
  by_cases howner : (l.nearest? b.opens).map Node.id = some owner.node.id
  · rw [entry_charge_of_eq howner, h]
  · exact entry_charge_of_ne howner

/-- What is charged to the entries and what is charged to none make up the tree. -/
lemma sum_entries (hplaced : Lineage.Placed counted) (hids : (counted.map (·.node.id)).Nodup)
    {q : Node → Bool} {measure : α → Nat}
    (hmeasure : ∀ l, measure (b.entry counted l)
      = 1 + (territory b.opens counted l.node).countP q) :
    ((b.entries counted counted).map fun a => measure a - 1).sum
        + (wilderness b.opens counted).countP q
      = counted.countP fun l => q l.node := by
  rw [← hplaced.sum_countP hids q, entries, List.map_map]
  congr 2
  refine List.map_congr_left fun l _ => ?_
  rw [Function.comp_apply, hmeasure, Nat.add_sub_cancel_left]

end Ledger

end CodeAudit
