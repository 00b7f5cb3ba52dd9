import CodeAudit.Proofs.List
import CodeAudit.Proofs.Metrics.Scopes
import CodeAudit.Proofs.Tree.Traversal
/-!
# What a traversal counts

The counts of a source are counts over the nodes of its tree, and its functions and classes are listed
in the order of the tree. None of this depends on the identities of the nodes, which only tell the entry
that a node is charged to.
-/
namespace CodeAudit

/-- The measures of a function without what is charged to it. -/
def FunctionMetrics.header (f : FunctionMetrics) : FunctionMetrics :=
  { f with cyclomatic := 1, cognitive := 0, calls := [] }

/-- The measures of a class without what is charged to it. -/
def ClassMetrics.header (c : ClassMetrics) : ClassMetrics :=
  { c with complexity := 1 }

/-- A change of one item that keeps a key keeps the keys of all. -/
lemma map_toList_modifyAt {α β : Type} {key : α → β} {change : α → α}
    (hkeep : ∀ a, key (change a) = key a) (items : Array α) (index : Option Nat) :
    (modifyAt items index change).toList.map key = items.toList.map key := by
  rw [toList_modifyAt]
  cases index with
  | none => rfl
  | some i =>
    apply List.ext_getElem?
    intro j
    show ((items.toList.modify i change).map key)[j]? = _
    rw [List.getElem?_map, List.getElem?_map, List.getElem?_modify]
    cases items.toList[j]? with
    | none => rfl
    | some a =>
      apply congrArg some
      show key (if i = j then change a else a) = key a
      split
      · exact hkeep a
      · rfl

/-- A charge leaves the header of a function as it is. -/
lemma header_chargeFunction {r : Reading} (n : Node) (f : FunctionMetrics) :
    (r.chargeFunction n f).header = f.header :=
  rfl

/-- A charge leaves the header of a class as it is. -/
lemma header_chargeClass {r : Reading} (n : Node) (c : ClassMetrics) :
    (r.chargeClass n c).header = c.header :=
  rfl

namespace Tally

/-- The entries that a walk has made for the nodes it has opened, and its counts over those that it
has counted, whatever scopes it is in. -/
structure Lists (r : Reading) (opened counted : List Lineage) (t : Tally) : Prop where
  decisions : t.decisions = counted.countP fun l => r.profile.isDecision l.node
  points : t.cognitive = counted.countP fun l => r.profile.isPoint l.node
  functions : t.functions.toList.map FunctionMetrics.header
    = (heads r.profile.opensFunction opened).map fun l => r.functionHeader l.node l.above.head?
  classes : t.classes.toList.map ClassMetrics.header
    = (heads r.profile.opensClass opened).map fun l => r.classHeader l.node

variable {r : Reading} {opened counted : List Lineage} {t : Tally} {l : Lineage}

/-- A node that opens nothing makes no entry. -/
lemma Lists.skip (h : Lists r opened counted t) (hfunction : r.profile.opensFunction l.node = false)
    (hclass : r.profile.opensClass l.node = false) : Lists r (opened ++ [l]) counted t := by
  constructor
  case decisions => exact h.decisions
  case points => exact h.points
  case functions => rw [heads_concat_of_neg hfunction, h.functions]
  case classes => rw [heads_concat_of_neg hclass, h.classes]

/-- A token makes no entry and counts for nothing. -/
lemma Lists.token (h : Lists r opened counted t) (htoken : l.node.named = false) :
    Lists r (opened ++ [l]) (counted ++ [l]) t := by
  have hopened : Lists r (opened ++ [l]) counted t := by
    apply h.skip
    · rw [Profile.opensFunction, htoken, Bool.false_and]
    · rw [Profile.opensClass, htoken, Bool.false_and]
  constructor
  case decisions =>
    rw [h.decisions, countP_concat, Profile.isDecision, htoken]
    rfl
  case points =>
    rw [h.points, countP_concat, Profile.isPoint, htoken]
    rfl
  case functions => exact hopened.functions
  case classes => exact hopened.classes

/-- A function or a class that is opened gets an entry after those of the nodes before it. -/
lemma Lists.openScope (hseparate : r.profile.Separate) (h : Lists r opened counted t)
    (hnamed : l.node.named = true) :
    Lists r (opened ++ [l]) counted (t.openScope r l.node l.above.head?) := by
  have hopens := opens_openScope (r := r) t hnamed l.above.head?
  generalize t.openScope r l.node l.above.head? = next at hopens
  cases hopens with
  | function hfunction =>
    constructor
    case decisions => exact h.decisions
    case points => exact h.points
    case functions =>
      rw [Array.toList_push, List.map_append, h.functions, heads_concat_of_pos hfunction,
        List.map_append]
      rfl
    case classes => rw [heads_concat_of_neg (hseparate.opensClass_eq_false hfunction), h.classes]
  | «class» hclass =>
    constructor
    case decisions => exact h.decisions
    case points => exact h.points
    case functions =>
      rw [heads_concat_of_neg (hseparate.opensFunction_eq_false hclass), h.functions]
    case classes =>
      rw [Array.toList_push, List.map_append, h.classes, heads_concat_of_pos hclass,
        List.map_append]
      rfl
  | none hfunction hclass => exact h.skip hfunction hclass

/-- A named node is counted once. -/
lemma Lists.count (hseparate : r.profile.Separate) (h : Lists r opened counted t)
    (hnamed : l.node.named = true) : Lists r opened (counted ++ [l]) (t.count r l.node) := by
  rw [count_eq_charge t hseparate hnamed, charge_eq]
  constructor
  case decisions => rw [h.decisions, countP_concat]
  case points => rw [h.points, countP_concat]
  case functions => exact (map_toList_modifyAt (header_chargeFunction l.node) _ _).trans h.functions
  case classes => exact (map_toList_modifyAt (header_chargeClass l.node) _ _).trans h.classes

/-- A node that is left is neither opened nor counted again. -/
lemma Lists.leave (h : Lists r opened counted t) (c : Cursor) :
    Lists r opened counted (t.leave c) := by
  rw [Tally.leave]
  split
  · split
    · exact ⟨h.decisions, h.points, h.functions, h.classes⟩
    · exact h
  · exact h

/-- A walk lists and counts every node that it enters. -/
lemma keptBy_lists (hseparate : r.profile.Separate) (root : Node) :
    Cursor.KeptBy (fun entered _ t => Lists r entered entered t) (Tally.enter r) Tally.leave
      root := by
  constructor
  case enter =>
    intro entered c t _ _ h
    cases hnamed : c.node.named with
    | false =>
      rw [Tally.enter, hnamed, if_neg Bool.false_ne_true]
      exact h.token hnamed
    | true =>
      rw [Tally.enter, hnamed, if_pos rfl, ← head?_above]
      apply Lists.count hseparate _ hnamed
      exact h.openScope hseparate hnamed
  case leave =>
    intro entered c t _ _ h
    exact h.leave c

/-- After a walk all nodes of the tree have been listed and counted. -/
theorem lists_ofTree (hseparate : r.profile.Separate) (root : Node) :
    Lists r root.lineages root.lineages (ofTree r root) := by
  apply (keptBy_lists hseparate root).walk
  exact ⟨rfl, rfl, rfl, rfl⟩

end Tally

/-- Nodes are counted alike with and without what is above them. -/
lemma Node.countP_lineages (q : Node → Bool) (root : Node) :
    (root.lineages.countP fun l => q l.node) = root.preorder.countP q := by
  rw [← map_node_lineagesBelow [] root, List.countP_map]
  rfl

/-- A cognitive point is a branch, or else a logical operator that is no branch and no arm. -/
lemma Profile.Separate.countP_isPoint {p : Profile} (hseparate : p.Separate) (nodes : List Node) :
    nodes.countP p.isPoint = (nodes.countP fun n => n.named && p.isBranch n.kind)
      + nodes.countP fun n =>
        n.named && !p.isBranch n.kind && !p.isCase n.kind && p.isLogical n := by
  rw [← countP_or_of_disjoint]
  · congr 1
    funext n
    have hlogical := hseparate.isLogical_eq_false (n := n)
    rw [Profile.isPoint]
    cases hbranch : p.isBranch n.kind with
    | true => simp
    | false =>
      rw [hbranch, Bool.false_or] at hlogical
      cases hcase : p.isCase n.kind with
      | true => simp [hlogical hcase]
      | false => simp
  · intro n _ hbranch
    rw [Bool.and_eq_true] at hbranch
    rw [hbranch.2]
    simp

/-- The measures of a source are those of its nodes in preorder, and 32 bits are enough for the counts
of a tree with fewer nodes than fit in them. -/
structure FileMetrics.CountsPreorder (r : Reading) (root : Node) (m : FileMetrics) : Prop where
  cyclomatic : m.cyclomatic = 1 + root.preorder.countP fun n =>
    n.named && (r.profile.isBranch n.kind || r.profile.isCase n.kind)
  cognitive : m.cognitive = (root.preorder.countP fun n => n.named && r.profile.isBranch n.kind)
    + root.preorder.countP fun n => n.named && !r.profile.isBranch n.kind
      && !r.profile.isCase n.kind && r.profile.isLogical n
  functions : m.functions.map FunctionMetrics.header
    = (root.lineages.filter fun l => l.node.named && r.profile.isFunction l.node.kind).map
      fun l => r.functionHeader l.node l.above.head?
  classes : m.classes.map ClassMetrics.header
    = (root.preorder.filter fun n => n.named && r.profile.isClass n.kind).map r.classHeader
  ordered : root.lineages.map Lineage.node = root.preorder
  cyclomatic_le : m.cyclomatic ≤ 1 + root.size
  cognitive_le : m.cognitive ≤ root.size

/-- A walk over a tree is a depth-first traversal that comes to an end, and the measures of a source
are counted on it. -/
theorem FileMetrics.ofTree_depthFirst (root : Node) :
    (∃ stages, Cursor.DepthFirst root stages ∧
      ∀ (σ : Type) (enter leave : Cursor → σ → σ) (s : σ), Cursor.walk enter leave root s
        = stages.foldl (fun s stage => Cursor.visit enter leave stage s) s) ∧
    ∀ (path : Path) (language : Language) (source : String),
      (FileMetrics.ofTree path language source root).CountsPreorder
        ⟨language.profile, source.toUTF8.toList⟩ root := by
  constructor
  · have htour := Cursor.depthFirst_tour root
    refine ⟨_, htour, ?_⟩
    intro σ enter leave s
    exact htour.walk_eq enter leave s
  · intro path language source
    let r : Reading := ⟨language.profile, source.toUTF8.toList⟩
    have hseparate : r.profile.Separate := language.separate_profile
    have hlists := Tally.lists_ofTree hseparate root
    have hcyclomatic : (FileMetrics.ofTree path language source root).cyclomatic
        = 1 + root.preorder.countP r.profile.isDecision := by
      rw [← Node.countP_lineages]
      exact congrArg (1 + ·) hlists.decisions
    have hcognitive : (FileMetrics.ofTree path language source root).cognitive
        = root.preorder.countP r.profile.isPoint := by
      rw [← Node.countP_lineages]
      exact hlists.points
    have hlineages : root.lineages.map Lineage.node = root.preorder :=
      Node.map_node_lineagesBelow [] root
    constructor
    case cyclomatic => exact hcyclomatic
    case cognitive => rw [hcognitive, hseparate.countP_isPoint]
    case functions => exact hlists.functions
    case classes =>
      rw [← hlineages, List.filter_map, List.map_map]
      exact hlists.classes
    case ordered => exact hlineages
    case cyclomatic_le =>
      rw [hcyclomatic, ← Node.length_preorder]
      exact Nat.add_le_add_left List.countP_le_length 1
    case cognitive_le =>
      rw [hcognitive, ← Node.length_preorder]
      exact List.countP_le_length

end CodeAudit
