import CodeAudit.Proofs.Tree.Walk
/-!
# The order of a walk

The stages of a walk follow each other, and there is a last one. On the way every node of the tree is
entered once, before the nodes below it, and left once, after them; nothing else happens. So a walk
without recursion is a depth-first traversal.
-/
namespace CodeAudit

namespace Node

mutual

/-- The nodes of a tree, each before those below it. -/
def preorder : Node → List Node
  | n@(mk _ _ _ _ _ _ children) => n :: preorderIn children

/-- The nodes of some trees side by side, each before those below it. -/
def preorderIn : List Node → List Node
  | [] => []
  | n :: rest => preorder n ++ preorderIn rest

end

mutual

/-- The nodes of a tree, each after those below it. -/
def postorder : Node → List Node
  | n@(mk _ _ _ _ _ _ children) => postorderIn children ++ [n]

/-- The nodes of some trees side by side, each after those below it. -/
def postorderIn : List Node → List Node
  | [] => []
  | n :: rest => postorder n ++ postorderIn rest

end

mutual

/-- A preorder has as many nodes as its tree. -/
lemma length_preorder : ∀ n : Node, n.preorder.length = n.size
  | mk _ _ _ _ _ _ children => by
    rw [preorder, List.length_cons, length_preorderIn children, size]
    exact Nat.add_comm _ _

/-- A preorder of trees has as many nodes as the trees together. -/
lemma length_preorderIn : ∀ nodes : List Node, (preorderIn nodes).length = sizes nodes
  | [] => rfl
  | n :: rest => by
    rw [preorderIn, List.length_append, length_preorder n, length_preorderIn rest, sizes]

end

mutual

/-- The lineages of a tree end in its nodes, parents first. -/
lemma map_node_lineagesBelow (above : List Node) : ∀ n : Node,
    (lineagesBelow above n).map Lineage.node = n.preorder
  | mk _ _ _ _ _ _ children => by
    rw [lineagesBelow, List.map_cons, map_node_lineagesIn _ children, preorder]

/-- The nodes of the lineages of some trees are their preorder. -/
lemma map_node_lineagesIn (above : List Node) : ∀ nodes : List Node,
    (lineagesIn above nodes).map Lineage.node = preorderIn nodes
  | [] => rfl
  | n :: rest => by
    rw [lineagesIn, List.map_append, map_node_lineagesBelow above n, map_node_lineagesIn above rest,
      preorderIn]

end

end Node

namespace Stage

/-- From a stage a walk goes through some stages, this one first, and then on to another one, or to
the end. -/
inductive GoesThrough : Stage → List Stage → Option Stage → Prop where
  | last {s next} :
    s.next? = next →
    GoesThrough s [s] next
  | more {s t stages next} :
    s.next? = some t →
    GoesThrough t stages next →
    GoesThrough s (s :: stages) next

/-- A walk that goes through some stages and then through others goes through all of them. -/
lemma GoesThrough.trans {s t : Stage} {front back : List Stage} {next : Option Stage}
    (hfront : GoesThrough s front (some t)) (hback : GoesThrough t back next) :
    GoesThrough s (front ++ back) next := by
  generalize heq : some t = middle at hfront
  induction hfront with
  | last hnext =>
    apply GoesThrough.more
    · rw [hnext, heq]
    · exact hback
  | more hnext _ ih =>
    apply GoesThrough.more hnext
    exact ih heq

def entered? : Stage → Option Cursor
  | arriving c => some c
  | leaving _ => none

def left? : Stage → Option Cursor
  | arriving _ => none
  | leaving c => some c

end Stage

namespace Cursor

mutual

/-- The stages at which a walk is busy with a node or with those below it. -/
def tour (path : List Crumb) : Node → List Stage
  | n@(.mk _ _ _ _ _ _ children) =>
    .arriving ⟨n, path⟩ :: tourIn n path children ++ [.leaving ⟨n, path⟩]

/-- The stages at which a walk is busy with some children of a node. -/
def tourIn (parent : Node) (path : List Crumb) : List Node → List Stage
  | [] => []
  | child :: right => tour (⟨parent, right⟩ :: path) child ++ tourIn parent path right

end

/-- The stage at which a walk turns to some children of a node, or leaves it if there are none. -/
def turn (parent : Node) (path : List Crumb) : List Node → Stage
  | [] => .leaving ⟨parent, path⟩
  | child :: right => .arriving ⟨child, ⟨parent, right⟩ :: path⟩

/-- A walk turns from a node that it has arrived at to its children. -/
lemma next?_arriving (n : Node) (path : List Crumb) :
    Stage.next? (.arriving ⟨n, path⟩) = some (turn n path n.children) := by
  simp only [Stage.next?, firstChild?]
  cases n.children with
  | nil => rfl
  | cons child right => rfl

/-- A walk turns from a node that it has left to those to its right. -/
lemma next?_leaving (child parent : Node) (right : List Node) (path : List Crumb) :
    Stage.next? (.leaving ⟨child, ⟨parent, right⟩ :: path⟩) = some (turn parent path right) := by
  cases right with
  | nil => rfl
  | cons next right => rfl

mutual

/-- A walk that arrives at a node goes through the tour of the node, up to what follows on leaving it. -/
lemma goesThrough_tour (path : List Crumb) : ∀ n : Node,
    Stage.GoesThrough (.arriving ⟨n, path⟩) (tour path n) (Stage.next? (.leaving ⟨n, path⟩))
  | .mk id named kind field start stop children => by
    apply Stage.GoesThrough.more
    · exact next?_arriving _ path
    · apply goesThrough_tourIn _ path children
      exact .last rfl

/-- A walk that turns to some children goes through their tours before it leaves the parent. -/
lemma goesThrough_tourIn (parent : Node) (path : List Crumb) :
    ∀ (children : List Node) {back : List Stage} {next : Option Stage},
      Stage.GoesThrough (.leaving ⟨parent, path⟩) back next →
      Stage.GoesThrough (turn parent path children) (tourIn parent path children ++ back) next
  | [], back, next, h => h
  | child :: right, back, next, h => by
    rw [tourIn, List.append_assoc]
    have hchild := goesThrough_tour (⟨parent, right⟩ :: path) child
    rw [next?_leaving] at hchild
    apply hchild.trans
    exact goesThrough_tourIn parent path right h

end

section Order

mutual

/-- The tour of a node enters the node and those below it, parents first. -/
lemma entered_tour (path : List Crumb) : ∀ n : Node,
    ((tour path n).filterMap Stage.entered?).map lineage
      = n.lineagesBelow (path.map Crumb.parent)
  | .mk _ _ _ _ _ _ children => by
    rw [tour, List.cons_append, List.filterMap_cons_some (f := Stage.entered?) rfl, List.map_cons,
      List.filterMap_append, List.map_append, entered_tourIn _ path children, Node.lineagesBelow]
    exact congrArg _ (List.append_nil _)

/-- The nodes that are entered in a tour of some children have their lineages. -/
lemma entered_tourIn (parent : Node) (path : List Crumb) : ∀ children : List Node,
    ((tourIn parent path children).filterMap Stage.entered?).map lineage
      = Node.lineagesIn (parent :: path.map Crumb.parent) children
  | [] => rfl
  | child :: right => by
    rw [tourIn, List.filterMap_append, List.map_append, entered_tour _ child,
      entered_tourIn parent path right, Node.lineagesIn]
    rfl

end

mutual

/-- The tour of a node leaves the node after those below it. -/
lemma left_tour (path : List Crumb) : ∀ n : Node,
    ((tour path n).filterMap Stage.left?).map Cursor.node = n.postorder
  | .mk _ _ _ _ _ _ children => by
    rw [tour, List.cons_append, List.filterMap_cons_none rfl, List.filterMap_append,
      List.map_append, left_tourIn _ path children, Node.postorder]
    rfl

/-- The nodes that are left in a tour of some children are their postorder. -/
lemma left_tourIn (parent : Node) (path : List Crumb) : ∀ children : List Node,
    ((tourIn parent path children).filterMap Stage.left?).map Cursor.node
      = Node.postorderIn children
  | [] => rfl
  | child :: right => by
    rw [tourIn, List.filterMap_append, List.map_append, left_tour _ child,
      left_tourIn parent path right, Node.postorderIn]

end

end Order

/-- The stages of a walk over a tree, from the first to the last: every node is entered once, before
those below it, and left once, after them. -/
structure DepthFirst (root : Node) (stages : List Stage) : Prop where
  ends : Stage.GoesThrough (.arriving (ofRoot root)) stages none
  enters : (stages.filterMap Stage.entered?).map Cursor.node = root.preorder
  leaves : (stages.filterMap Stage.left?).map Cursor.node = root.postorder

/-- The stages of a walk are those of a depth-first traversal. -/
theorem depthFirst_tour (root : Node) : DepthFirst root (tour [] root) := by
  constructor
  case ends => exact goesThrough_tour [] root
  case enters =>
    have hlineages := congrArg (List.map Lineage.node) (entered_tour [] root)
    rw [List.map_map, List.map_nil, Node.map_node_lineagesBelow] at hlineages
    exact hlineages
  case leaves => exact left_tour [] root

section Visits

variable {σ : Type} (enter leave : Cursor → σ → σ)

/-- What a walk does on its way to the end is what is to be done at its stages, one after the other. -/
lemma walkFrom_of_goesThrough {stage : Stage} {stages : List Stage}
    (h : stage.GoesThrough stages none) (s : σ) :
    walkFrom enter leave stage s
      = stages.foldl (fun s stage => visit enter leave stage s) s := by
  generalize hend : (none : Option Stage) = next at h
  induction h generalizing s with
  | last hnext =>
    cases hend
    exact walkFrom_of_none enter leave hnext s
  | more hnext _ ih =>
    rw [walkFrom_of_next? enter leave hnext, ih _ hend]
    rfl

/-- A walk over a tree does what is to be done at its stages, and nothing else. -/
theorem DepthFirst.walk_eq {root : Node} {stages : List Stage} (h : DepthFirst root stages) (s : σ) :
    walk enter leave root s = stages.foldl (fun s stage => visit enter leave stage s) s :=
  walkFrom_of_goesThrough enter leave h.ends s

end Visits

end Cursor

end CodeAudit
