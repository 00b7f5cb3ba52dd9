import CodeAudit.Tree.Node
/-!
# Walking a tree

A cursor stands on a node and knows the way back to the root. A walk goes down to the first child,
along the siblings and back up, without recursion on the tree, and meets every node twice: when it
enters the node and when it leaves it.
-/
namespace CodeAudit

/-- A node above a cursor: the node itself, and its children to the right of the way down. -/
structure Crumb where
  parent : Node
  right : List Node

/-- A node of a tree and the way from it back to the root. -/
structure Cursor where
  node : Node
  /-- The nodes above, innermost first. -/
  path : List Crumb

namespace Cursor

/-- The cursor on the root of a tree. -/
def ofRoot (root : Node) : Cursor :=
  ⟨root, []⟩

def firstChild? (c : Cursor) : Option Cursor :=
  match c.node.children with
  | [] => none
  | child :: right => some ⟨child, ⟨c.node, right⟩ :: c.path⟩

def nextSibling? (c : Cursor) : Option Cursor :=
  match c.path with
  | ⟨parent, next :: right⟩ :: up => some ⟨next, ⟨parent, right⟩ :: up⟩
  | _ => none

def parent? (c : Cursor) : Option Cursor :=
  match c.path with
  | crumb :: up => some ⟨crumb.parent, up⟩
  | [] => none

/-- The nodes from the root down to the cursor, outermost first. -/
def ancestry (c : Cursor) : List Node :=
  (c.node :: c.path.map Crumb.parent).reverse

/-- What is still to be walked to the right of the way down, and back up. -/
def pending : List Crumb → Nat
  | [] => 0
  | crumb :: up => 1 + 2 * Node.sizes crumb.right + pending up

end Cursor

/-- Where a walk stands. -/
inductive Stage where
  /-- About to enter the cursor's node. -/
  | arriving (c : Cursor)
  /-- About to leave the cursor's node, all below it being done. -/
  | leaving (c : Cursor)

namespace Stage

/-- An upper bound on the stages that are left. -/
def measure : Stage → Nat
  | arriving c => 2 * c.node.size + Cursor.pending c.path
  | leaving c => 1 + Cursor.pending c.path

/-- The stage after this one; there is none after the root has been left. -/
def next? : Stage → Option Stage
  | arriving c =>
    match c.firstChild? with
    | some child => some (arriving child)
    | none => some (leaving c)
  | leaving c =>
    match c.nextSibling? with
    | some sibling => some (arriving sibling)
    | none => c.parent?.map leaving

/-- Each step of a walk gets closer to its end. -/
theorem measure_next {s t : Stage} (h : s.next? = some t) : t.measure < s.measure := by
  cases s with
  | arriving c =>
    simp only [next?] at h
    split at h
    · next child hc =>
      cases h
      unfold Cursor.firstChild? at hc
      split at hc
      · cases hc
      · next child right hk =>
        cases hc
        simp only [measure, Cursor.pending, Node.size_eq c.node, hk, Node.sizes]
        omega
    · cases h
      simp only [measure, Node.size_eq c.node]
      omega
  | leaving c =>
    simp only [next?] at h
    split at h
    · next sibling hs =>
      cases h
      unfold Cursor.nextSibling? at hs
      split at hs
      · next hp =>
        cases hs
        simp only [measure, hp, Cursor.pending, Node.sizes]
        omega
      · cases hs
    · obtain ⟨p, hp, rfl⟩ := Option.map_eq_some_iff.1 h
      unfold Cursor.parent? at hp
      split at hp
      · next hc =>
        cases hp
        simp only [measure, hc, Cursor.pending]
        omega
      · cases hp

end Stage

namespace Cursor

variable {σ : Type} (enter leave : Cursor → σ → σ)

/-- Does what is to be done at a stage. -/
def visit (stage : Stage) (state : σ) : σ :=
  match stage with
  | .arriving c => enter c state
  | .leaving c => leave c state

/-- Walks on from a stage to the end. -/
def walkFrom (stage : Stage) (state : σ) : σ :=
  match _h : stage.next? with
  | some more => walkFrom more (visit enter leave stage state)
  | none => visit enter leave stage state
termination_by stage.measure
decreasing_by exact Stage.measure_next _h

/-- Walks over a whole tree. -/
def walk (root : Node) (state : σ) : σ :=
  walkFrom enter leave (.arriving (ofRoot root)) state

end Cursor

end CodeAudit
