import CodeAudit.Proofs.Tree.Lineage
/-!
# The walk as a recursion on the tree

The walk of a cursor does what a recursion on the tree would do: a node is entered, its children are
walked over one after the other, and the node is left. A walk from one stage on is the walk from the
next stage on, with the state that the first one has left.
-/
namespace CodeAudit.Cursor

section Recursion

variable {σ : Type} (enter leave : Cursor → σ → σ)

mutual

/-- Enters a node and walks over all that hangs below it. -/
def descend (path : List Crumb) : Node → σ → σ
  | n@(.mk _ _ _ _ _ _ children), s => descendIn n path children (enter ⟨n, path⟩ s)

/-- Walks over children of a node, leaving each of them before the next one is entered. -/
def descendIn (parent : Node) (path : List Crumb) : List Node → σ → σ
  | [], s => s
  | child :: right, s =>
    descendIn parent path right
      (leave ⟨child, ⟨parent, right⟩ :: path⟩ (descend (⟨parent, right⟩ :: path) child s))

end

/-- A walk goes on from a stage after which there is another one. -/
lemma walkFrom_of_next? {stage more : Stage} (h : stage.next? = some more) (s : σ) :
    walkFrom enter leave stage s = walkFrom enter leave more (visit enter leave stage s) := by
  rw [walkFrom]
  split
  · next heq =>
    cases h.symm.trans heq
    rfl
  · next heq => exact absurd (h.symm.trans heq) (Option.some_ne_none _)

/-- A walk ends with a stage after which there is none. -/
lemma walkFrom_of_none {stage : Stage} (h : stage.next? = none) (s : σ) :
    walkFrom enter leave stage s = visit enter leave stage s := by
  rw [walkFrom]
  split
  · next heq => exact absurd (heq.symm.trans h) (Option.some_ne_none _)
  · rfl

mutual

/-- A walk that arrives at a node gets to leave it after all that hangs below it. -/
lemma walkFrom_arriving (path : List Crumb) : ∀ (n : Node) (s : σ),
    walkFrom enter leave (.arriving ⟨n, path⟩) s
      = walkFrom enter leave (.leaving ⟨n, path⟩) (descend enter leave path n s)
  | .mk _ _ _ _ _ _ [], s => walkFrom_of_next? enter leave rfl s
  | .mk id named kind field start stop (child :: right), s => by
    have hnext : (Stage.arriving ⟨.mk id named kind field start stop (child :: right), path⟩).next?
        = some (.arriving ⟨child, ⟨.mk id named kind field start stop (child :: right), right⟩
          :: path⟩) := rfl
    rw [walkFrom_of_next? enter leave hnext, walkFrom_arriving _ child,
      walkFrom_leaving _ path right child]
    rfl

/-- A walk that leaves a child gets to leave the parent after the children to the right. -/
lemma walkFrom_leaving (parent : Node) (path : List Crumb) : ∀ (right : List Node) (child : Node)
    (s : σ), walkFrom enter leave (.leaving ⟨child, ⟨parent, right⟩ :: path⟩) s
      = walkFrom enter leave (.leaving ⟨parent, path⟩)
        (descendIn enter leave parent path right (leave ⟨child, ⟨parent, right⟩ :: path⟩ s))
  | [], child, s => walkFrom_of_next? enter leave rfl s
  | next :: right, child, s => by
    have hnext : (Stage.leaving ⟨child, ⟨parent, next :: right⟩ :: path⟩).next?
        = some (.arriving ⟨next, ⟨parent, right⟩ :: path⟩) := rfl
    rw [walkFrom_of_next? enter leave hnext, walkFrom_arriving _ next,
      walkFrom_leaving parent path right next]
    rfl

end

/-- A walk over a tree is the recursion on the tree. -/
theorem walk_eq_descend (root : Node) (s : σ) :
    walk enter leave root s = leave (ofRoot root) (descend enter leave [] root s) := by
  rw [walk, ofRoot, walkFrom_arriving, walkFrom_of_none enter leave rfl]
  rfl

end Recursion

end CodeAudit.Cursor
