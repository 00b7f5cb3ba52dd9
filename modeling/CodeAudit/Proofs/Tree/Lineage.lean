import CodeAudit.Tree.Cursor
import Mathlib
/-!
# Lineages

A node of a tree together with the nodes above it, and the list of the lineages of all nodes of a
tree, parents before their children. In a tree that is put together from a list of its nodes, the
identities of the nodes are their places in that list.
-/
namespace CodeAudit

/-- A node of a tree and the nodes above it, innermost first. -/
structure Lineage where
  node : Node
  above : List Node

namespace Lineage

/-- The node and those above it, innermost first. -/
def nodes (l : Lineage) : List Node :=
  l.node :: l.above

/-- The innermost of these nodes that passes a test. -/
def nearest? (test : Node → Bool) (l : Lineage) : Option Node :=
  l.nodes.find? test

end Lineage

/-- The node that a cursor stands on, and those on the way back to the root. -/
def Cursor.lineage (c : Cursor) : Lineage :=
  ⟨c.node, c.path.map Crumb.parent⟩

namespace Node

mutual

/-- The lineages of a node and of all nodes below it, parents first. -/
def lineagesBelow (above : List Node) : Node → List Lineage
  | n@(mk _ _ _ _ _ _ children) => ⟨n, above⟩ :: lineagesIn (n :: above) children

/-- The lineages of some nodes that stand side by side, and of all nodes below them. -/
def lineagesIn (above : List Node) : List Node → List Lineage
  | [] => []
  | n :: rest => lineagesBelow above n ++ lineagesIn above rest

end

/-- The lineages of the nodes of a tree, parents first. -/
def lineages (root : Node) : List Lineage :=
  lineagesBelow [] root

/-- The identities of the nodes of a tree, parents first. -/
def ids (root : Node) : List Nat :=
  root.lineages.map (·.node.id)

mutual

/-- Which identities there are below a node does not depend on what is above it. -/
lemma map_id_lineagesBelow (above : List Node) :
    ∀ n : Node, (lineagesBelow above n).map (·.node.id) = n.ids
  | mk _ _ _ _ _ _ children => by
    rw [ids, lineages, lineagesBelow, lineagesBelow, List.map_cons, List.map_cons,
      map_id_lineagesIn _ children, map_id_lineagesIn _ children]

/-- Which identities there are below some nodes does not depend on what is above them. -/
lemma map_id_lineagesIn (above : List Node) :
    ∀ nodes : List Node, (lineagesIn above nodes).map (·.node.id) = nodes.flatMap ids
  | [] => rfl
  | n :: rest => by
    rw [lineagesIn, List.map_append, map_id_lineagesBelow above n, map_id_lineagesIn above rest,
      List.flatMap_cons]

end

/-- The identity of a node comes before those below it. -/
lemma ids_mk (id : Nat) (named : Bool) (kind : String) (field : Option String) (start stop : Nat)
    (children : List Node) :
    (mk id named kind field start stop children).ids = id :: children.flatMap ids := by
  rw [ids, lineages, lineagesBelow, List.map_cons, map_id_lineagesIn]
  rfl

/-- Putting an entry above some trees puts its identity before theirs. -/
lemma flatMap_ids_place (e : PreorderEntry) (id : Nat) (trees : List (Nat × Node)) :
    ((place (e, id) trees).map Prod.snd).flatMap ids = id :: (trees.map Prod.snd).flatMap ids := by
  rw [place, List.map_cons, List.flatMap_cons, ids_mk, List.cons_append, ← List.flatMap_append,
    ← List.map_append, List.takeWhile_append_dropWhile]

/-- The identities of the nodes of a tree are their places in the list that it is made from. -/
theorem ids_ofPreorder? {entries : List PreorderEntry} {root : Node}
    (h : ofPreorder? entries = some root) : root.ids = List.range entries.length := by
  -- the fold starts at the last entry, so the identities on the stack count up from the entry at hand
  have hplaced : ∀ (rest : List PreorderEntry) (first : Nat),
      (((rest.zipIdx first).foldr place []).map Prod.snd).flatMap ids
        = List.range' first rest.length := by
    intro rest
    induction rest with
    | nil => exact fun first => rfl
    | cons e rest ih =>
      intro first
      rw [List.zipIdx_cons, List.foldr_cons, flatMap_ids_place, ih, List.length_cons,
        List.range'_succ]
  have hentries := hplaced entries 0
  rw [ofPreorder?] at h
  split at h
  · next depth tree hfold =>
    cases h
    rw [hfold] at hentries
    rw [List.range_eq_range', ← hentries]
    exact (List.append_nil _).symm
  · cases h

/-- So no two nodes of such a tree have the same identity. -/
theorem nodup_ids_ofPreorder? {entries : List PreorderEntry} {root : Node}
    (h : ofPreorder? entries = some root) : root.ids.Nodup := by
  rw [ids_ofPreorder? h]
  exact List.nodup_range

end Node

end CodeAudit
