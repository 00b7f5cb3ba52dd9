import CodeAudit.Proofs.Tree.Lineage
/-!
# The skeleton of a tree

A token that fills no field and has nothing below it is bare. What is left of a tree without its bare
tokens and without the identities of its nodes is the skeleton. Fields and named children are found in
the skeleton as they are found in the tree, and a tree from which some bare tokens have been taken away
has the same skeleton as before.
-/
namespace CodeAudit.Node

/-- A token that fills no field and has nothing below it. -/
def isBare (n : Node) : Bool :=
  !n.named && n.field.isNone && n.children.isEmpty

mutual

/-- The tree without its identities and its bare tokens. A token that has nothing but bare tokens below
it is left out with them. -/
def skeleton : Node → Node
  | mk _ named kind field start stop children =>
    mk 0 named kind field start stop (skeletonIn children)

/-- The skeletons of some trees, without the bare ones. -/
def skeletonIn : List Node → List Node
  | [] => []
  | n :: rest => if n.skeleton.isBare then skeletonIn rest else n.skeleton :: skeletonIn rest

end

mutual

/-- The tree below whose root the bare tokens with the given identities are missing. -/
def without (taken : Nat → Bool) : Node → Node
  | mk id named kind field start stop children =>
    mk id named kind field start stop (withoutIn taken children)

/-- The trees without the bare tokens that have the given identities. -/
def withoutIn (taken : Nat → Bool) : List Node → List Node
  | [] => []
  | n :: rest =>
    if n.isBare && taken n.id then withoutIn taken rest
    else n.without taken :: withoutIn taken rest

end

section Parts

variable (n : Node)

/-- A skeleton has no identity. -/
@[simp] lemma id_skeleton : n.skeleton.id = 0 := by
  cases n
  rfl

/-- A skeleton is named if its node is. -/
@[simp] lemma named_skeleton : n.skeleton.named = n.named := by
  cases n
  rfl

/-- A skeleton has the kind of its node. -/
@[simp] lemma kind_skeleton : n.skeleton.kind = n.kind := by
  cases n
  rfl

/-- A skeleton fills the field of its node. -/
@[simp] lemma field_skeleton : n.skeleton.field = n.field := by
  cases n
  rfl

/-- A skeleton starts where its node does. -/
@[simp] lemma start_skeleton : n.skeleton.start = n.start := by
  cases n
  rfl

/-- A skeleton ends where its node does. -/
@[simp] lemma stop_skeleton : n.skeleton.stop = n.stop := by
  cases n
  rfl

/-- The children of a skeleton are the skeletons of the children that are not bare. -/
lemma children_skeleton : n.skeleton.children = skeletonIn n.children := by
  cases n
  rfl

/-- A skeleton covers the text of its node. -/
@[simp] lemma text?_skeleton (source : List UInt8) : n.skeleton.text? source = n.text? source := by
  rw [text?, text?, bytes, bytes, start_skeleton, stop_skeleton]

end Parts

/-- A bare node is a token without a field and without children. -/
lemma isBare_iff {n : Node} :
    n.isBare = true ↔ n.named = false ∧ n.field = none ∧ n.children = [] := by
  simp [isBare, and_assoc]

/-- What bare tokens do not pass, and what does not depend on identities or on what is below a node, is
found in the skeleton as in the tree. -/
lemma filter_skeletonIn {test : Node → Bool} (hskeleton : ∀ n, test n.skeleton = test n)
    (hbare : ∀ n : Node, n.isBare = true → test n = false) (nodes : List Node) :
    (skeletonIn nodes).filter test = (nodes.filter test).map skeleton := by
  induction nodes with
  | nil => rfl
  | cons n rest ih =>
    rw [skeletonIn]
    split
    · next h =>
      have hfails : test n = false := by rw [← hskeleton, hbare _ h]
      rw [ih, List.filter_cons_of_neg (Bool.eq_false_iff.1 hfails)]
    · rw [List.filter_cons, List.filter_cons, hskeleton, ih]
      cases test n with
      | true => rfl
      | false => rfl

section Lookup

variable (n : Node) (field : String)

/-- The children in a field are found in the skeleton. -/
lemma childrenIn_skeleton : n.skeleton.childrenIn field = (n.childrenIn field).map skeleton := by
  rw [childrenIn, childrenIn, children_skeleton]
  apply filter_skeletonIn
  · intro child
    rw [field_skeleton]
  · intro child hbare
    rw [(isBare_iff.1 hbare).2.1]
    rfl

/-- The first child in a field is found in the skeleton. -/
@[simp] lemma child?_skeleton : n.skeleton.child? field = (n.child? field).map skeleton := by
  have hchildren := congrArg List.head? (childrenIn_skeleton n field)
  rw [List.head?_map] at hchildren
  rw [child?, child?, ← List.head?_filter, ← List.head?_filter]
  exact hchildren

/-- One field or else another one is found in the skeleton as in the tree. -/
lemma orElse_child?_skeleton (other : String) :
    (n.skeleton.child? field <|> n.skeleton.child? other)
      = (n.child? field <|> n.child? other).map skeleton := by
  rw [child?_skeleton, child?_skeleton]
  cases n.child? field with
  | some child => rfl
  | none => rfl

/-- What is read of a node that is found is read of its skeleton. -/
lemma bind_text?_skeleton (found : Option Node) (source : List UInt8) :
    (found.map skeleton).bind (·.text? source) = found.bind (·.text? source) := by
  cases found with
  | some child => exact text?_skeleton child source
  | none => rfl

/-- The named children are found in the skeleton. -/
@[simp] lemma namedChildren_skeleton :
    n.skeleton.namedChildren = n.namedChildren.map skeleton := by
  rw [namedChildren, namedChildren, children_skeleton]
  exact filter_skeletonIn named_skeleton (fun child hbare => (isBare_iff.1 hbare).1) n.children

end Lookup

/-- The skeleton of a bare node is bare. -/
lemma isBare_skeleton {n : Node} (h : n.isBare = true) : n.skeleton.isBare = true := by
  obtain ⟨hnamed, hfield, hchildren⟩ := isBare_iff.1 h
  rw [isBare_iff, named_skeleton, field_skeleton, children_skeleton, hchildren]
  exact ⟨hnamed, hfield, rfl⟩

mutual

/-- Taking away bare tokens leaves the skeleton as it is. -/
lemma skeleton_without (taken : Nat → Bool) : ∀ n : Node, (n.without taken).skeleton = n.skeleton
  | mk _ _ _ _ _ _ children => by
    rw [without, skeleton, skeleton, skeletonIn_withoutIn taken children]

/-- Trees without some bare tokens have the same skeletons. -/
lemma skeletonIn_withoutIn (taken : Nat → Bool) :
    ∀ nodes : List Node, skeletonIn (withoutIn taken nodes) = skeletonIn nodes
  | [] => rfl
  | n :: rest => by
    rw [withoutIn]
    split
    · next h =>
      have hbare : n.isBare = true := (Bool.and_eq_true_iff.1 h).1
      rw [skeletonIn, if_pos (isBare_skeleton hbare), skeletonIn_withoutIn taken rest]
    · rw [skeletonIn, skeletonIn, skeleton_without taken n, skeletonIn_withoutIn taken rest]

end

/-- Whether a node stays when bare tokens are taken away. -/
def stays (taken : Nat → Bool) (n : Node) : Bool :=
  !(n.isBare && taken n.id)

mutual

/-- The nodes that are left of a tree are the root and, in the order in which they were, those that stay. -/
lemma ids_without (taken : Nat → Bool) (above : List Node) : ∀ n : Node,
    (n.without taken).ids
      = n.id :: ((lineagesIn (n :: above) n.children).filter (·.node.stays taken)).map (·.node.id)
  | mk id named kind field start stop children => by
    rw [without, ids_mk, ids_withoutIn taken _ children]
    rfl

/-- Trees without some bare tokens have the identities of the nodes that stay. -/
lemma ids_withoutIn (taken : Nat → Bool) (above : List Node) : ∀ nodes : List Node,
    (withoutIn taken nodes).flatMap ids
      = ((lineagesIn above nodes).filter (·.node.stays taken)).map (·.node.id)
  | [] => rfl
  | n :: rest => by
    have hrest := ids_withoutIn taken above rest
    have hlineages : n.lineagesBelow above = ⟨n, above⟩ :: lineagesIn (n :: above) n.children := by
      cases n
      rfl
    rw [lineagesIn, hlineages, List.filter_append, List.map_append, ← hrest, withoutIn]
    split
    · next h =>
      have hgoes : n.stays taken = false := by rw [stays, h, Bool.not_true]
      have hchildren : n.children = [] := (isBare_iff.1 (Bool.and_eq_true_iff.1 h).1).2.2
      rw [hchildren, List.filter_cons, if_neg (Bool.eq_false_iff.1 hgoes)]
      rfl
    · next h =>
      have hstays : n.stays taken = true := by rw [stays, Bool.eq_false_iff.2 h, Bool.not_false]
      rw [List.filter_cons, if_pos hstays, List.flatMap_cons, ids_without taken above n]
      rfl

end

/-- Identities that were different stay different. -/
lemma nodup_ids_without (taken : Nat → Bool) {n : Node} (h : n.ids.Nodup) :
    (n.without taken).ids.Nodup := by
  refine h.sublist ?_
  cases n
  rw [ids_without taken [], ids_mk, ← map_id_lineagesIn]
  exact (List.filter_sublist.map _).cons_cons _

end CodeAudit.Node
