import CodeAudit.Proofs.Metrics.Charge
import CodeAudit.Proofs.Tree.Walk
/-!
# Counting as a recursion on the tree

The stack of a walk is the nesting of the functions and classes around a node: what a node and all
below it have pushed onto the stack is gone when the node has been left. So the walk counts what a
recursion on the tree counts that goes back to the scopes around a node after it, and that never asks
for an identity.
-/
namespace CodeAudit.Tally

/-- Counts a node that is entered below another one, if it is named. -/
def meet (r : Reading) (parent : Option Node) (n : Node) (t : Tally) : Tally :=
  if n.named then count r n (openScope r n parent t) else t

mutual

/-- Counts a node and all below it, and goes back to the scopes around it. -/
def countTree (r : Reading) (parent : Option Node) : Node → Tally → Tally
  | n@(.mk _ _ _ _ _ _ children), t =>
    { countTrees r n children (t.meet r parent n) with scopes := t.scopes }

/-- Counts some children of a node and all below them. -/
def countTrees (r : Reading) (parent : Node) : List Node → Tally → Tally
  | [], t => t
  | child :: rest, t => countTrees r parent rest (countTree r (some parent) child t)

end

variable {r : Reading} {t : Tally}

/-- After a node has been counted, the scopes are those before it. -/
lemma scopes_countTree (r : Reading) (parent : Option Node) (n : Node) (t : Tally) :
    (countTree r parent n t).scopes = t.scopes := by
  cases n
  rfl

/-- After some children have been counted, the scopes are those before them. -/
lemma scopes_countTrees (r : Reading) (parent : Node) (children : List Node) (t : Tally) :
    (countTrees r parent children t).scopes = t.scopes := by
  induction children generalizing t with
  | nil => rfl
  | cons child rest ih => rw [countTrees, ih, scopes_countTree]

/-- The scopes are those around a node, with or without one of its own on top. -/
def Around (n : Node) (outer : List Scope) (t : Tally) : Prop :=
  t.scopes = outer ∨ ∃ scope, scope.node = n.id ∧ t.scopes = scope :: outer

/-- A node that is met has its own scope on top of those around it, if any. -/
lemma around_meet (hseparate : r.profile.Separate) (parent : Option Node) (n : Node) (t : Tally) :
    (t.meet r parent n).Around n t.scopes := by
  rw [Around, meet]
  cases hnamed : n.named with
  | false => exact .inl rfl
  | true =>
    rw [if_pos rfl, count_eq_charge _ hseparate hnamed, charge_eq]
    have hopens := opens_openScope (r := r) t hnamed parent
    generalize t.openScope r n parent = next at hopens
    cases hopens with
    | function _ => exact .inr ⟨.function n.id _, rfl, rfl⟩
    | «class» _ => exact .inr ⟨.class n.id _, rfl, rfl⟩
    | none _ _ => exact .inl rfl

/-- A node that is left takes its own scope away, and no other one. -/
lemma leave_of_around {c : Cursor} {outer : List Scope} (h : t.Around c.node outer)
    (hother : ∀ scope ∈ outer, scope.node ≠ c.node.id) :
    leave c t = { t with scopes := outer } := by
  obtain ⟨decisions, cognitive, functions, classes, scopes⟩ := t
  cases h with
  | inl hsame =>
    obtain rfl : scopes = outer := hsame
    cases scopes with
    | nil => rfl
    | cons scope rest => exact if_neg (hother scope List.mem_cons_self)
  | inr hown =>
    obtain ⟨scope, hnode, hscopes⟩ := hown
    obtain rfl : scopes = scope :: outer := hscopes
    exact if_pos hnode

/-- No open scope is that of one of some nodes. -/
def Apart (ids : List Nat) (t : Tally) : Prop :=
  ∀ scope ∈ t.scopes, scope.node ∉ ids

/-- Around a node, no open scope is that of one of some others if none outside of it is. -/
lemma Around.apart {n : Node} {outer : List Scope} {ids : List Nat} (h : t.Around n outer)
    (hid : n.id ∉ ids) (houter : ∀ scope ∈ outer, scope.node ∉ ids) : t.Apart ids := by
  intro scope hscope
  obtain hsame | ⟨own, hnode, hscopes⟩ := h
  · rw [hsame] at hscope
    exact houter scope hscope
  · rw [hscopes] at hscope
    cases List.mem_cons.1 hscope with
    | inl heq =>
      rw [heq, hnode]
      exact hid
    | inr hmem => exact houter scope hmem

/-- To enter a node is to meet it below its parent. -/
lemma enter_eq_meet (c : Cursor) (t : Tally) :
    t.enter r c = t.meet r (c.path.head?.map Crumb.parent) c.node := by
  obtain ⟨n, path⟩ := c
  cases path with
  | nil => rfl
  | cons crumb up => rfl

mutual

/-- From a node's being entered to its being left a walk counts what the recursion counts. -/
lemma leave_descend (hseparate : r.profile.Separate) (path : List Crumb) :
    ∀ (n : Node) (t : Tally), n.ids.Nodup → t.Apart n.ids →
      leave ⟨n, path⟩ (Cursor.descend (enter r) leave path n t)
        = countTree r (path.head?.map Crumb.parent) n t
  | .mk id named kind field start stop children, t => by
    intro hids hapart
    rw [Node.ids_mk] at hids hapart
    obtain ⟨hid, hchildren⟩ := List.nodup_cons.1 hids
    let n : Node := .mk id named kind field start stop children
    have haround := around_meet hseparate (path.head?.map Crumb.parent) n t
    have hbelow : (t.meet r (path.head?.map Crumb.parent) n).Apart (children.flatMap Node.ids) :=
      haround.apart hid fun scope hscope hmem => hapart scope hscope (List.mem_cons_of_mem _ hmem)
    rw [Cursor.descend, enter_eq_meet, descendIn_eq hseparate n path children _ hchildren hbelow]
    apply leave_of_around
    · rw [Around, scopes_countTrees]
      exact haround
    · intro scope hscope heq
      apply hapart scope hscope
      rw [heq]
      exact List.mem_cons_self

/-- To walk over some children is to count them one by one. -/
lemma descendIn_eq (hseparate : r.profile.Separate) (parent : Node) (path : List Crumb) :
    ∀ (children : List Node) (t : Tally), (children.flatMap Node.ids).Nodup →
      t.Apart (children.flatMap Node.ids) →
      Cursor.descendIn (enter r) leave parent path children t = countTrees r parent children t
  | [], _ => fun _ _ => rfl
  | child :: rest, t => by
    intro hids hapart
    rw [List.flatMap_cons] at hids hapart
    obtain ⟨hchild, hrest, -⟩ := List.nodup_append.1 hids
    rw [Cursor.descendIn, countTrees,
      leave_descend hseparate (⟨parent, rest⟩ :: path) child t hchild
        fun scope hscope hmem => hapart scope hscope (List.mem_append_left _ hmem)]
    apply descendIn_eq hseparate parent path rest _ hrest
    intro scope hscope hmem
    rw [scopes_countTree] at hscope
    exact hapart scope hscope (List.mem_append_right _ hmem)

end

/-- If no two nodes have the same identity, the walk over a tree counts what the recursion counts. -/
theorem ofTree_eq_countTree (hseparate : r.profile.Separate) {root : Node} (hids : root.ids.Nodup) :
    ofTree r root = countTree r none root {} := by
  rw [ofTree, Cursor.walk_eq_descend]
  exact leave_descend hseparate [] root {} hids fun _ hscope => absurd hscope List.not_mem_nil

end CodeAudit.Tally
