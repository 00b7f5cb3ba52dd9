import CodeAudit.Proofs.Metrics.Attribution
/-!
# The stack of scopes

The scopes that a walk is in are a stack. Just after a node has been entered, the stack is made of the
functions and classes on the path from the root to the node, each with the place of its own entry. A
node that is left takes away the scope that it has opened, and no other one. So the scopes are those of
the path whatever stage the walk has come to, and in the end there are none.
-/
namespace CodeAudit

/-- The scope that a node of a tree opens, if it opens one: a function has its place among the functions
of the tree, and a class its place among the classes. -/
def Reading.scope? (r : Reading) (root n : Node) : Option Scope :=
  if r.profile.opensFunction n then some (.function n.id (r.functionLedger.place root n))
  else if r.profile.opensClass n then some (.class n.id (r.classLedger.place root n))
  else none

/-- The measures at the place that a scope knows are those of a node, as far as a walk has met what
belongs to it. -/
def Scope.PointsTo (r : Reading) (met : List Lineage) (t : Tally) (l : Lineage) : Scope → Prop
  | function _ index => ∃ f, t.functions[index]? = some f ∧ f.MeasuresOf r met l
  | «class» _ index => ∃ c, t.classes[index]? = some c ∧ c.MeasuresOf r met l

/-- The scopes of a walk, outermost first, are those of the functions and classes on a path from the
root, and each of them points to the entry of its own node. -/
structure Tally.InScopesOf (r : Reading) (root : Node) (met : List Lineage) (path : List Node)
    (t : Tally) : Prop where
  scopes : t.scopes.reverse = path.filterMap (r.scope? root)
  entries : ∀ l ∈ Lineage.upwards path.reverse, ∀ scope, r.scope? root l.node = some scope →
    scope.PointsTo r met t l

/-- What becomes of the scopes in a walk over a tree. -/
structure Tally.StacksScopes (r : Reading) (root : Node) : Prop where
  /-- When a node has been entered, the scopes are those of the path to the node. -/
  entered : ∀ met c t, Cursor.Reaches (enter r) leave root {} met (.arriving c) t →
    met ++ [c.lineage] <+: root.lineages ∧
      (t.enter r c).InScopesOf r root (met ++ [c.lineage]) c.ancestry ∧
      (t.enter r c).scopes = (r.scope? root c.node).toList ++ t.scopes
  /-- When a node has been left, the scopes are those of the path without the node. -/
  left : ∀ met c t, Cursor.Reaches (enter r) leave root {} met (.leaving c) t →
    met <+: root.lineages ∧ c.lineage ∈ met ∧
      (t.leave c).InScopesOf r root met c.ancestry.dropLast ∧
      t.scopes = (r.scope? root c.node).toList ++ (t.leave c).scopes
  /-- Every node is entered and left. -/
  everyNode : ∀ l ∈ root.lineages, ∃ c : Cursor, c.lineage = l ∧
    (∃ met t, Cursor.Reaches (enter r) leave root {} met (.arriving c) t) ∧
    ∃ met t, Cursor.Reaches (enter r) leave root {} met (.leaving c) t
  /-- From every stage the walk goes on to its result. -/
  goesOn : ∀ met stage t, Cursor.Reaches (enter r) leave root {} met stage t →
    ofTree r root = Cursor.walkFrom (enter r) leave stage t
  /-- The last thing that is done is to leave the root. -/
  ends : ∃ t, Cursor.Reaches (enter r) leave root {} root.lineages (.leaving (.ofRoot root)) t ∧
    ofTree r root = t.leave (.ofRoot root)
  closed : (ofTree r root).scopes = []

section Walk

variable {r : Reading} {root : Node} {met : List Lineage} {t : Tally}

/-- The scope of a node that has been met is the one that the node has in the tree. -/
lemma Scope.StandsFor.scope?_eq {scope : Scope} {n : Node} (h : scope.StandsFor r met n)
    (hseparate : r.profile.Separate) (hfront : met <+: root.lineages) (hids : root.ids.Nodup) :
    r.scope? root n = some scope := by
  cases scope with
  | function id index =>
    obtain ⟨hopens, rfl, hat⟩ := h
    rw [Reading.scope?, if_pos hopens, hat.place_eq hfront hids]
  | «class» id index =>
    obtain ⟨hopens, rfl, hat⟩ := h
    have hfunction : ¬ r.profile.opensFunction n = true :=
      Bool.eq_false_iff.1 (hseparate.opensFunction_eq_false hopens)
    rw [Reading.scope?, if_neg hfunction, if_pos hopens, hat.place_eq hfront hids]

/-- A node that opens no scope has none. -/
lemma Reading.scope?_eq_none {n : Node} (h : r.profile.opensScope n = false) :
    r.scope? root n = none := by
  obtain ⟨hfunction, hclass⟩ := Bool.or_eq_false_iff.1 h
  rw [scope?, if_neg (Bool.eq_false_iff.1 hfunction), if_neg (Bool.eq_false_iff.1 hclass)]

/-- Scopes that stand for the functions and classes among some nodes are the scopes of these nodes. -/
lemma Scope.eq_filterMap {scopes : List Scope} {current : List Node}
    (h : List.Forall₂ (StandsFor r met) scopes (current.filter r.profile.opensScope))
    (hseparate : r.profile.Separate) (hfront : met <+: root.lineages) (hids : root.ids.Nodup) :
    scopes = current.filterMap (r.scope? root) := by
  -- by induction on the nodes: one that opens no scope is passed over on both sides
  induction current generalizing scopes with
  | nil =>
    cases h
    rfl
  | cons n rest ih =>
    cases hopens : r.profile.opensScope n with
    | false =>
      rw [List.filter_cons_of_neg (Bool.eq_false_iff.1 hopens)] at h
      rw [List.filterMap_cons_none (Reading.scope?_eq_none hopens)]
      exact ih h
    | true =>
      rw [List.filter_cons_of_pos hopens] at h
      cases h with
      | cons hscope hscopes =>
        rw [List.filterMap_cons_some (hscope.scope?_eq hseparate hfront hids), ih hscopes]

namespace Tally

/-- The scope of a node that has been met points to the entry of the node. -/
lemma Follows.pointsTo {current : List Node} {l : Lineage} {scope : Scope}
    (h : Follows r met met current t) (hfront : met <+: root.lineages) (hids : root.ids.Nodup)
    (hl : l ∈ met) (hscope : r.scope? root l.node = some scope) : scope.PointsTo r met t l := by
  rw [Reading.scope?] at hscope
  split at hscope
  · next hopens =>
    cases hscope
    refine ⟨r.functionLedger.entry met l, ?_, Reading.measuresOf_functionEntry l⟩
    rw [← Array.getElem?_toList, h.functions]
    exact Ledger.getElem?_entries_place hfront hids hl hopens
  · split at hscope
    · next hopens =>
      cases hscope
      refine ⟨r.classLedger.entry met l, ?_, Reading.measuresOf_classEntry l⟩
      rw [← Array.getElem?_toList, h.classes]
      exact Ledger.getElem?_entries_place hfront hids hl hopens
    · cases hscope

/-- The scopes of the nodes of a lineage are that of its node, if there is one, and those above. -/
lemma filterMap_scope?_nodes (l : Lineage) :
    l.nodes.filterMap (r.scope? root)
      = (r.scope? root l.node).toList ++ l.above.filterMap (r.scope? root) := by
  rw [Lineage.nodes, List.filterMap_cons]
  cases r.scope? root l.node <;> rfl

section Reached

variable {stage : Stage} (hseparate : r.profile.Separate) (hids : root.ids.Nodup)
  (h : Cursor.Reaches (enter r) leave root {} met stage t)
include hseparate hids h

/-- When a walk comes to a stage, its scopes are those of the open nodes. -/
lemma scopes_of_reaches : t.scopes = stage.openBefore.filterMap (r.scope? root) := by
  obtain ⟨-, hfollows⟩ := (keptBy_walk hseparate hids).reaches (follows_nil r) h
  exact Scope.eq_filterMap hfollows.scopes hseparate h.met_prefix hids

/-- What a walk has counted when a stage is done, and the scopes that it is in then. -/
lemma follows_visit :
    Follows r (met ++ stage.entering) (met ++ stage.entering) stage.openAfter
      (Cursor.visit (enter r) leave stage t) := by
  have hkept := keptBy_walk hseparate hids
  have hbefore := hkept.reaches (follows_nil r) h
  exact (hkept.visit h hbefore).2

/-- A stage of the walk leaves the scopes of the nodes that are open after it. -/
lemma scopes_visit :
    (Cursor.visit (enter r) leave stage t).scopes
      = stage.openAfter.filterMap (r.scope? root) := by
  have hfollows := follows_visit hseparate hids h
  exact Scope.eq_filterMap hfollows.scopes hseparate h.met_append_entering hids

/-- When a stage is done, the scopes are those of the path to the innermost open node. -/
lemma inScopesOf_visit :
    (Cursor.visit (enter r) leave stage t).InScopesOf r root (met ++ stage.entering)
      stage.openAfter.reverse := by
  constructor
  case scopes => rw [scopes_visit hseparate hids h, List.filterMap_reverse]
  case entries =>
    intro l hl scope hscope
    rw [List.reverse_reverse] at hl
    have hmet := Cursor.upwards_openAfter_subset h.upwards_subset hl
    have hfollows := follows_visit hseparate hids h
    exact hfollows.pointsTo h.met_append_entering hids hmet hscope

end Reached

end Tally

end Walk

/-- In a tree whose nodes have different identities the scopes of a walk are a stack: each is opened by
a node and closed by the same node, so the walk is in those of the path from the root to where it is. -/
theorem Tally.stacksScopes_ofTree (language : Language) (source : String) (root : Node)
    (hids : root.ids.Nodup) : StacksScopes (.of language source) root := by
  have hseparate := language.separate_profile
  constructor
  case entered =>
    intro met c t h
    refine ⟨h.met_append_entering, inScopesOf_visit hseparate hids h, ?_⟩
    rw [scopes_of_reaches hseparate hids h]
    exact (scopes_visit hseparate hids h).trans (filterMap_scope?_nodes c.lineage)
  case left =>
    intro met c t h
    have hscopes := inScopesOf_visit hseparate hids h
    have hpath : c.ancestry.dropLast = c.lineage.above.reverse := List.dropLast_reverse
    rw [Stage.entering, List.append_nil] at hscopes
    rw [hpath]
    refine ⟨h.met_prefix, h.upwards_subset List.mem_cons_self, hscopes, ?_⟩
    rw [scopes_of_reaches hseparate hids h]
    refine (filterMap_scope?_nodes c.lineage).trans ?_
    exact congrArg _ (scopes_visit hseparate hids h).symm
  case everyNode =>
    intro l hl
    exact Cursor.exists_reaches _ _ root _ hl
  case goesOn =>
    intro met stage t h
    exact h.walk_eq
  case ends => exact Cursor.exists_reaches_end _ _ root _
  case closed =>
    obtain ⟨-, hfollows⟩ := follows_ofTree (r := .of language source) hseparate hids
    exact Scope.eq_filterMap hfollows.scopes hseparate List.prefix_rfl hids

/-- The loop is in an anonymous function of a class in a method of another class. When the walk has
entered the loop there are four scopes; the method and the anonymous function have the first and the
second entry of the functions. -/
theorem nestedTree_stacksScopes :
    nestedTree.ids.Nodup ∧ Tally.StacksScopes (.of .typescript "") nestedTree ∧
      ∃ met c t, Cursor.Reaches (Tally.enter (.of .typescript "")) Tally.leave nestedTree {} met
          (.arriving c) t ∧ c.node.id = 8 ∧
        (t.enter (.of .typescript "") c).scopes.reverse
          = [.class 1 0, .function 3 0, .class 5 1, .function 7 1] := by
  have hids : nestedTree.ids.Nodup := Node.nodup_ids_ofPreorder? ofPreorder?_nestedTree
  have hstacks := Tally.stacksScopes_ofTree .typescript "" nestedTree hids
  have hloop : ∃ l ∈ nestedTree.lineages, l.node.id = 8 ∧
      l.nodes.reverse.filterMap ((Reading.of .typescript "").scope? nestedTree)
        = [.class 1 0, .function 3 0, .class 5 1, .function 7 1] := by
    decide +kernel
  obtain ⟨l, hl, hid, hscopes⟩ := hloop
  obtain ⟨c, rfl, ⟨met, t, hreaches⟩, -⟩ := hstacks.everyNode l hl
  exact ⟨hids, hstacks, met, c, t, hreaches, hid,
    (hstacks.entered met c t hreaches).2.1.scopes.trans hscopes⟩

end CodeAudit
