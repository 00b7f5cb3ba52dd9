import CodeAudit.Proofs.Metrics.Charge
import CodeAudit.Proofs.Tree.Reach
/-!
# The scopes of a walk

While a walk counts, its stack of scopes is made of the functions and classes that the walk is in,
innermost first, each with the place of its entry; so the innermost function is at the same time the
one whose territory a node is in. The entries of a walk are those of the ledgers.
-/
namespace CodeAudit

/-- Whether a node opens a scope. -/
def Profile.opensScope (p : Profile) (n : Node) : Bool :=
  p.opensFunction n || p.opensClass n

/-- A scope is the one of a node, whose entry stands where the scope says. -/
def Scope.StandsFor (r : Reading) (opened : List Lineage) : Scope → Node → Prop
  | function id index, n =>
    r.profile.opensFunction n = true ∧ id = n.id ∧ r.functionLedger.At opened index n
  | «class» id index, n =>
    r.profile.opensClass n = true ∧ id = n.id ∧ r.classLedger.At opened index n

namespace Scope

variable {r : Reading} {opened : List Lineage} {scope : Scope} {n : Node}

/-- The node of a scope has its identity. -/
lemma StandsFor.node_eq (h : scope.StandsFor r opened n) : scope.node = n.id := by
  cases scope with
  | function id index => exact h.2.1
  | «class» id index => exact h.2.1

/-- A scope stays that of its node when more nodes are met. -/
lemma StandsFor.concat (h : scope.StandsFor r opened n) (l : Lineage) :
    scope.StandsFor r (opened ++ [l]) n := by
  cases scope with
  | function id index => exact ⟨h.1, h.2.1, h.2.2.concat l⟩
  | «class» id index => exact ⟨h.1, h.2.1, h.2.2.concat l⟩

/-- The places that scopes know are those of the entries of a ledger. -/
structure PointsInto {α : Type} (r : Reading) (opened : List Lineage) (index? : Scope → Option Nat)
    (b : Ledger α) : Prop where
  stands : ∀ scope n, StandsFor r opened scope n →
    (b.opens n = true ∧ ∃ index, index? scope = some index ∧ b.At opened index n) ∨
    (b.opens n = false ∧ index? scope = none)
  skip : ∀ n, r.profile.opensScope n = false → b.opens n = false

/-- The scopes of functions know the places of their entries, and those of classes know none. -/
lemma functionIndex?_pointsInto (hseparate : r.profile.Separate) :
    PointsInto r opened functionIndex? r.functionLedger := by
  constructor
  · intro scope n h
    cases scope with
    | function id index => exact .inl ⟨h.1, index, rfl, h.2.2⟩
    | «class» id index => exact .inr ⟨hseparate.opensFunction_eq_false h.1, rfl⟩
  · intro n h
    rw [Profile.opensScope, Bool.or_eq_false_iff] at h
    exact h.1

/-- The scopes of classes know the places of their entries, and those of functions know none. -/
lemma classIndex?_pointsInto (hseparate : r.profile.Separate) :
    PointsInto r opened classIndex? r.classLedger := by
  constructor
  · intro scope n h
    cases scope with
    | function id index => exact .inr ⟨hseparate.opensClass_eq_false h.1, rfl⟩
    | «class» id index => exact .inl ⟨h.1, index, rfl, h.2.2⟩
  · intro n h
    rw [Profile.opensScope, Bool.or_eq_false_iff] at h
    exact h.2

section PointsInto

variable {α : Type} {b : Ledger α} {index? : Scope → Option Nat}

/-- The innermost scope that knows a place is that of the innermost node with an entry. -/
lemma PointsInto.innermost (hpoints : PointsInto r opened index? b) {current : List Node}
    {scopes : List Scope}
    (h : List.Forall₂ (StandsFor r opened) scopes (current.filter r.profile.opensScope)) :
    (current.find? b.opens = none ∧ scopes.findSome? index? = none) ∨
      ∃ n index, current.find? b.opens = some n ∧ scopes.findSome? index? = some index ∧
        b.At opened index n := by
  -- by induction on the open nodes: one that opens no scope is passed over on both sides
  induction current generalizing scopes with
  | nil =>
    cases h
    exact .inl ⟨rfl, rfl⟩
  | cons n rest ih =>
    cases hopens : r.profile.opensScope n with
    | false =>
      rw [List.filter_cons_of_neg (Bool.eq_false_iff.1 hopens)] at h
      rw [List.find?_cons_of_neg (Bool.eq_false_iff.1 (hpoints.skip n hopens))]
      exact ih h
    | true =>
      rw [List.filter_cons_of_pos hopens] at h
      cases h with
      | cons hscope hscopes =>
        obtain ⟨hpos, index, hindex, hat⟩ | ⟨hneg, hnone⟩ := hpoints.stands _ _ hscope
        · rw [List.find?_cons_of_pos hpos, List.findSome?_cons, hindex]
          exact .inr ⟨n, index, rfl, rfl, hat⟩
        · rw [List.find?_cons_of_neg (Bool.eq_false_iff.1 hneg), List.findSome?_cons, hnone]
          exact ih hscopes

/-- What a node is charged for goes to the entry that the innermost scope points to. -/
lemma PointsInto.entries_charge (hpoints : PointsInto r opened index? b)
    (hids : (opened.map (·.node.id)).Nodup) {l : Lineage} {scopes : List Scope}
    (h : List.Forall₂ (StandsFor r opened) scopes (l.nodes.filter r.profile.opensScope))
    (counted : List Lineage) :
    ((scopes.findSome? index?).elim (b.entries opened counted) fun index =>
        (b.entries opened counted).modify index (b.charge l.node))
      = b.entries opened (counted ++ [l]) := by
  obtain ⟨hnone, hindex⟩ | ⟨n, index, hsome, hindex, hat⟩ := hpoints.innermost h
  · rw [hindex]
    exact (Ledger.entries_charge_none hnone).symm
  · rw [hindex]
    exact (Ledger.entries_charge_some hids hsome hat).symm

end PointsInto

end Scope

namespace Tally

/-- What a walk has counted, and the scopes that it is in, after some nodes have been met and some of
these have been counted. -/
structure Follows (r : Reading) (opened counted : List Lineage) (current : List Node) (t : Tally) :
    Prop where
  scopes : List.Forall₂ (Scope.StandsFor r opened) t.scopes (current.filter r.profile.opensScope)
  decisions : t.decisions = counted.countP fun l => r.profile.isDecision l.node
  points : t.cognitive = counted.countP fun l => r.profile.isPoint l.node
  functions : t.functions.toList = r.functionLedger.entries opened counted
  classes : t.classes.toList = r.classLedger.entries opened counted

variable {r : Reading} {opened counted : List Lineage} {t : Tally} {l : Lineage}

/-- One more item counts if it passes the test. -/
lemma countP_concat {α : Type} (q : α → Bool) (items : List α) (item : α) :
    (items ++ [item]).countP q = items.countP q + (q item).toNat := by
  rw [List.countP_append, List.countP_singleton]
  cases q item <;> rfl

/-- A node that opens no scope is met without a trace. -/
lemma Follows.skip (h : Follows r opened counted l.above t)
    (hopens : r.profile.opensScope l.node = false) :
    Follows r (opened ++ [l]) counted l.nodes t := by
  obtain ⟨hfunction, hclass⟩ := Bool.or_eq_false_iff.1 hopens
  refine ⟨?_, h.decisions, h.points, ?_, ?_⟩
  · rw [Lineage.nodes, List.filter_cons_of_neg (Bool.eq_false_iff.1 hopens)]
    exact h.scopes.imp fun _ _ hscope => hscope.concat l
  · rw [Ledger.entries_concat_of_neg hfunction]
    exact h.functions
  · rw [Ledger.entries_concat_of_neg hclass]
    exact h.classes

/-- A token is met and counted without a trace. -/
lemma Follows.token (h : Follows r opened counted l.above t) (htoken : l.node.named = false) :
    Follows r (opened ++ [l]) (counted ++ [l]) l.nodes t := by
  have hopens : r.profile.opensScope l.node = false := by
    rw [Profile.opensScope, Profile.opensFunction, Profile.opensClass, htoken]
    rfl
  have hmet := h.skip hopens
  refine ⟨hmet.scopes, ?_, ?_, ?_, ?_⟩
  · rw [h.decisions, countP_concat, Profile.isDecision, htoken]
    rfl
  · rw [h.points, countP_concat, Profile.isPoint, htoken]
    rfl
  · rw [Ledger.entries_charge_id (Reading.chargeFunction_of_token htoken)]
    exact hmet.functions
  · rw [Ledger.entries_charge_id (Reading.chargeClass_of_token htoken)]
    exact hmet.classes

/-- A node that is met opens its scope. -/
lemma Follows.openScope (hseparate : r.profile.Separate) (h : Follows r opened counted l.above t)
    (hnamed : l.node.named = true) (hnew : ∀ test, territory test counted l.node = []) :
    Follows r (opened ++ [l]) counted l.nodes (t.openScope r l.node l.above.head?) := by
  have hscopes : List.Forall₂ (Scope.StandsFor r (opened ++ [l])) t.scopes
      (l.above.filter r.profile.opensScope) :=
    h.scopes.imp fun _ _ hscope => hscope.concat l
  have hopens := opens_openScope (r := r) t hnamed l.above.head?
  generalize t.openScope r l.node l.above.head? = next at hopens
  cases hopens with
  | function hfunction =>
    refine ⟨?_, h.decisions, h.points, ?_, ?_⟩
    · rw [Lineage.nodes, List.filter_cons_of_pos (by simp [Profile.opensScope, hfunction])]
      -- the entry of the node is the one that is put at the end
      refine .cons ⟨hfunction, rfl, ?_⟩ hscopes
      rw [← Array.length_toList, h.functions]
      exact Ledger.at_length hfunction
    · rw [Array.toList_push, h.functions, Ledger.entries_concat_of_pos hfunction (hnew _)]
      rfl
    · rw [Ledger.entries_concat_of_neg (hseparate.opensClass_eq_false hfunction)]
      exact h.classes
  | «class» hclass =>
    refine ⟨?_, h.decisions, h.points, ?_, ?_⟩
    · rw [Lineage.nodes, List.filter_cons_of_pos (by simp [Profile.opensScope, hclass])]
      refine .cons ⟨hclass, rfl, ?_⟩ hscopes
      rw [← Array.length_toList, h.classes]
      exact Ledger.at_length hclass
    · rw [Ledger.entries_concat_of_neg (hseparate.opensFunction_eq_false hclass)]
      exact h.functions
    · rw [Array.toList_push, h.classes, Ledger.entries_concat_of_pos hclass (hnew _)]
      rfl
  | none hfunction hclass =>
    apply h.skip
    rw [Profile.opensScope, hfunction, hclass, Bool.or_self]

/-- A node that has been met is counted. -/
lemma Follows.count (hseparate : r.profile.Separate) (h : Follows r opened counted l.nodes t)
    (hnamed : l.node.named = true) (hids : (opened.map (·.node.id)).Nodup) :
    Follows r opened (counted ++ [l]) l.nodes (t.count r l.node) := by
  rw [count_eq_charge t hseparate hnamed, charge_eq]
  refine ⟨h.scopes, ?_, ?_, ?_, ?_⟩
  · rw [h.decisions, countP_concat]
  · rw [h.points, countP_concat]
  · rw [toList_modifyAt, h.functions]
    exact (Scope.functionIndex?_pointsInto hseparate).entries_charge hids h.scopes counted
  · rw [toList_modifyAt, h.classes]
    exact (Scope.classIndex?_pointsInto hseparate).entries_charge hids h.scopes counted

/-- A node that is left closes its scope. -/
lemma Follows.leave {c : Cursor} (h : Follows r opened counted c.lineage.nodes t)
    (hapart : ∀ a ∈ c.lineage.above, a.id ≠ c.lineage.node.id) :
    Follows r opened counted c.lineage.above (t.leave c) := by
  obtain ⟨decisions, cognitive, functions, classes, scopes⟩ := t
  have hscopes := h.scopes
  rw [Lineage.nodes] at hscopes
  cases hopens : r.profile.opensScope c.lineage.node with
  | true =>
    rw [List.filter_cons_of_pos hopens] at hscopes
    cases hscopes with
    | @cons scope _ outer _ hscope houter =>
      have hpops : Tally.leave c ⟨decisions, cognitive, functions, classes, scope :: outer⟩
          = ⟨decisions, cognitive, functions, classes, outer⟩ := if_pos hscope.node_eq
      rw [hpops]
      exact ⟨houter, h.decisions, h.points, h.functions, h.classes⟩
  | false =>
    rw [List.filter_cons_of_neg (Bool.eq_false_iff.1 hopens)] at hscopes
    -- the scope on top, if there is one, is that of a node above, which has another identity
    have hstays : Tally.leave c ⟨decisions, cognitive, functions, classes, scopes⟩
        = ⟨decisions, cognitive, functions, classes, scopes⟩ := by
      generalize hcurrent : c.lineage.above.filter r.profile.opensScope = current at hscopes
      cases hscopes with
      | nil => rfl
      | @cons scope a outer rest hscope houter =>
        have ha : a ∈ c.lineage.above := by
          refine List.mem_of_mem_filter (p := r.profile.opensScope) ?_
          rw [hcurrent]
          exact List.mem_cons_self
        refine if_neg fun heq => hapart a ha ?_
        rw [← hscope.node_eq]
        exact heq
    rw [hstays]
    exact ⟨hscopes, h.decisions, h.points, h.functions, h.classes⟩

/-- The innermost node above a cursor is that of its parent. -/
lemma head?_above (c : Cursor) : c.lineage.above.head? = c.parent?.map Cursor.node := by
  obtain ⟨node, path⟩ := c
  cases path <;> rfl

/-- Entering and leaving nodes, a walk counts what it meets. -/
lemma keptBy_walk {root : Node} (hseparate : r.profile.Separate) (hids : root.ids.Nodup) :
    Cursor.KeptBy
      (fun entered current t => Lineage.Placed entered ∧ Follows r entered entered current t)
      (Tally.enter r) Tally.leave root := by
  constructor
  · rintro entered c t hfront habove ⟨hplaced, hfollows⟩
    have hnodup : ((entered ++ [c.lineage]).map (·.node.id)).Nodup :=
      hids.sublist (hfront.sublist.map _)
    refine ⟨hplaced.concat habove hnodup, ?_⟩
    cases hnamed : c.node.named with
    | false =>
      rw [Tally.enter, hnamed, if_neg Bool.false_ne_true]
      exact hfollows.token hnamed
    | true =>
      have hnew : c.lineage.node.id ∉ entered.map (·.node.id) := by
        rw [List.map_append, List.nodup_append] at hnodup
        exact fun hmem => hnodup.2.2 _ hmem _ (List.mem_singleton_self _) rfl
      rw [Tally.enter, hnamed, if_pos rfl, ← head?_above]
      exact (hfollows.openScope hseparate hnamed fun test => territory_eq_nil hplaced hnew).count
        hseparate hnamed hnodup
  · rintro entered c t - hmem ⟨hplaced, hfollows⟩
    exact ⟨hplaced, hfollows.leave (hplaced.apart _ hmem)⟩

/-- Before a walk nothing is counted, and no scope is open. -/
lemma follows_nil (r : Reading) : Lineage.Placed [] ∧ Follows r [] [] [] {} :=
  ⟨⟨nofun, nofun⟩, .nil, rfl, rfl, rfl, rfl⟩

/-- After a walk over a tree the counts and the entries are those of the tree, and no scope is open. -/
theorem follows_ofTree {root : Node} (hseparate : r.profile.Separate) (hids : root.ids.Nodup) :
    Lineage.Placed root.lineages ∧
      Follows r root.lineages root.lineages [] (Tally.ofTree r root) :=
  (keptBy_walk hseparate hids).walk (follows_nil r)

end Tally

end CodeAudit
