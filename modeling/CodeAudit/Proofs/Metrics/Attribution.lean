import CodeAudit.Proofs.Metrics.Scopes
/-!
# Which function and which class a decision belongs to

The measures of a function are counted over its territory: over the nodes whose innermost function it
is, whatever classes are in between. In the same way the complexity of a class is counted over the
nodes whose innermost class it is. So no decision counts twice, and none is lost.
-/
namespace CodeAudit

namespace NameSet

/-- What is in a set after a name has been added. -/
lemma mem_insert {name x : String} {names : NameSet} :
    x ∈ insert name names ↔ x = name ∨ x ∈ names := by
  induction names with
  | nil => simp [insert]
  | cons other rest ih =>
    rw [insert]
    split
    · rw [List.mem_cons]
    · split
      · next heq =>
        subst heq
        simp
      · rw [List.mem_cons, List.mem_cons, ih]
        exact or_left_comm

/-- A set stays in order when a name is added. -/
lemma pairwise_insert {name : String} {names : NameSet} (h : names.Pairwise (· < ·)) :
    (insert name names).Pairwise (· < ·) := by
  induction names with
  | nil => exact List.pairwise_singleton _ _
  | cons other rest ih =>
    obtain ⟨hother, hrest⟩ := List.pairwise_cons.1 h
    rw [insert]
    split
    · next hlt =>
      refine List.pairwise_cons.2 ⟨fun x hx => ?_, h⟩
      obtain rfl | hx := List.mem_cons.1 hx
      · exact hlt
      · exact hlt.trans (hother x hx)
    · next hlt =>
      split
      · exact h
      · next hne =>
        refine List.pairwise_cons.2 ⟨fun x hx => ?_, ih hrest⟩
        obtain rfl | hx := mem_insert.1 hx
        · exact lt_of_le_of_ne (not_lt.1 hlt) (Ne.symm hne)
        · exact hother x hx

end NameSet

/-- What is read of a source, given its language. -/
def Reading.of (language : Language) (source : String) : Reading :=
  ⟨language.profile, source.toUTF8.toList⟩

/-- The measures of a function show the function itself and what is counted over its territory. -/
structure FunctionMetrics.MeasuresOf (r : Reading) (lineages : List Lineage) (l : Lineage)
    (f : FunctionMetrics) : Prop where
  header : { f with cyclomatic := 1, cognitive := 0, calls := [] }
    = r.functionHeader l.node l.above.head?
  cyclomatic : f.cyclomatic
    = 1 + (territory r.profile.opensFunction lineages l.node).countP r.profile.isDecision
  cognitive : f.cognitive
    = (territory r.profile.opensFunction lineages l.node).countP r.profile.isPoint
  calls : ∀ name, name ∈ f.calls ↔
    ∃ call ∈ territory r.profile.opensFunction lineages l.node, r.callName? call = some name
  sorted : f.calls.Pairwise (· < ·)

/-- The measures of a class show the class itself and what is counted over its territory. -/
structure ClassMetrics.MeasuresOf (r : Reading) (lineages : List Lineage) (l : Lineage)
    (c : ClassMetrics) : Prop where
  header : { c with complexity := 1 } = r.classHeader l.node
  complexity : c.complexity
    = 1 + (territory r.profile.opensClass lineages l.node).countP r.profile.isDecision

namespace Reading

variable (r : Reading)

/-- Nodes are counted one by one. -/
lemma add_countP_cons (q : Node → Bool) (n : Node) (rest : List Node) (base : Nat) :
    base + (n :: rest).countP q = base + (q n).toNat + rest.countP q := by
  rw [List.countP_cons]
  cases q n with
  | false => rfl
  | true =>
    rw [if_pos rfl, Bool.toNat_true]
    omega

/-- The charges of some nodes add up in the measures of a function. -/
lemma foldl_chargeFunction (nodes : List Node) (f : FunctionMetrics) :
    nodes.foldl (fun f n => r.chargeFunction n f) f =
      { f with
        cyclomatic := f.cyclomatic + nodes.countP r.profile.isDecision
        cognitive := f.cognitive + nodes.countP r.profile.isPoint
        calls := (nodes.filterMap r.callName?).foldl (fun names name => names.insert name) f.calls } := by
  induction nodes generalizing f with
  | nil => rfl
  | cons n rest ih =>
    rw [List.foldl_cons, ih, add_countP_cons, add_countP_cons, List.filterMap_cons, chargeFunction]
    cases r.callName? n <;> rfl

/-- All nodes together add the number of their decisions to a class. -/
lemma foldl_chargeClass (nodes : List Node) (c : ClassMetrics) :
    nodes.foldl (fun c n => r.chargeClass n c) c =
      { c with complexity := c.complexity + nodes.countP r.profile.isDecision } := by
  induction nodes generalizing c with
  | nil => rfl
  | cons n rest ih =>
    rw [List.foldl_cons, ih, add_countP_cons]
    rfl

/-- Names that are added one after the other make up a set in order. -/
lemma foldl_insert (added : List String) {names : NameSet} (h : names.Pairwise (· < ·)) :
    (∀ x, x ∈ added.foldl (fun names name => NameSet.insert name names) names ↔
        x ∈ names ∨ x ∈ added) ∧
      (added.foldl (fun names name => NameSet.insert name names) names).Pairwise (· < ·) := by
  induction added generalizing names with
  | nil => exact ⟨fun x => by simp, h⟩
  | cons name rest ih =>
    obtain ⟨hmem, hsorted⟩ := ih (NameSet.pairwise_insert h)
    refine ⟨fun x => ?_, hsorted⟩
    rw [List.foldl_cons, hmem, NameSet.mem_insert, List.mem_cons]
    tauto

variable {r} {lineages : List Lineage}

/-- The entry of a function has the measures of its territory. -/
lemma measuresOf_functionEntry (l : Lineage) :
    (r.functionLedger.entry lineages l).MeasuresOf r lineages l := by
  rw [Ledger.entry]
  show (List.foldl (fun f n => r.chargeFunction n f) (r.functionHeader l.node l.above.head?)
    (territory r.profile.opensFunction lineages l.node)).MeasuresOf r lineages l
  rw [foldl_chargeFunction]
  obtain ⟨hmem, hsorted⟩ := foldl_insert
    ((territory r.profile.opensFunction lineages l.node).filterMap r.callName?) List.Pairwise.nil
  refine ⟨rfl, rfl, Nat.zero_add _, fun name => ?_, hsorted⟩
  refine (hmem name).trans ?_
  rw [List.mem_filterMap]
  exact or_iff_right List.not_mem_nil

/-- The entry of a class has the measures of its territory. -/
lemma measuresOf_classEntry (l : Lineage) :
    (r.classLedger.entry lineages l).MeasuresOf r lineages l := by
  rw [Ledger.entry]
  show (List.foldl (fun c n => r.chargeClass n c) (r.classHeader l.node)
    (territory r.profile.opensClass lineages l.node)).MeasuresOf r lineages l
  rw [foldl_chargeClass]
  exact ⟨rfl, rfl⟩

end Reading

/-- Every decision of a source is charged to the innermost function and the innermost class around it,
to no others, and to the file. -/
structure FileMetrics.ChargedExactly (r : Reading) (root : Node) (m : FileMetrics) : Prop where
  functions : List.Forall₂ (FunctionMetrics.MeasuresOf r root.lineages)
    (heads r.profile.opensFunction root.lineages) m.functions
  classes : List.Forall₂ (ClassMetrics.MeasuresOf r root.lineages)
    (heads r.profile.opensClass root.lineages) m.classes
  once : ∀ test n n' d, d ∈ territory test root.lineages n → d ∈ territory test root.lineages n' →
    n.id = n'.id
  cyclomatic : m.cyclomatic = 1 + root.lineages.countP fun l => r.profile.isDecision l.node
  inFunctions : (m.functions.map fun f => f.cyclomatic - 1).sum
      + (wilderness r.profile.opensFunction root.lineages).countP r.profile.isDecision
    = m.cyclomatic - 1
  inClasses : (m.classes.map fun c => c.complexity - 1).sum
      + (wilderness r.profile.opensClass root.lineages).countP r.profile.isDecision
    = m.cyclomatic - 1

/-- In a tree whose nodes have different identities, as in every tree that is put together from a list
of its nodes, every decision is charged exactly. -/
theorem FileMetrics.chargedExactly_ofTree (path : Path) (language : Language) (source : String)
    (root : Node) (hids : root.ids.Nodup) :
    (FileMetrics.ofTree path language source root).ChargedExactly (.of language source) root := by
  let r : Reading := .of language source
  obtain ⟨hplaced, hfollows⟩ := Tally.follows_ofTree (r := r) language.separate_profile hids
  have hfunctions : (FileMetrics.ofTree path language source root).functions
      = r.functionLedger.entries root.lineages root.lineages := hfollows.functions
  have hclasses : (FileMetrics.ofTree path language source root).classes
      = r.classLedger.entries root.lineages root.lineages := hfollows.classes
  have hcyclomatic : (FileMetrics.ofTree path language source root).cyclomatic
      = 1 + root.lineages.countP fun l => r.profile.isDecision l.node :=
    congrArg (1 + ·) hfollows.decisions
  refine ⟨?_, ?_, fun test n n' d => territory_unique hids, hcyclomatic, ?_, ?_⟩
  · rw [hfunctions, Ledger.entries, List.forall₂_map_right_iff]
    exact List.forall₂_same.2 fun l _ => Reading.measuresOf_functionEntry l
  · rw [hclasses, Ledger.entries, List.forall₂_map_right_iff]
    exact List.forall₂_same.2 fun l _ => Reading.measuresOf_classEntry l
  · rw [hfunctions, hcyclomatic, Nat.add_sub_cancel_left]
    exact Ledger.sum_entries hplaced hids fun l => (Reading.measuresOf_functionEntry l).cyclomatic
  · rw [hclasses, hcyclomatic, Nat.add_sub_cancel_left]
    exact Ledger.sum_entries hplaced hids fun l => (Reading.measuresOf_classEntry l).complexity

/-- A class in a method of a class, with an arm of its own and an anonymous function in it. -/
def nestedTree : Node :=
  .mk 0 true "program" none 0 40 [
    .mk 1 true "class_declaration" none 0 36 [
      .mk 2 false "class" none 0 5 [],
      .mk 3 true "method_definition" none 8 34 [
        .mk 4 true "if_statement" none 11 32 [
          .mk 5 true "class" none 14 30 [
            .mk 6 true "switch_case" none 17 20 [],
            .mk 7 true "arrow_function" none 21 28 [
              .mk 8 true "while_statement" none 24 27 []]]]]],
    .mk 9 true "ternary_expression" none 37 40 []]

/-- The tree is made of the list of its nodes. -/
lemma ofPreorder?_nestedTree :
    Node.ofPreorder? [
      ⟨0, true, "program", none, 0, 40⟩,
      ⟨1, true, "class_declaration", none, 0, 36⟩,
      ⟨2, false, "class", none, 0, 5⟩,
      ⟨2, true, "method_definition", none, 8, 34⟩,
      ⟨3, true, "if_statement", none, 11, 32⟩,
      ⟨4, true, "class", none, 14, 30⟩,
      ⟨5, true, "switch_case", none, 17, 20⟩,
      ⟨5, true, "arrow_function", none, 21, 28⟩,
      ⟨6, true, "while_statement", none, 24, 27⟩,
      ⟨1, true, "ternary_expression", none, 37, 40⟩] = some nestedTree :=
  rfl

/-- The arm in the inner class belongs to the method around that class, the loop to the anonymous
function, and the decision beside the class to no function. -/
theorem nestedTree_chargedExactly :
    nestedTree.ids.Nodup ∧
      (FileMetrics.ofTree ⟨"n.ts"⟩ .typescript "" nestedTree).ChargedExactly
        (.of .typescript "") nestedTree ∧
      (FileMetrics.ofTree ⟨"n.ts"⟩ .typescript "" nestedTree).functions.map
        FunctionMetrics.cyclomatic = [3, 2] := by
  have hids : nestedTree.ids.Nodup := Node.nodup_ids_ofPreorder? ofPreorder?_nestedTree
  have hcharged := FileMetrics.chargedExactly_ofTree ⟨"n.ts"⟩ .typescript "" nestedTree hids
  let opens := (Reading.of .typescript "").profile.opensFunction
  have hterritories : (heads opens nestedTree.lineages).map (fun l =>
        1 + (territory opens nestedTree.lineages l.node).countP
          (Reading.of .typescript "").profile.isDecision)
      = (FileMetrics.ofTree ⟨"n.ts"⟩ .typescript "" nestedTree).functions.map
        FunctionMetrics.cyclomatic := by
    rw [← List.forall₂_eq_eq_eq, List.forall₂_map_left_iff, List.forall₂_map_right_iff]
    exact hcharged.functions.imp fun _ _ h => h.cyclomatic.symm
  refine ⟨hids, hcharged, hterritories.symm.trans ?_⟩
  decide +kernel

end CodeAudit
