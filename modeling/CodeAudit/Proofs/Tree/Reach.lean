import CodeAudit.Proofs.Tree.Traversal
/-!
# The stages that a walk comes to

A walk comes to one stage after the other. Whenever it comes to a stage, the nodes that it has entered
and those that are still ahead of it make up the tree, and the open nodes are those on the way from the
root to the cursor. So what a step does to an invariant about the nodes that were entered, the open
ones and the state says what holds at every stage, and in the end what the whole walk comes to.
-/
namespace CodeAudit

/-- Some nodes, innermost first, each with those above it. -/
def Lineage.upwards : List Node → List Lineage
  | [] => []
  | n :: above => ⟨n, above⟩ :: upwards above

/-- The lineages upwards from some nodes are those of the nodes. -/
lemma Lineage.map_node_upwards (nodes : List Node) :
    (upwards nodes).map Lineage.node = nodes := by
  induction nodes with
  | nil => rfl
  | cons n above ih => rw [upwards, List.map_cons, ih]

/-- The lineages of the nodes to the right of a way down, from the innermost ones on. -/
def Cursor.beyond : List Crumb → List Lineage
  | [] => []
  | crumb :: up =>
    Node.lineagesIn (crumb.parent :: up.map Crumb.parent) crumb.right ++ beyond up

namespace Stage

/-- The node that is entered at a stage, if there is one. -/
def entering : Stage → List Lineage
  | arriving c => [c.lineage]
  | leaving _ => []

/-- The nodes that are still to be entered when a walk comes to a stage. -/
def ahead : Stage → List Lineage
  | arriving c => c.node.lineagesBelow c.lineage.above ++ Cursor.beyond c.path
  | leaving c => Cursor.beyond c.path

/-- The nodes that are open, innermost first, when a walk comes to a stage. -/
def openBefore : Stage → List Node
  | arriving c => c.lineage.above
  | leaving c => c.lineage.nodes

/-- The nodes that are open, innermost first, when a stage is done. -/
def openAfter : Stage → List Node
  | arriving c => c.lineage.nodes
  | leaving c => c.lineage.above

variable {stage more : Stage}

/-- Whether a walk turns to a child or leaves the parent, the same nodes are open. -/
lemma openBefore_turn (parent : Node) (path : List Crumb) (children : List Node) :
    (Cursor.turn parent path children).openBefore = parent :: path.map Crumb.parent := by
  cases children <;> rfl

/-- A walk that turns to some children has them ahead, and what is to the right of the way down. -/
lemma ahead_turn (parent : Node) (path : List Crumb) (children : List Node) :
    (Cursor.turn parent path children).ahead
      = Node.lineagesIn (parent :: path.map Crumb.parent) children ++ Cursor.beyond path := by
  cases children with
  | nil => rfl
  | cons child right => exact (List.append_assoc _ _ _).symm

/-- From a stage to the one after it the same nodes stay open, and one that was entered is no more
ahead. -/
lemma of_next? (h : stage.next? = some more) :
    more.openBefore = stage.openAfter ∧ stage.ahead = stage.entering ++ more.ahead := by
  cases stage with
  | arriving c =>
    obtain ⟨n, path⟩ := c
    rw [Cursor.next?_arriving] at h
    cases h
    constructor
    · exact openBefore_turn n path n.children
    · rw [ahead_turn]
      cases n
      rfl
  | leaving c =>
    obtain ⟨n, path⟩ := c
    cases path with
    | nil => cases h
    | cons crumb up =>
      rw [Cursor.next?_leaving] at h
      cases h
      constructor
      · exact openBefore_turn crumb.parent up crumb.right
      · exact (ahead_turn crumb.parent up crumb.right).symm

/-- The node that is entered at a stage is the first one ahead. -/
lemma entering_prefix_ahead (stage : Stage) : stage.entering <+: stage.ahead := by
  cases stage with
  | arriving c =>
    obtain ⟨n, path⟩ := c
    cases n
    exact ⟨_, rfl⟩
  | leaving c => exact List.nil_prefix

end Stage

namespace Cursor

mutual

/-- Of every node that is entered on a tour the tour also says when it is left. -/
lemma leaving_mem_tour (path : List Crumb) {c : Cursor} : ∀ n : Node,
    .arriving c ∈ tour path n → .leaving c ∈ tour path n
  | .mk id named kind field start stop children => by
    intro h
    rw [tour, List.cons_append, List.mem_cons, List.mem_append] at h ⊢
    obtain heq | hbelow | hleaving := h
    · cases heq
      exact .inr (.inr (List.mem_singleton_self _))
    · exact .inr (.inl (leaving_mem_tourIn _ path children hbelow))
    · cases List.mem_singleton.1 hleaving

/-- A node that is arrived at in a tour is left in it. -/
lemma leaving_mem_tourIn (parent : Node) (path : List Crumb) {c : Cursor} :
    ∀ children : List Node,
      .arriving c ∈ tourIn parent path children → .leaving c ∈ tourIn parent path children
  | [] => fun h => absurd h List.not_mem_nil
  | child :: right => by
    intro h
    rw [tourIn, List.mem_append] at h ⊢
    obtain hchild | hright := h
    · exact .inl (leaving_mem_tour _ child hchild)
    · exact .inr (leaving_mem_tourIn parent path right hright)

end

section Reach

variable {σ : Type} {enter leave : Cursor → σ → σ} {root : Node} {start s : σ}
  {met : List Lineage} {stage : Stage}

/-- A walk over a tree comes to a stage, with the nodes that it has entered before and the state that it
has then. -/
inductive Reaches (enter leave : Cursor → σ → σ) (root : Node) (start : σ) :
    List Lineage → Stage → σ → Prop where
  | first :
    Reaches enter leave root start [] (.arriving (ofRoot root)) start
  | next {met stage s more} :
    Reaches enter leave root start met stage s →
    stage.next? = some more →
    Reaches enter leave root start (met ++ stage.entering) more (visit enter leave stage s)

/-- From every stage that it comes to a walk goes on to its result. -/
lemma Reaches.walk_eq (h : Reaches enter leave root start met stage s) :
    walk enter leave root start = walkFrom enter leave stage s := by
  induction h with
  | first => rfl
  | next _ hnext ih => rw [ih, walkFrom_of_next? enter leave hnext]

/-- What a walk has entered and what is ahead of it make up the tree. -/
lemma Reaches.met_append_ahead (h : Reaches enter leave root start met stage s) :
    met ++ stage.ahead = root.lineages := by
  induction h with
  | first => exact List.append_nil _
  | next _ hnext ih => rw [List.append_assoc, ← (Stage.of_next? hnext).2, ih]

/-- What a walk has entered is the first part of the tree. -/
lemma Reaches.met_prefix (h : Reaches enter leave root start met stage s) : met <+: root.lineages :=
  ⟨stage.ahead, h.met_append_ahead⟩

/-- With the node that is entered at a stage it still is. -/
lemma Reaches.met_append_entering (h : Reaches enter leave root start met stage s) :
    met ++ stage.entering <+: root.lineages := by
  rw [← h.met_append_ahead, List.prefix_append_right_inj]
  exact stage.entering_prefix_ahead

/-- The nodes that are open when a stage is done are among those that were entered, if this was so when
the walk came to the stage. -/
lemma upwards_openAfter_subset (h : Lineage.upwards stage.openBefore ⊆ met) :
    Lineage.upwards stage.openAfter ⊆ met ++ stage.entering := by
  cases stage with
  | arriving c =>
    show c.lineage :: Lineage.upwards c.lineage.above ⊆ met ++ [c.lineage]
    rw [List.cons_subset]
    exact ⟨List.mem_append_right _ (List.mem_singleton_self _),
      fun l hl => List.mem_append_left _ (h hl)⟩
  | leaving c =>
    show Lineage.upwards c.lineage.above ⊆ met ++ []
    rw [List.append_nil]
    exact fun l hl => h (List.mem_cons_of_mem _ hl)

/-- The open nodes, with those above them, are among those that a walk has entered. -/
lemma Reaches.upwards_subset (h : Reaches enter leave root start met stage s) :
    Lineage.upwards stage.openBefore ⊆ met := by
  induction h with
  | first => exact List.nil_subset _
  | next _ hnext ih =>
    rw [(Stage.of_next? hnext).1]
    exact upwards_openAfter_subset ih

/-- A walk that comes to a stage comes to all that it goes through from there. -/
lemma Reaches.of_goesThrough {stages : List Stage} {next : Option Stage}
    (hstages : stage.GoesThrough stages next) (h : Reaches enter leave root start met stage s) :
    ∀ other ∈ stages, ∃ met s, Reaches enter leave root start met other s := by
  induction hstages generalizing met s with
  | last _ =>
    intro other hother
    rw [List.mem_singleton.1 hother]
    exact ⟨met, s, h⟩
  | more hnext _ ih =>
    intro other hother
    obtain rfl | hother := List.mem_cons.1 hother
    · exact ⟨met, s, h⟩
    · exact ih (h.next hnext) other hother

variable (enter leave root start)

/-- Each stage of the tour of a tree is reached. -/
lemma exists_reaches_of_mem_tour (hstage : stage ∈ tour [] root) :
    ∃ met s, Reaches enter leave root start met stage s :=
  Reaches.first.of_goesThrough (goesThrough_tour [] root) stage hstage

/-- A walk comes to every node of a tree twice: to enter it, and to leave it. -/
lemma exists_reaches {l : Lineage} (h : l ∈ root.lineages) :
    ∃ c : Cursor, c.lineage = l ∧
      (∃ met s, Reaches enter leave root start met (.arriving c) s) ∧
      ∃ met s, Reaches enter leave root start met (.leaving c) s := by
  rw [Node.lineages, ← List.map_nil (f := Crumb.parent), ← entered_tour [] root, List.mem_map] at h
  obtain ⟨c, hc, hl⟩ := h
  obtain ⟨stage, hstage, hentered⟩ := List.mem_filterMap.1 hc
  cases stage with
  | arriving other =>
    cases hentered
    exact ⟨c, hl, exists_reaches_of_mem_tour enter leave root start hstage,
      exists_reaches_of_mem_tour enter leave root start (leaving_mem_tour [] root hstage)⟩
  | leaving other => cases hentered

/-- At last a walk, having entered all nodes, comes to leave the root, and ends with that. -/
lemma exists_reaches_end :
    ∃ s, Reaches enter leave root start root.lineages (.leaving (ofRoot root)) s ∧
      walk enter leave root start = leave (ofRoot root) s := by
  have hlast : .leaving (ofRoot root) ∈ tour [] root := by
    cases root
    exact List.mem_append_right _ (List.mem_singleton_self _)
  obtain ⟨met, s, h⟩ := exists_reaches_of_mem_tour enter leave root start hlast
  have hmet : met = root.lineages := by
    rw [← h.met_append_ahead]
    exact (List.append_nil met).symm
  rw [hmet] at h
  refine ⟨s, h, ?_⟩
  rw [h.walk_eq, walkFrom_of_none enter leave rfl]
  rfl

end Reach

section Rule

variable {σ : Type} {enter leave : Cursor → σ → σ} {root : Node} {start s : σ}
  {met : List Lineage} {stage : Stage} {I : List Lineage → List Node → σ → Prop}

/-- An invariant of the nodes that were entered, the open ones and the state is kept by a walk. -/
structure KeptBy (I : List Lineage → List Node → σ → Prop) (enter leave : Cursor → σ → σ)
    (root : Node) : Prop where
  /-- A node is entered after those above it. -/
  enter : ∀ entered c s, entered ++ [c.lineage] <+: root.lineages →
    c.lineage.above ⊆ entered.map Lineage.node → I entered c.lineage.above s →
    I (entered ++ [c.lineage]) c.lineage.nodes (enter c s)
  /-- A node is left after all below it. -/
  leave : ∀ entered c s, entered <+: root.lineages → c.lineage ∈ entered →
    I entered c.lineage.nodes s → I entered c.lineage.above (leave c s)

/-- What holds when a walk comes to a stage holds when the stage is done. -/
lemma KeptBy.visit (kept : KeptBy I enter leave root)
    (h : Reaches enter leave root start met stage s) (hs : I met stage.openBefore s) :
    I (met ++ stage.entering) stage.openAfter (visit enter leave stage s) := by
  have hfront := h.met_append_entering
  have hopen := h.upwards_subset
  cases stage with
  | arriving c =>
    apply kept.enter met c s hfront _ hs
    rw [← Lineage.map_node_upwards c.lineage.above]
    exact List.map_subset _ hopen
  | leaving c =>
    rw [Stage.entering, List.append_nil] at hfront ⊢
    exact kept.leave met c s hfront (hopen List.mem_cons_self) hs

/-- What is kept by each step holds at every stage that a walk comes to. -/
theorem KeptBy.reaches (kept : KeptBy I enter leave root) (hstart : I [] [] start)
    (h : Reaches enter leave root start met stage s) : I met stage.openBefore s := by
  induction h with
  | first => exact hstart
  | next h hnext ih =>
    rw [(Stage.of_next? hnext).1]
    exact kept.visit h ih

/-- What is kept by each step holds of the whole tree after a walk, with no node left open. -/
theorem KeptBy.walk (kept : KeptBy I enter leave root) {s : σ} (h : I [] [] s) :
    I root.lineages [] (walk enter leave root s) := by
  obtain ⟨last, hlast, hwalk⟩ := exists_reaches_end enter leave root s
  rw [hwalk, ← List.append_nil root.lineages]
  exact kept.visit hlast (kept.reaches h hlast)

end Rule

end Cursor

end CodeAudit
