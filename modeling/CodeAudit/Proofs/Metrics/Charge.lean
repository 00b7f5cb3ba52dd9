import CodeAudit.Proofs.Metrics.Ledger
/-!
# What a node is charged for

A node is a decision, a cognitive point or a call by its kind and by nothing else. In the profiles of
the languages no kind counts in two ways, so the order in which the kinds are tried does not matter:
each node changes the counts and the entries of the innermost function and class by itself. Before that
a function or a class has got its own entry and has opened its scope.
-/
namespace CodeAudit

namespace Profile

variable (p : Profile)

/-- Whether a node is a function: it is named and of a function's kind. -/
def opensFunction (n : Node) : Bool :=
  n.named && p.isFunction n.kind

/-- Whether a node is a class. -/
def opensClass (n : Node) : Bool :=
  n.named && p.isClass n.kind

/-- Whether a node is a decision: a branch or an arm. -/
def isDecision (n : Node) : Bool :=
  n.named && (p.isBranch n.kind || p.isCase n.kind)

/-- Whether a node is a cognitive point: a branch or a logical operator. -/
def isPoint (n : Node) : Bool :=
  n.named && (p.isBranch n.kind || p.isLogical n)

/-- No kind counts in two ways. -/
structure Separate : Prop where
  scopes : ∀ kind ∈ p.functions, kind ∉ p.classes
  logical : ∀ kind ∈ p.logical, kind ∉ p.branches ∧ kind ∉ p.cases
  calls : ∀ kind ∈ p.calls, kind ∉ p.branches ∧ kind ∉ p.cases ∧ kind ∉ p.logical

variable {p}

/-- A function is no class. -/
lemma Separate.opensClass_eq_false (h : p.Separate) {n : Node} (hn : p.opensFunction n = true) :
    p.opensClass n = false := by
  rw [opensFunction, Bool.and_eq_true, isFunction, decide_eq_true_iff] at hn
  rw [opensClass, isClass, decide_eq_false (h.scopes _ hn.2), Bool.and_false]

/-- A class is no function. -/
lemma Separate.opensFunction_eq_false (h : p.Separate) {n : Node} (hn : p.opensClass n = true) :
    p.opensFunction n = false := by
  refine Bool.eq_false_iff.2 fun hfunction => ?_
  rw [h.opensClass_eq_false hfunction] at hn
  exact absurd hn nofun

/-- A branch or an arm is no logical operator. -/
lemma Separate.isLogical_eq_false (h : p.Separate) {n : Node}
    (hkind : (p.isBranch n.kind || p.isCase n.kind) = true) : p.isLogical n = false := by
  have hlogical : p.isLogicalKind n.kind = false := by
    refine decide_eq_false fun hmem => ?_
    obtain ⟨hbranch, hcase⟩ := h.logical _ hmem
    rw [isBranch, isCase, decide_eq_false hbranch, decide_eq_false hcase] at hkind
    exact absurd hkind nofun
  rw [isLogical, hlogical, Bool.false_and]

/-- A branch, an arm or a logical operator is no call. -/
lemma Separate.isCall_eq_false (h : p.Separate) {n : Node}
    (hkind : (p.isBranch n.kind || p.isCase n.kind || p.isLogical n) = true) :
    p.isCall n.kind = false := by
  refine decide_eq_false fun hmem => ?_
  obtain ⟨hbranch, hcase, hlogical⟩ := h.calls _ hmem
  rw [isLogical, isBranch, isCase, isLogicalKind, decide_eq_false hbranch, decide_eq_false hcase,
    decide_eq_false hlogical] at hkind
  exact absurd hkind nofun

end Profile

/-- In the profile of a language no kind counts in two ways. -/
lemma Language.separate_profile (language : Language) : language.profile.Separate := by
  cases language <;> exact ⟨by decide +kernel, by decide +kernel, by decide +kernel⟩

namespace Reading

variable (r : Reading)

/-- The name that a node calls, if it is a call. -/
def callName? (n : Node) : Option String :=
  if n.named && r.profile.isCall n.kind then r.callee? n else none

/-- What a node adds to the measures of the function that it is charged to. -/
def chargeFunction (n : Node) : FunctionMetrics → FunctionMetrics := fun f =>
  { f with
    cyclomatic := f.cyclomatic + (r.profile.isDecision n).toNat
    cognitive := f.cognitive + (r.profile.isPoint n).toNat
    calls := (r.callName? n).elim f.calls fun name => f.calls.insert name }

/-- What a node adds to the measures of the class that it is charged to. -/
def chargeClass (n : Node) : ClassMetrics → ClassMetrics := fun c =>
  { c with complexity := c.complexity + (r.profile.isDecision n).toNat }

/-- The functions of a source. -/
def functionLedger : Ledger FunctionMetrics where
  opens := r.profile.opensFunction
  header l := r.functionHeader l.node l.above.head?
  charge := r.chargeFunction

/-- The classes of a source. -/
def classLedger : Ledger ClassMetrics where
  opens := r.profile.opensClass
  header l := r.classHeader l.node
  charge := r.chargeClass

variable {r}

/-- Nothing is charged for a token. -/
lemma chargeFunction_of_token {n : Node} (h : n.named = false) (f : FunctionMetrics) :
    r.chargeFunction n f = f := by
  simp [chargeFunction, callName?, Profile.isDecision, Profile.isPoint, h]

/-- A token adds nothing to a class. -/
lemma chargeClass_of_token {n : Node} (h : n.named = false) (c : ClassMetrics) :
    r.chargeClass n c = c := by
  simp [chargeClass, Profile.isDecision, h]

end Reading

section ModifyAt

variable {α : Type} (items : Array α) (index : Option Nat)

/-- Changes the item at an index, if there is one. -/
def modifyAt (f : α → α) : Array α :=
  index.elim items fun i => items.modify i f

/-- Changing an item twice is changing it once by both changes. -/
lemma modifyAt_modifyAt (f g : α → α) :
    modifyAt (modifyAt items index f) index g = modifyAt items index (g ∘ f) := by
  cases index with
  | none => rfl
  | some i =>
    apply Array.toList_inj.1
    show ((items.modify i f).modify i g).toList = (items.modify i (g ∘ f)).toList
    rw [Array.toList_modify, Array.toList_modify, Array.toList_modify, List.modify_modify_eq]

/-- Nothing changes if an item stays what it is. -/
lemma modifyAt_id : modifyAt items index id = items := by
  cases index with
  | none => rfl
  | some i =>
    apply Array.toList_inj.1
    show (items.modify i id).toList = items.toList
    rw [Array.toList_modify, List.modify_id]

/-- The item at an index is changed in the array as in the list. -/
lemma toList_modifyAt (f : α → α) :
    (modifyAt items index f).toList = index.elim items.toList fun i => items.toList.modify i f := by
  cases index with
  | none => rfl
  | some i => exact Array.toList_modify

end ModifyAt

namespace Tally

variable {r : Reading} {n : Node} (t : Tally)

/-- Adds to the counts, and changes the measures of the innermost function and class. -/
def charge (decisions points : Nat) (onFunctions : FunctionMetrics → FunctionMetrics)
    (onClasses : ClassMetrics → ClassMetrics) : Tally :=
  ({ t with
      decisions := t.decisions + decisions
      cognitive := t.cognitive + points }.onFunction onFunctions).onClass onClasses

/-- Changing the innermost function changes nothing but its measures. -/
lemma onFunction_eq (f : FunctionMetrics → FunctionMetrics) :
    t.onFunction f = { t with
      functions := modifyAt t.functions (t.scopes.findSome? Scope.functionIndex?) f } := by
  rw [onFunction]
  split
  · next hindex => rw [hindex]; rfl
  · next hindex => rw [hindex]; rfl

/-- Changing the innermost class changes nothing but its measures. -/
lemma onClass_eq (c : ClassMetrics → ClassMetrics) :
    t.onClass c = { t with
      classes := modifyAt t.classes (t.scopes.findSome? Scope.classIndex?) c } := by
  rw [onClass]
  split
  · next hindex => rw [hindex]; rfl
  · next hindex => rw [hindex]; rfl

/-- What a charge changes. -/
lemma charge_eq (d p : Nat) (f : FunctionMetrics → FunctionMetrics)
    (c : ClassMetrics → ClassMetrics) :
    t.charge d p f c =
      { decisions := t.decisions + d
        cognitive := t.cognitive + p
        functions := modifyAt t.functions (t.scopes.findSome? Scope.functionIndex?) f
        classes := modifyAt t.classes (t.scopes.findSome? Scope.classIndex?) c
        scopes := t.scopes } := by
  rw [charge, onFunction_eq, onClass_eq]

/-- Two charges are one charge by both. -/
lemma charge_charge (d d' p p' : Nat) (f f' : FunctionMetrics → FunctionMetrics)
    (c c' : ClassMetrics → ClassMetrics) :
    (t.charge d p f c).charge d' p' f' c' = t.charge (d + d') (p + p') (f' ∘ f) (c' ∘ c) := by
  simp only [charge_eq, modifyAt_modifyAt, Nat.add_assoc]

/-- A charge of nothing changes nothing. -/
lemma charge_id : t.charge 0 0 id id = t := by
  simp only [charge_eq, modifyAt_id, Nat.add_zero]

/-- Nothing changes if the innermost class stays what it is. -/
lemma onClass_id : t.onClass id = t := by
  rw [onClass_eq, modifyAt_id]

/-- Counting a cognitive point is a charge. -/
lemma addCognitive_eq_charge :
    t.addCognitive = t.charge 0 1 (fun f => { f with cognitive := f.cognitive + 1 }) id :=
  (onClass_id _).symm

/-- A call is a charge to the function alone. -/
lemma addCall_eq_charge (name : String) :
    t.addCall name = t.charge 0 0 (fun f => { f with calls := f.calls.insert name }) id :=
  (onClass_id _).symm

/-- A decision is a charge to the function, the class and the file. -/
lemma addDecision_eq_charge :
    t.addDecision = t.charge 1 0 (fun f => { f with cyclomatic := f.cyclomatic + 1 })
      (fun c => { c with complexity := c.complexity + 1 }) :=
  rfl

/-- What is counted of a node is what the node is charged for. -/
lemma count_eq_charge (hseparate : r.profile.Separate) (hnamed : n.named = true) :
    count r n t = t.charge (r.profile.isDecision n).toNat (r.profile.isPoint n).toNat
      (r.chargeFunction n) (r.chargeClass n) := by
  have hlogical := hseparate.isLogical_eq_false (n := n)
  have hcall := hseparate.isCall_eq_false (n := n)
  -- the kinds are tried in the order of the code, and a kind that is hit rules out those after it
  unfold count Reading.chargeFunction Reading.chargeClass Reading.callName? Profile.isDecision
    Profile.isPoint
  rw [hnamed]
  cases hbranch : r.profile.isBranch n.kind with
  | true =>
    rw [hbranch] at hcall
    rw [hcall rfl, addDecision_eq_charge, addCognitive_eq_charge, charge_charge]
    rfl
  | false =>
    rw [hbranch] at hlogical hcall
    cases hcase : r.profile.isCase n.kind with
    | true =>
      rw [hcase] at hlogical hcall
      rw [hlogical rfl, hcall rfl]
      exact addDecision_eq_charge t
    | false =>
      rw [hcase] at hcall
      cases hpoint : r.profile.isLogical n with
      | true =>
        rw [hpoint] at hcall
        rw [hcall rfl]
        exact addCognitive_eq_charge t
      | false =>
        cases hcalls : r.profile.isCall n.kind with
        | false => exact (charge_id t).symm
        | true =>
          cases hcallee : r.callee? n with
          | none => exact (charge_id t).symm
          | some name => exact addCall_eq_charge t name

/-- A named node that is met opens its scope: a function or a class gets an entry behind the others, and
any other node leaves everything as it is. -/
inductive Opens (r : Reading) (parent : Option Node) (n : Node) (t : Tally) : Tally → Prop where
  | function :
    r.profile.opensFunction n = true →
    Opens r parent n t { t with
      functions := t.functions.push (r.functionHeader n parent)
      scopes := .function n.id t.functions.size :: t.scopes }
  | «class» :
    r.profile.opensClass n = true →
    Opens r parent n t { t with
      classes := t.classes.push (r.classHeader n)
      scopes := .class n.id t.classes.size :: t.scopes }
  | none :
    r.profile.opensFunction n = false →
    r.profile.opensClass n = false →
    Opens r parent n t t

/-- A named node opens its scope in one of three ways. -/
lemma opens_openScope (hnamed : n.named = true) (parent : Option Node) :
    Opens r parent n t (t.openScope r n parent) := by
  rw [openScope]
  split
  · next hfunction =>
    apply Opens.function
    rw [Profile.opensFunction, hnamed, hfunction, Bool.and_self]
  · next hfunction =>
    split
    · next hclass =>
      apply Opens.class
      rw [Profile.opensClass, hnamed, hclass, Bool.and_self]
    · next hclass =>
      apply Opens.none
      · rw [Profile.opensFunction, Bool.eq_false_iff.2 hfunction, Bool.and_false]
      · rw [Profile.opensClass, Bool.eq_false_iff.2 hclass, Bool.and_false]

end Tally

end CodeAudit
