import CodeAudit.Proofs.Metrics.Attribution
import CodeAudit.Proofs.Metrics.Nesting
import CodeAudit.Proofs.Tree.Skeleton
/-!
# Bare tokens are not measured

The measures of a source are those of the skeleton of its tree. Whatever is read of a node, for the header
of a function or a class or for what the node counts as, is read of its fields, its named children and the
node above it, and these the skeleton keeps; a bare token is walked over without a trace.
-/
namespace CodeAudit

open Node (skeleton)

namespace Reading

section Headers

variable (r : Reading) (n : Node)

/-- The text of a field is that in the skeleton. -/
@[simp] lemma fieldText?_skeleton (field : String) :
    r.fieldText? n.skeleton field = r.fieldText? n field := by
  rw [fieldText?, fieldText?, Node.child?_skeleton, Node.bind_text?_skeleton]

/-- The name that a node is bound to is that in the skeleton. -/
@[simp] lemma bindingName?_skeleton : r.bindingName? n.skeleton = r.bindingName? n := by
  rw [bindingName?, bindingName?, Node.kind_skeleton]
  simp only [fieldText?_skeleton]

/-- The name of a function is that in the skeleton. -/
lemma functionName_skeleton (parent : Option Node) :
    r.functionName n.skeleton (parent.map skeleton) = r.functionName n parent := by
  rw [functionName, functionName, fieldText?_skeleton]
  cases parent with
  | none => rfl
  | some p =>
    rw [Option.map_some, Option.bind_some, Option.bind_some, bindingName?_skeleton]

/-- A declaration declares as many names as in the skeleton. -/
@[simp] lemma declaredCount_skeleton : declaredCount n.skeleton = declaredCount n := by
  rw [declaredCount, declaredCount, Node.kind_skeleton, Node.childrenIn_skeleton, List.length_map]

/-- The named children that are no comments are found in the skeleton too. -/
lemma filter_namedChildren_skeleton :
    (n.skeleton.namedChildren.filter fun child => !r.profile.isComment child.kind)
      = (n.namedChildren.filter fun child => !r.profile.isComment child.kind).map skeleton := by
  rw [Node.namedChildren_skeleton, List.filter_map]
  congr 2
  funext child
  rw [Function.comp_apply, Node.kind_skeleton]

/-- The parameters are those in the skeleton. -/
@[simp] lemma parametersIn_skeleton : r.parametersIn n.skeleton = r.parametersIn n := by
  rw [parametersIn, parametersIn, filter_namedChildren_skeleton, List.map_map]
  congr 2
  funext child
  exact declaredCount_skeleton child

/-- There are as many parameters as in the skeleton. -/
lemma parameterCount_skeleton : r.parameterCount n.skeleton = r.parameterCount n := by
  rw [parameterCount, parameterCount, Node.orElse_child?_skeleton]
  cases n.child? "parameters" <|> n.child? "parameter" with
  | none => rfl
  | some list => simp only [Option.map_some, Node.namedChildren_skeleton, List.length_map,
      Node.kind_skeleton, parametersIn_skeleton]

/-- The header of a function is that in the skeleton. -/
lemma functionHeader_skeleton (parent : Option Node) :
    r.functionHeader n.skeleton (parent.map skeleton) = r.functionHeader n parent := by
  rw [functionHeader, functionHeader, functionName_skeleton, parameterCount_skeleton,
    Node.start_skeleton, Node.stop_skeleton]

/-- There are as many members as in the skeleton. -/
lemma memberCount_skeleton : r.memberCount n.skeleton = r.memberCount n := by
  rw [memberCount, memberCount, Node.child?_skeleton]
  cases n.child? "body" with
  | none => rfl
  | some body =>
    show List.length _ = List.length _
    rw [filter_namedChildren_skeleton, List.length_map]

/-- The header of a class is that in the skeleton. -/
lemma classHeader_skeleton : r.classHeader n.skeleton = r.classHeader n := by
  rw [classHeader, classHeader, memberCount_skeleton, Node.orElse_child?_skeleton,
    Node.bind_text?_skeleton, Node.start_skeleton, Node.stop_skeleton]

/-- The name that is called is that in the skeleton. -/
lemma callee?_skeleton : r.callee? n.skeleton = r.callee? n := by
  rw [callee?, callee?, Node.child?_skeleton, Option.bind_map]
  congr 1
  funext callee
  have hparts : ["property", "field", "attribute", "name"].findSome? callee.skeleton.child?
      = (["property", "field", "attribute", "name"].findSome? callee.child?).map skeleton := by
    rw [List.map_findSome?]
    congr 1
    funext field
    exact Node.child?_skeleton callee field
  rw [Function.comp_apply, Node.kind_skeleton, Node.text?_skeleton, hparts,
    Node.bind_text?_skeleton]

end Headers

end Reading

namespace Profile

variable (p : Profile) (n : Node)

/-- An operator is logical if it is so in the skeleton. -/
@[simp] lemma isLogical_skeleton : p.isLogical n.skeleton = p.isLogical n := by
  rw [isLogical, isLogical, Node.kind_skeleton, Node.child?_skeleton]
  cases n.child? "operator" with
  | none => rfl
  | some operator => exact congrArg (_ && p.isOperator ·) (Node.kind_skeleton operator)

end Profile

namespace Scope

/-- The scope, whichever node it is of. -/
def blind : Scope → Scope
  | function _ index => function 0 index
  | «class» _ index => «class» 0 index

/-- A scope has its function whichever node it is of. -/
lemma functionIndex?_blind (scope : Scope) : scope.blind.functionIndex? = scope.functionIndex? := by
  cases scope <;> rfl

/-- A scope has its class whichever node it is of. -/
lemma classIndex?_blind (scope : Scope) : scope.blind.classIndex? = scope.classIndex? := by
  cases scope <;> rfl

/-- The innermost entry is the same whichever nodes the scopes are of. -/
lemma findSome?_blind {index? : Scope → Option Nat} (h : ∀ scope, index? (blind scope) = index? scope)
    (scopes : List Scope) : (scopes.map blind).findSome? index? = scopes.findSome? index? := by
  rw [List.findSome?_map]
  exact congrArg (scopes.findSome? ·) (funext h)

end Scope

namespace Tally

/-- The counts with the scopes, whichever nodes these are of. -/
def blind (t : Tally) : Tally :=
  { t with scopes := t.scopes.map Scope.blind }

variable (r : Reading) (n : Node) (parent : Option Node) (t : Tally)

/-- What is charged goes to the same function and the same class. -/
lemma blind_charge (decisions points : Nat) (onFunctions : FunctionMetrics → FunctionMetrics)
    (onClasses : ClassMetrics → ClassMetrics) :
    (t.charge decisions points onFunctions onClasses).blind
      = t.blind.charge decisions points onFunctions onClasses := by
  rw [charge_eq, charge_eq]
  simp only [blind, Scope.findSome?_blind Scope.functionIndex?_blind,
    Scope.findSome?_blind Scope.classIndex?_blind]

/-- A node opens its scope as its skeleton does. -/
lemma blind_openScope :
    (t.openScope r n parent).blind = t.blind.openScope r n.skeleton (parent.map skeleton) := by
  rw [openScope, openScope, Node.kind_skeleton, Node.id_skeleton,
    Reading.functionHeader_skeleton, Reading.classHeader_skeleton]
  split_ifs
  · rfl
  · rfl
  · rfl

/-- A node counts as its skeleton does. -/
lemma count_skeleton : t.count r n.skeleton = t.count r n := by
  rw [count, count, Node.kind_skeleton, Profile.isLogical_skeleton, Reading.callee?_skeleton]

/-- A node is met like its skeleton. -/
lemma blind_meet (hseparate : r.profile.Separate) :
    (t.meet r parent n).blind = t.blind.meet r (parent.map skeleton) n.skeleton := by
  rw [meet, meet, Node.named_skeleton]
  cases hnamed : n.named with
  | false => rfl
  | true =>
    rw [if_pos rfl, if_pos rfl, count_skeleton, ← blind_openScope,
      count_eq_charge _ hseparate hnamed, count_eq_charge _ hseparate hnamed, blind_charge]

/-- A bare token is walked over without a trace. -/
lemma countTree_of_isBare {n : Node} (h : n.isBare = true) : countTree r parent n t = t := by
  obtain ⟨hnamed, -, hchildren⟩ := Node.isBare_iff.1 h
  obtain ⟨id, named, kind, field, start, stop, children⟩ := n
  cases hnamed
  cases hchildren
  rfl

mutual

/-- A tree is counted like its skeleton. -/
lemma blind_countTree (hseparate : r.profile.Separate) (parent : Option Node) :
    ∀ (n : Node) (t : Tally),
      (countTree r parent n t).blind = countTree r (parent.map skeleton) n.skeleton t.blind
  | .mk id named kind field start stop children, t => by
    let n : Node := .mk id named kind field start stop children
    have hchildren := blind_countTrees hseparate n children (t.meet r parent n)
    rw [blind_meet r n parent t hseparate] at hchildren
    show _ = { countTrees r n.skeleton (Node.skeletonIn children)
      (t.blind.meet r (parent.map skeleton) n.skeleton) with scopes := t.blind.scopes }
    rw [← hchildren]
    rfl

/-- Nodes side by side count as their skeletons do. -/
lemma blind_countTrees (hseparate : r.profile.Separate) (parent : Node) :
    ∀ (children : List Node) (t : Tally),
      (countTrees r parent children t).blind
        = countTrees r parent.skeleton (Node.skeletonIn children) t.blind
  | [], _ => rfl
  | child :: rest, t => by
    have hchild := blind_countTree hseparate (some parent) child t
    rw [countTrees, blind_countTrees hseparate parent rest, hchild, Node.skeletonIn]
    -- a child that the skeleton leaves out has a bare skeleton, which would count for nothing there
    split
    · next hbare => rw [countTree_of_isBare r _ _ hbare]
    · rfl

end

/-- What is counted in a tree without the same identity twice is counted in its skeleton. -/
lemma blind_ofTree {r : Reading} (hseparate : r.profile.Separate) {root : Node}
    (hids : root.ids.Nodup) : (ofTree r root).blind = countTree r none root.skeleton {} := by
  rw [ofTree_eq_countTree hseparate hids]
  exact blind_countTree r hseparate none root {}

end Tally

/-- Trees with the same skeleton measure the same. -/
lemma FileMetrics.ofTree_congr {path : Path} {language : Language} {source : String}
    {root other : Node} (hids : root.ids.Nodup) (hother : other.ids.Nodup)
    (h : other.skeleton = root.skeleton) :
    FileMetrics.ofTree path language source other
      = FileMetrics.ofTree path language source root := by
  have hblind : (Tally.ofTree (.of language source) other).blind
      = (Tally.ofTree (.of language source) root).blind := by
    rw [Tally.blind_ofTree language.separate_profile hother,
      Tally.blind_ofTree language.separate_profile hids, h]
  obtain ⟨hdecisions, hcognitive, hfunctions, hclasses, -⟩ := Tally.mk.inj hblind
  rw [Reading.of] at hdecisions hcognitive hfunctions hclasses
  rw [ofTree, ofTree]
  rw [hdecisions, hcognitive, hfunctions, hclasses]

/-- Taking any bare tokens out of a tree leaves all measures as they are. So does giving its nodes other
identities, as long as these are different. -/
theorem FileMetrics.ofTree_without (path : Path) (language : Language) (source : String)
    (root : Node) (hids : root.ids.Nodup) :
    (∀ taken : Nat → Bool,
      FileMetrics.ofTree path language source (root.without taken)
        = FileMetrics.ofTree path language source root) ∧
    ∀ other : Node, other.ids.Nodup → other.skeleton = root.skeleton →
      FileMetrics.ofTree path language source other
        = FileMetrics.ofTree path language source root := by
  refine ⟨fun taken => ?_, fun other hother h => ofTree_congr hids hother h⟩
  exact ofTree_congr hids (Node.nodup_ids_without taken hids) (Node.skeleton_without taken root)

/-- A function with a class in it, as a parser makes it that keeps all tokens. -/
def keywordTree : Node :=
  .mk 0 true "program" none 0 24 [
    .mk 1 true "function_declaration" none 0 24 [
      .mk 2 false "function" none 0 8 [],
      .mk 3 true "identifier" (some "name") 9 10 [],
      .mk 4 true "formal_parameters" (some "parameters") 10 15 [
        .mk 5 false "(" none 10 11 [],
        .mk 6 true "required_parameter" none 11 12 [],
        .mk 7 false "," none 12 13 [],
        .mk 8 true "required_parameter" none 13 14 [],
        .mk 9 false ")" none 14 15 []],
      .mk 10 true "statement_block" (some "body") 15 24 [
        .mk 11 false "\x7b" none 15 16 [],
        .mk 12 true "class" none 16 23 [
          .mk 13 false "class" none 16 21 [],
          .mk 14 true "class_body" (some "body") 21 23 []],
        .mk 15 false "\x7d" none 23 24 []]]]

/-- The same function, as a parser makes it that keeps no tokens. -/
def sparseTree : Node :=
  .mk 0 true "program" none 0 24 [
    .mk 1 true "function_declaration" none 0 24 [
      .mk 2 true "identifier" (some "name") 9 10 [],
      .mk 3 true "formal_parameters" (some "parameters") 10 15 [
        .mk 4 true "required_parameter" none 11 12 [],
        .mk 5 true "required_parameter" none 13 14 []],
      .mk 6 true "statement_block" (some "body") 15 24 [
        .mk 7 true "class" none 16 23 [
          .mk 8 true "class_body" (some "body") 21 23 []]]]]

/-- The sparse tree is made of the list of its nodes. -/
lemma ofPreorder?_sparseTree :
    Node.ofPreorder? [
      ⟨0, true, "program", none, 0, 24⟩,
      ⟨1, true, "function_declaration", none, 0, 24⟩,
      ⟨2, true, "identifier", some "name", 9, 10⟩,
      ⟨2, true, "formal_parameters", some "parameters", 10, 15⟩,
      ⟨3, true, "required_parameter", none, 11, 12⟩,
      ⟨3, true, "required_parameter", none, 13, 14⟩,
      ⟨2, true, "statement_block", some "body", 15, 24⟩,
      ⟨3, true, "class", none, 16, 23⟩,
      ⟨4, true, "class_body", some "body", 21, 23⟩] = some sparseTree :=
  rfl

/-- The tokens of kind function and class can be taken away with the others, and the sparse tree measures
the same. -/
theorem keywordTree_without :
    let measures := FileMetrics.ofTree ⟨"f.ts"⟩ .typescript "function f(a,b)\x7bclass\x7b\x7d\x7d"
    keywordTree.ids.Nodup ∧
      (keywordTree.without fun _ => true).ids = [0, 1, 3, 4, 6, 8, 10, 12, 14] ∧
      measures (keywordTree.without fun _ => true) = measures keywordTree ∧
      sparseTree.ids.Nodup ∧ measures sparseTree = measures keywordTree := by
  intro measures
  have hids : keywordTree.ids.Nodup := by decide +kernel
  have hsparse : sparseTree.ids.Nodup := Node.nodup_ids_ofPreorder? ofPreorder?_sparseTree
  obtain ⟨hwithout, hother⟩ := FileMetrics.ofTree_without ⟨"f.ts"⟩ .typescript
    "function f(a,b)\x7bclass\x7b\x7d\x7d" keywordTree hids
  refine ⟨hids, ?_, hwithout fun _ => true, hsparse, hother sparseTree hsparse rfl⟩
  decide +kernel

end CodeAudit
