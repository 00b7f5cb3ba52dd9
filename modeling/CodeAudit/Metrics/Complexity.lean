import CodeAudit.Metrics.File
import CodeAudit.Metrics.Maintainability
import CodeAudit.Source.LineCount
import CodeAudit.Tree.Cursor
/-!
# Complexity

One walk over the syntax tree of a source counts its decisions. The walk keeps a stack of the
functions and classes it is in; a decision is charged to the source, to the innermost function and
to the innermost class. What a node counts as is decided by the profile of the language.
-/
namespace CodeAudit

/-- Whether a node is of a logical kind and its operator is a logical one. -/
def Profile.isLogical (p : Profile) (n : Node) : Bool :=
  p.isLogicalKind n.kind &&
    match n.child? "operator" with
    | some operator => p.isOperator operator.kind
    | none => false

/-- The name of a function or class that has none. -/
def anonymous : String := "<anonymous>"

/-- What the walk reads besides the tree: the profile of the language and the bytes of the source. -/
structure Reading where
  profile : Profile
  source : List UInt8

namespace Reading

variable (r : Reading)

/-- The text of the node that fills a field. -/
def fieldText? (n : Node) (field : String) : Option String :=
  (n.child? field).bind (·.text? r.source)

/-- The name that an anonymous function is bound to by the node above it. -/
def bindingName? (parent : Node) : Option String :=
  match parent.kind with
  | "variable_declarator" => r.fieldText? parent "name"
  | "pair" => r.fieldText? parent "key"
  | "assignment_expression" => r.fieldText? parent "left"
  | "public_field_definition" => r.fieldText? parent "name"
  | _ => none

/-- The name of a function: its own, or the one it is bound to. -/
def functionName (n : Node) (parent : Option Node) : String :=
  (r.fieldText? n "name" <|> parent.bind r.bindingName?).getD anonymous

/-- The number of parameters that one entry of a parameter list declares: one for each name. -/
def declaredCount (n : Node) : Nat :=
  if n.kind = "parameter_declaration" ∨ n.kind = "variadic_parameter_declaration" then
    max (n.childrenIn "name").length 1
  else 1

/-- The number of parameters in a parameter list. -/
def parametersIn (list : Node) : Nat :=
  ((list.namedChildren.filter fun n => !r.profile.isComment n.kind).map declaredCount).foldl
    (· + ·) 0

/-- The number of parameters of a function; a list that is a bare name is one parameter. -/
def parameterCount (n : Node) : Nat :=
  match n.child? "parameters" <|> n.child? "parameter" with
  | none => 0
  | some list =>
    if list.namedChildren.length = 0 ∧ list.kind = "identifier" then 1 else r.parametersIn list

/-- The measures of a function before anything inside of it has been counted. -/
def functionHeader (n : Node) (parent : Option Node) : FunctionMetrics where
  name := r.functionName n parent
  startLine := lineOf r.source n.start
  endLine := lineOf r.source n.stop
  cyclomatic := 1
  cognitive := 0
  parameterCount := r.parameterCount n
  calls := []

/-- The number of members in the body of a class. -/
def memberCount (n : Node) : Nat :=
  match n.child? "body" with
  | none => 0
  | some body => (body.namedChildren.filter fun n => !r.profile.isComment n.kind).length

/-- The measures of a class before anything inside of it has been counted. -/
def classHeader (n : Node) : ClassMetrics where
  name := ((n.child? "name" <|> n.child? "type").bind (·.text? r.source)).getD anonymous
  startLine := lineOf r.source n.start
  endLine := lineOf r.source n.stop
  complexity := 1
  memberCount := r.memberCount n

/-- What a call calls: a plain name, or the last part of a path to it. -/
def callee? (call : Node) : Option String :=
  (call.child? "function").bind fun callee =>
    if callee.kind.endsWith "identifier" then callee.text? r.source
    else
      (["property", "field", "attribute", "name"].findSome? callee.child?).bind (·.text? r.source)

end Reading

/-- A function or class that a walk is in. -/
inductive Scope where
  /-- The function with the given identity, whose measures stand at `index`. -/
  | function (node index : Nat)
  /-- The class with the given identity, whose measures stand at `index`. -/
  | class (node index : Nat)
deriving DecidableEq, Repr

namespace Scope

/-- The identity of the node that opened a scope. -/
def node : Scope → Nat
  | function node _ => node
  | «class» node _ => node

/-- The place of a function's measures. -/
def functionIndex? : Scope → Option Nat
  | function _ index => some index
  | «class» _ _ => none

/-- The place of a class's measures. -/
def classIndex? : Scope → Option Nat
  | function _ _ => none
  | «class» _ index => some index

end Scope

/-- What a walk has counted so far, and the scopes that it is in. -/
structure Tally where
  decisions : Nat := 0
  cognitive : Nat := 0
  functions : Array FunctionMetrics := #[]
  classes : Array ClassMetrics := #[]
  /-- The open scopes, innermost first. -/
  scopes : List Scope := []

namespace Tally

/-- Changes the measures of the innermost function. -/
def onFunction (t : Tally) (change : FunctionMetrics → FunctionMetrics) : Tally :=
  match t.scopes.findSome? Scope.functionIndex? with
  | some index => { t with functions := t.functions.modify index change }
  | none => t

/-- Changes the measures of the innermost class. -/
def onClass (t : Tally) (change : ClassMetrics → ClassMetrics) : Tally :=
  match t.scopes.findSome? Scope.classIndex? with
  | some index => { t with classes := t.classes.modify index change }
  | none => t

/-- Counts a cognitive point. -/
def addCognitive (t : Tally) : Tally :=
  { t with cognitive := t.cognitive + 1 }.onFunction
    fun f => { f with cognitive := f.cognitive + 1 }

/-- Counts a decision. -/
def addDecision (t : Tally) : Tally :=
  ({ t with decisions := t.decisions + 1 }.onFunction
    fun f => { f with cyclomatic := f.cyclomatic + 1 }).onClass
    fun c => { c with complexity := c.complexity + 1 }

/-- Notes a call. -/
def addCall (t : Tally) (name : String) : Tally :=
  t.onFunction fun f => { f with calls := f.calls.insert name }

/-- Opens the scope of a function or class. -/
def openScope (r : Reading) (n : Node) (parent : Option Node) (t : Tally) : Tally :=
  if r.profile.isFunction n.kind then
    { t with
      functions := t.functions.push (r.functionHeader n parent)
      scopes := .function n.id t.functions.size :: t.scopes }
  else if r.profile.isClass n.kind then
    { t with
      classes := t.classes.push (r.classHeader n)
      scopes := .class n.id t.classes.size :: t.scopes }
  else t

/-- Counts what a named node is: a branch, else an arm, else a logical operator, else a call. -/
def count (r : Reading) (n : Node) (t : Tally) : Tally :=
  if r.profile.isBranch n.kind then t.addDecision.addCognitive
  else if r.profile.isCase n.kind then t.addDecision
  else if r.profile.isLogical n then t.addCognitive
  else if r.profile.isCall n.kind then
    match r.callee? n with
    | some name => t.addCall name
    | none => t
  else t

/-- What happens when a node is entered; tokens do nothing. -/
def enter (r : Reading) (c : Cursor) (t : Tally) : Tally :=
  if c.node.named then
    count r c.node (openScope r c.node (c.parent?.map Cursor.node) t)
  else t

/-- What happens when a node is left: the scope that it opened is closed. -/
def leave (c : Cursor) (t : Tally) : Tally :=
  match t.scopes with
  | scope :: outer => if scope.node = c.node.id then { t with scopes := outer } else t
  | [] => t

/-- The counts over a whole tree. -/
def ofTree (r : Reading) (root : Node) : Tally :=
  Cursor.walk (enter r) leave root {}

end Tally

/-- The measures of a source, given its syntax tree. -/
def FileMetrics.ofTree (path : Path) (language : Language) (source : String) (root : Node) :
    FileMetrics :=
  let tally := Tally.ofTree ⟨language.profile, source.toUTF8.toList⟩ root
  let lines := LineCounts.ofSource language.commentStyle source
  let cyclomatic := 1 + tally.decisions
  { path, language
    linesOfCode := lines.code
    commentLines := lines.comment
    blankLines := lines.blank
    cyclomatic
    cognitive := tally.cognitive
    maintainability := maintainabilityIndex lines.code cyclomatic
    functions := tally.functions.toList
    classes := tally.classes.toList }

end CodeAudit
