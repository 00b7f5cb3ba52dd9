/-!
# Syntax trees

A syntax tree is made of nodes; a node covers a stretch of the source's bytes, has a kind, and may
fill a named field of its parent. Nodes that are not named are tokens, such as keywords and
operators. Every node carries an identity, by which a walk knows it again when it leaves it.
-/
namespace CodeAudit

/-- A node of a syntax tree with all that hangs below it. -/
inductive Node where
  | mk (id : Nat) (named : Bool) (kind : String) (field : Option String) (start stop : Nat)
    (children : List Node)
deriving Repr, Inhabited

namespace Node

/-- The identity of a node. -/
def id : Node → Nat
  | mk id _ _ _ _ _ _ => id

/-- Whether a node is named; tokens are not. -/
def named : Node → Bool
  | mk _ named _ _ _ _ _ => named

def kind : Node → String
  | mk _ _ kind _ _ _ _ => kind

/-- The field of its parent that a node fills. -/
def field : Node → Option String
  | mk _ _ _ field _ _ _ => field

/-- The first byte that a node covers. -/
def start : Node → Nat
  | mk _ _ _ _ start _ _ => start

/-- The byte after the last one that a node covers. -/
def stop : Node → Nat
  | mk _ _ _ _ _ stop _ => stop

def children : Node → List Node
  | mk _ _ _ _ _ _ children => children

/-- The first child that fills a field. -/
def child? (n : Node) (field : String) : Option Node :=
  n.children.find? fun child => child.field == some field

/-- All children that fill a field. -/
def childrenIn (n : Node) (field : String) : List Node :=
  n.children.filter fun child => child.field == some field

/-- The children that are named. -/
def namedChildren (n : Node) : List Node :=
  n.children.filter named

mutual

/-- The number of nodes of a tree. -/
def size : Node → Nat
  | mk _ _ _ _ _ _ children => 1 + sizes children

/-- The number of nodes of some trees. -/
def sizes : List Node → Nat
  | [] => 0
  | n :: rest => size n + sizes rest

end

/-- The size of a node is one more than the sizes of its children. -/
theorem size_eq (n : Node) : n.size = 1 + sizes n.children := by
  cases n; simp [size, children]

/-- The bytes of the source that a node covers. -/
def bytes (n : Node) (source : List UInt8) : List UInt8 :=
  (source.drop n.start).take (n.stop - n.start)

/-- The text of the source that a node covers, if it is well formed. -/
def text? (n : Node) (source : List UInt8) : Option String :=
  String.fromUTF8? ⟨(n.bytes source).toArray⟩

end Node

/-- The number of the line, from one, that holds the byte at an offset. -/
def lineOf (source : List UInt8) (offset : Nat) : Nat :=
  (source.take offset).count 10 + 1

/-- A node in a list of all nodes of a tree, parents before their children. -/
structure PreorderEntry where
  /-- The number of nodes above this one. -/
  depth : Nat
  named : Bool
  kind : String
  field : Option String
  start : Nat
  stop : Nat
deriving DecidableEq, Repr

namespace Node

/-- Puts an entry above the trees to its right that are deeper than it. -/
def place (entry : PreorderEntry × Nat) (trees : List (Nat × Node)) : List (Nat × Node) :=
  let (e, id) := entry
  let below := trees.takeWhile fun t => e.depth < t.1
  let beside := trees.dropWhile fun t => e.depth < t.1
  (e.depth, .mk id e.named e.kind e.field e.start e.stop (below.map Prod.snd)) :: beside

/-- The tree whose nodes are listed parents first; the identity of a node is its place in the list. -/
def ofPreorder? (entries : List PreorderEntry) : Option Node :=
  match entries.zipIdx.foldr place [] with
  | [(_, root)] => some root
  | _ => none

end Node

end CodeAudit
