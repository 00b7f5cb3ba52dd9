import CodeAudit.Json.Decode
import CodeAudit.Tree.Node
/-!
# Trees in JSON

A tree is kept as the list of its nodes, parents before their children. A node is a list of its
depth, one if it is named or else zero, its kind, the field it fills or an empty text, and the two
ends of the bytes that it covers.
-/
namespace CodeAudit

open Json (Decoder)
open Json.Fields (required)

namespace PreorderEntry

/-- Zero or one. -/
def decodeNamed : Decoder Bool := fun v =>
  (Decoder.size v).map (0 < ·)

/-- The name of a field, empty for none. -/
def decodeField : Decoder (Option String) := fun v =>
  (Decoder.string v).map fun name => if name.isEmpty then none else some name

def decode : Decoder PreorderEntry :=
  Decoder.record "node" <|
    PreorderEntry.mk <$> required "depth" Decoder.size <*> required "named" decodeNamed
      <*> required "kind" Decoder.string <*> required "field" decodeField
      <*> required "start" Decoder.size <*> required "end" Decoder.size

end PreorderEntry

/-- Reads a tree. -/
def Node.decode : Decoder Node := fun v =>
  match Decoder.listOf PreorderEntry.decode v with
  | .error e => .error e
  | .ok entries =>
    match Node.ofPreorder? entries with
    | some root => .ok root
    | none => .error (.badFormat "not the nodes of one tree")

end CodeAudit
