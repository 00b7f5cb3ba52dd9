/-!
# Paths

A path is kept as it was given. Two paths are the same file name when their components agree:
repeated slashes, a slash at the end and `.` components (but for a leading one) do not count, while
`..` is a component like any other. The extension is read off the last component.
-/
namespace CodeAudit

/-- A path, in the spelling it was given. -/
structure Path where
  text : String
deriving DecidableEq, Repr, Inhabited

namespace Path

/--
The path that is spelled by some bytes. Where they are no UTF-8, every byte outside of ASCII stands
as a replacement character.
-/
def ofBytes (bytes : ByteArray) : Path :=
  match String.fromUTF8? bytes with
  | some text => ⟨text⟩
  | none =>
    ⟨String.ofList (bytes.toList.map fun b => if b < 128 then Char.ofNat b.toNat else '\ufffd')⟩

/-- What a path is made of. -/
inductive Component where
  /-- The slash a path from the root starts with. -/
  | root
  /-- A leading `.`. -/
  | here
  /-- The parent directory, `..`. -/
  | up
  /-- The name of an entry. -/
  | name (text : List Char)
deriving DecidableEq, Repr

/-- The pieces between the slashes, empty ones included. -/
def pieces : List Char → List (List Char)
  | [] => [[]]
  | c :: rest =>
    if c = '/' then [] :: pieces rest
    else
      match pieces rest with
      | [] => [[c]]
      | piece :: more => (c :: piece) :: more

/-- The component a piece after the first one stands for. -/
def componentOf? (piece : List Char) : Option Component :=
  if piece = [] ∨ piece = ['.'] then none
  else if piece = ['.', '.'] then some .up
  else some (.name piece)

/-- The components of a path's characters. -/
def componentsOf (text : List Char) : List Component :=
  match text with
  | [] => []
  | '/' :: rest => .root :: (pieces rest).filterMap componentOf?
  | _ =>
    match pieces text with
    | ['.'] :: more => .here :: more.filterMap componentOf?
    | all => all.filterMap componentOf?

/-- The components of a path. -/
def components (p : Path) : List Component :=
  componentsOf p.text.toList

/-- Equality by components. -/
def same (p q : Path) : Bool :=
  p.components == q.components

/-- Keeps the first of each group of paths that are the same, in order. -/
def distinct (paths : List Path) : List Path :=
  paths.foldl (fun kept p => if kept.any p.same then kept else kept ++ [p]) []

/-- The text after the last dot of a name, unless that dot is its first character. -/
def extensionOf? (name : List Char) : Option (List Char) :=
  let ending := (name.reverse.takeWhile (· != '.')).reverse
  if ending.length + 1 < name.length then some ending else none

/-- The extension of the last component, if that is a name. -/
def extension? (p : Path) : Option (List Char) :=
  match p.components.getLast? with
  | some (.name text) => extensionOf? text
  | _ => none

/-- The spelling of a component. -/
def Component.text : Component → List Char
  | .root => ['/']
  | .here => ['.']
  | .up => ['.', '.']
  | .name text => text

/-- Appends a piece, with a slash before it unless one stands there already. -/
def append (front piece : List Char) : List Char :=
  if front.getLast? = some '/' then front ++ piece else front ++ '/' :: piece

/--
The path as it reads from the root when `base` is the working directory: `.` components and repeated
slashes are left out, `..` and a slash at the end stay, and so do exactly two slashes at the front.
-/
def absolute (base p : Path) : Path :=
  let text := p.text.toList
  let steps := p.components.filterMap fun c =>
    match c with
    | .root | .here => none
    | c => some c.text
  let start :=
    match text with
    | '/' :: '/' :: '/' :: _ => ['/']
    | '/' :: '/' :: _ => ['/', '/']
    | '/' :: _ => ['/']
    | _ => base.text.toList
  let joined := steps.foldl append start
  ⟨String.ofList (if text.getLast? = some '/' then append joined [] else joined)⟩

end Path

end CodeAudit
