import CodeAudit.FileSystem.Basic
/-!
# A disk in memory

Files and directories by their names from the root, and a working directory. A path is looked up
step by step: every step but the last has to lead into a directory that exists, `..` goes back to
the directory above, and a slash at the end asks for a directory. A name has 255 bytes at most, and a
path has fewer than 4096.
-/
namespace CodeAudit

/-- What a name can stand for. -/
inductive DiskItem where
  | file (bytes : ByteArray)
  | directory

/-- Files and directories, named from the root; the root itself is always there. -/
structure Disk where
  items : List (List (List Char) × DiskItem)
  /-- The names that lead to the working directory. -/
  working : List (List Char)

namespace Disk

/-- The size that directories have. -/
def directorySize : Nat := 4096

/-- A step of a path. -/
inductive Step where
  /-- Stay, but in a directory. -/
  | stay
  | up
  | into (name : List Char)

/-- The steps of a path; a slash at the end is a step that stays. -/
def stepsOf (text : List Char) : List Step :=
  (Path.pieces text).map fun piece =>
    if piece = [] ∨ piece = ['.'] then .stay
    else if piece = ['.', '.'] then .up
    else .into piece

/-- The greatest number of bytes in a name. -/
def nameLimit : Nat := 255

/-- The number of bytes that a path stays below. -/
def pathLimit : Nat := 4096

/-- The number of bytes of a text. -/
def byteLength (text : List Char) : Nat :=
  (text.map Char.utf8Size).foldl (· + ·) 0

/-- What a sequence of names stands for. -/
def item? (d : Disk) (names : List (List Char)) : Option DiskItem :=
  if names = [] then some .directory
  else (d.items.find? (·.1 == names)).map Prod.snd

/-- Follows steps from a name, which has to be that of a directory if there are any. -/
def follow (d : Disk) (names : List (List Char)) : List Step → Except ReadError (List (List Char))
  | [] => .ok names
  | step :: rest =>
    match d.item? names with
    | none => .error .notFound
    | some (.file _) => .error .notDirectory
    | some .directory =>
      match step with
      | .stay => d.follow names rest
      | .up => d.follow names.dropLast rest
      | .into name =>
        if nameLimit < byteLength name then .error .nameTooLong
        else d.follow (names ++ [name]) rest

/-- The names that lead to where a path starts. -/
def startOf (d : Disk) (text : List Char) : List (List Char) :=
  if text.head? = some '/' then [] else d.working

/-- What a path leads to. -/
def lookup (d : Disk) (p : Path) : Except ReadError DiskItem :=
  let text := p.text.toList
  if text = [] then .error .notFound
  else if '\x00' ∈ text then .error .unexpectedEnd
  else if pathLimit ≤ byteLength text then .error .nameTooLong
  else
    match d.follow (d.startOf text) (stepsOf text) with
    | .error e => .error e
    | .ok names =>
      match d.item? names with
      | some item => .ok item
      | none => .error .notFound

/-- The text of the file a path leads to. -/
def read (d : Disk) (p : Path) : Except ReadError String :=
  match d.lookup p with
  | .error e => .error e
  | .ok .directory => .error .isDirectory
  | .ok (.file bytes) =>
    match String.fromUTF8? bytes with
    | some text => .ok text
    | none => .error .notText

/-- The size of what a path leads to. -/
def size (d : Disk) (p : Path) : Nat :=
  match d.lookup p with
  | .ok (.file bytes) => bytes.size
  | .ok .directory => directorySize
  | .error _ => 0

/-- What can be asked of a disk. -/
def fileSystem (d : Disk) : FileSystem :=
  ⟨d.read, d.size⟩

/-- Puts an item at a sequence of names, in the place of what is there. -/
def put (d : Disk) (names : List (List Char)) (item : DiskItem) : Disk :=
  if names = [] then d
  else { d with items := (names, item) :: d.items.filter (·.1 != names) }

/-- The names that a path leads to when every directory on the way is made. -/
def target (d : Disk) (p : Path) : List (List Char) :=
  let text := p.text.toList
  (stepsOf text).foldl (fun names step =>
    match step with
    | .stay => names
    | .up => names.dropLast
    | .into name => names ++ [name]) (d.startOf text)

/-- Makes the directories of some names, from the root down, where nothing is yet. -/
def makeDirectories (d : Disk) (names : List (List Char)) : Disk :=
  (List.range (names.length + 1)).foldl (fun d count =>
    let above := names.take count
    if (d.item? above).isSome then d else d.put above .directory) d

/-- A disk with a working directory and nothing in it. -/
def empty (working : Path) : Disk :=
  let names := (Path.pieces working.text.toList).filter (· ≠ [])
  (Disk.mk [] names).makeDirectories names

/-- Makes a directory and those above it. -/
def addDirectory (d : Disk) (p : Path) : Disk :=
  d.makeDirectories (d.target p)

/-- Writes a file and makes the directories above it. -/
def addFile (d : Disk) (p : Path) (bytes : ByteArray) : Disk :=
  let names := d.target p
  (d.makeDirectories names.dropLast).put names (.file bytes)

/-- Takes an entry away. -/
def remove (d : Disk) (p : Path) : Disk :=
  let names := d.target p
  { d with items := d.items.filter (·.1 != names) }

end Disk

end CodeAudit
