import CodeAudit.Duplicate.Group
/-!
# Duplicated blocks

Windows that repeat in lockstep, every place of one being one line below a place of another, are
merged into one block. A block is kept by its first window: the hash of that window, the places
where it starts, and the number of windows that follow it in lockstep.

Two passes look for blocks: within one file, where a window has to occur twice, and across files,
where it has to occur in two files.
-/
namespace CodeAudit.Duplicate

/-- Windows that repeat in lockstep. -/
structure Run where
  /-- The hash of the first window. -/
  hash : String
  /-- The places where the first window starts. -/
  starts : List Occurrence
  /-- How many windows follow the first. -/
  extension : Nat
deriving DecidableEq, Repr

namespace Run

/-- A run of one window. -/
def ofGroup (g : Group) : Run :=
  ⟨g.hash, g.starts, 0⟩

/-- The run with one more window. -/
def extend (r : Run) : Run :=
  { r with extension := r.extension + 1 }

end Run

/-- The places one line further down. -/
def shifted (starts : List Occurrence) : List Occurrence :=
  starts.map (·.shift 1)

/-- The merging of groups: the runs so far, and what they go on with. -/
structure Merging where
  runs : Array Run := #[]
  /-- The number of the run that goes on with a window at some places. -/
  expected : Std.HashMap (List Occurrence) Nat := ∅

/-- Adds a group: it continues the run that expects its places, or starts a run. -/
def Merging.add (m : Merging) (g : Group) : Merging :=
  match m.expected[g.starts]? with
  | some i =>
    { runs := m.runs.modify i Run.extend
      expected := (m.expected.erase g.starts).insert (shifted g.starts) i }
  | none =>
    { runs := m.runs.push (Run.ofGroup g)
      expected := m.expected.insert (shifted g.starts) m.runs.size }

/-- Merges groups, which come in the order of their places. -/
def Run.merge (groups : List Group) : List Run :=
  (groups.foldl Merging.add {}).runs.toList

/-- One copy of a block; its lines are counted from one, both ends included. -/
structure Location where
  file : Path
  startLine : Nat
  endLine : Nat
deriving DecidableEq, Repr

/-- A block of lines that occurs more than once. -/
structure Block where
  /-- The hash of the block's first window. -/
  hash : String
  /-- The number of lines of each copy. -/
  lines : Nat
  locations : List Location
deriving DecidableEq, Repr

/-- The number of different files a block occurs in. -/
def Block.distinctFiles (b : Block) : Nat :=
  (Path.distinct (b.locations.map Location.file)).length

/-- The path of the file with the given number. -/
def pathAt (files : List SourceText) (index : Nat) : Path :=
  (files[index]?.map SourceText.path).getD ⟨""⟩

/-- The block a run of windows of `size` lines stands for. -/
def Run.toBlock (files : List SourceText) (size : Nat) (r : Run) : Block where
  hash := r.hash
  lines := size + r.extension
  locations := r.starts.map fun o =>
    ⟨pathAt files o.file, o.start + 1, o.start + size + r.extension⟩

/-- The blocks of some groups, whose order does not count: blocks come in the order of their places. -/
def blocksOf (files : List SourceText) (size : Nat) (groups : List Group) : List Block :=
  (Run.merge (groups.mergeSort Group.le)).map (Run.toBlock files size)

/-- The blocks whose windows have `size` lines and whose groups pass the test `keep`. -/
def detect (files : List SourceText) (size : Nat) (keep : Group → Bool) : List Block :=
  if size = 0 then [] else blocksOf files size ((groups files size).filter keep)

/-- The blocks that occur at least twice in one source. -/
def withinFile (file : SourceText) (size : Nat) : List Block :=
  detect [file] size fun g => 2 ≤ g.starts.length

/-- The files without those whose path is the same as an earlier one's. -/
def distinctFiles (files : List SourceText) : List SourceText :=
  files.foldl (fun kept f => if kept.any (f.path.same ·.path) then kept else kept ++ [f]) []

/-- The blocks that occur in at least two files; a path that is listed again is passed over. -/
def acrossFiles (files : List SourceText) (size : Nat) : List Block :=
  detect (distinctFiles files) size fun g => 2 ≤ g.fileCount

end CodeAudit.Duplicate
