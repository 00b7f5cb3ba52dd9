import CodeAudit.Duplicate.Window
import CodeAudit.Path
import Std.Data.HashMap
/-!
# Occurrences of windows

The windows of some files, gathered by their hashes. A group holds one hash and all the places where
a window with that hash starts, in the order of the files and of the lines in a file.
-/
namespace CodeAudit.Duplicate

/-- A source and its path. -/
structure SourceText where
  path : Path
  source : String
deriving DecidableEq, Repr, Inhabited

/-- A place where a window starts: the number of its file and of its first line, both from zero. -/
structure Occurrence where
  file : Nat
  start : Nat
deriving DecidableEq, Repr, Hashable

namespace Occurrence

/-- The place some lines further down in the same file. -/
def shift (o : Occurrence) (lines : Nat) : Occurrence :=
  { o with start := o.start + lines }

/-- The order of places: by file, then by line. -/
def before (o p : Occurrence) : Bool :=
  o.file < p.file || (o.file == p.file && o.start < p.start)

end Occurrence

/-- A hash and the places where the windows with that hash start. -/
structure Group where
  hash : String
  starts : List Occurrence
deriving DecidableEq, Repr

namespace Group

/-- The number of different files in which a group occurs. -/
def fileCount (g : Group) : Nat :=
  (g.starts.map Occurrence.file).eraseDups.length

/-- The order of groups: by their first places. -/
def le (g h : Group) : Bool :=
  match g.starts, h.starts with
  | [], _ => true
  | _ :: _, [] => false
  | o :: _, p :: _ => !p.before o

end Group

/-- The places of all windows that are looked at, with their hashes, in order. -/
def hashedWindows (files : List SourceText) (size : Nat) : List (String × Occurrence) :=
  files.zipIdx.flatMap fun (file, index) =>
    let lines := Text.lines file.source.toList
    (scannedStarts lines size).map fun start =>
      (windowHash (windowAt lines size start), ⟨index, start⟩)

/-- Gathers places by hash; each list of places keeps its order. -/
def gather (windows : List (String × Occurrence)) : Std.HashMap String (List Occurrence) :=
  windows.foldr (fun (hash, place) table => table.insert hash (place :: table.getD hash [])) ∅

/-- The groups of the windows of some files, in no particular order. -/
def groups (files : List SourceText) (size : Nat) : List Group :=
  (gather (hashedWindows files size)).toList.map fun (hash, starts) => ⟨hash, starts⟩

end CodeAudit.Duplicate
