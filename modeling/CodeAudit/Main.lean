import CodeAudit.CommandLine
import CodeAudit.Json.Parse
import CodeAudit.Tree.Codec
import Std.Time.DateTime.Timestamp
/-!
# The program

Reads the files that the arguments name and the trees beside them, and leaves the rest to the
command line. The tree of a source `a.ts` is kept in `a.ts.tree`; a source that has none is measured
for duplicates only.
-/
namespace CodeAudit

/-- Why a file could not be read. -/
def ReadError.ofFailure (isDirectory : Bool) : IO.Error → ReadError
  | .noFileOrDirectory .. => .notFound
  | .invalidArgument .. => .nameTooLong
  | _ => if isDirectory then .isDirectory else .notDirectory

/-- Asks what is known of a path. -/
def FileEntry.read (path : Path) : IO FileEntry := do
  let place := (← IO.currentDir) / path.text
  let size ← try pure (← place.metadata).byteSize.toNat catch _ => pure 0
  try
    let bytes ← IO.FS.readBinFile place
    match String.fromUTF8? bytes with
    | some text => return ⟨.ok text, bytes.size⟩
    | none => return ⟨.error .notText, bytes.size⟩
  catch e => return ⟨.error (.ofFailure (← place.isDir) e), size⟩

/-- Reads the tree that is kept beside a source. -/
def Node.readBeside (path : Path) : IO (Option Node) := do
  match (← FileEntry.read ⟨path.text ++ ".tree"⟩).content with
  | .error _ => return none
  | .ok text => return (Json.parse? text).bind fun value => (Node.decode value).toOption

/-- Reads the trees that are kept beside some sources. -/
def Grammar.readBeside (entries : List (Path × FileEntry)) : IO Grammar := do
  let mut trees := []
  for (path, entry) in entries do
    if let some language := Language.ofPath? path then
      if let .ok source := entry.content then
        if let some root ← Node.readBeside path then
          trees := (language, source, root) :: trees
  return Grammar.ofList trees

/-- The time of day. -/
def Timestamp.now : IO Timestamp := do
  let nanos := (← Std.Time.Timestamp.now).toNanosecondsSinceUnixEpoch.val
  return ⟨nanos / 1000000000, (nanos % 1000000000).toNat⟩

/-- Runs the command line and gives the exit code. -/
def runArguments (arguments : List String) : IO UInt32 := do
  let directory : Path := ⟨(← IO.currentDir).toString⟩
  let paths := (CommandLine.Request.ofArguments arguments).paths directory
  let entries ← paths.mapM fun path => return (path, ← FileEntry.read path)
  let workspace : Workspace := ⟨FileSystem.ofList entries, ← Grammar.readBeside entries⟩
  let answer := CommandLine.answer workspace directory (← Timestamp.now) arguments
  IO.print answer.output
  if let some complaint := answer.complaint then
    IO.eprintln complaint
  return answer.exitCode.toNat.toUInt32

end CodeAudit

/-- The program. -/
def main (arguments : List String) : IO UInt32 :=
  CodeAudit.runArguments arguments
