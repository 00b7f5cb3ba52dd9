import CodeAudit.Path
/-!
# File systems

A run asks two things of a file system: the text of a file, and the size of an entry.
-/
namespace CodeAudit

/-- Why the text of a file cannot be read. -/
inductive ReadError where
  | notFound
  | isDirectory
  | notDirectory
  /-- The path or one of its names has too many bytes. -/
  | nameTooLong
  /-- The path has a character of number zero, which ends the paths that an operating system takes. -/
  | unexpectedEnd
  /-- The bytes are no UTF-8. -/
  | notText
deriving DecidableEq, Repr, Inhabited

/-- The text of an error. -/
def ReadError.message : ReadError → String
  | notFound => "No such file or directory (os error 2)"
  | isDirectory => "Is a directory (os error 21)"
  | notDirectory => "Not a directory (os error 20)"
  | nameTooLong => "File name too long (os error 36)"
  | unexpectedEnd => "file name contained an unexpected NUL byte"
  | notText => "stream did not contain valid UTF-8"

/-- What can be asked of a file system. -/
structure FileSystem where
  /-- The text of a file. -/
  read : Path → Except ReadError String
  /-- The size of an entry in bytes; zero if there is none. -/
  size : Path → Nat

/-- What is known of an entry: its text or why that cannot be read, and its size. -/
structure FileEntry where
  content : Except ReadError String
  size : Nat

/-- The file system that has some entries, by the spelling of their paths, and no others. -/
def FileSystem.ofList (entries : List (Path × FileEntry)) : FileSystem where
  read p :=
    match entries.lookup p with
    | some entry => entry.content
    | none => .error .notFound
  size p := ((entries.lookup p).map FileEntry.size).getD 0

end CodeAudit
