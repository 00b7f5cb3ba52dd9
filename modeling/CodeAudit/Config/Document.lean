import CodeAudit.Config.Codec
import CodeAudit.FileSystem.Basic
import CodeAudit.Run.Error
import CodeAudit.Toml.Document
/-!
# Configuration documents

A configuration is kept in a TOML document.
-/
namespace CodeAudit.RunConfig

/-- The configuration that a TOML document holds. -/
def ofToml (document : String) : Except RunError RunConfig :=
  match (Toml.parse? document).map decodeDocument with
  | some (.ok config) => .ok config
  | _ => .error (.configuration "invalid config TOML")

/-- The configuration in a file. -/
def load (fs : FileSystem) (path : Path) : Except RunError RunConfig :=
  match fs.read path with
  | .ok document => ofToml document
  | .error e => .error (.configuration ("cannot read " ++ path.text ++ ": " ++ e.message))

end CodeAudit.RunConfig
