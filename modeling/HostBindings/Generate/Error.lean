import HostBindings.Catalog.Error
import HostBindings.Code.Check
import HostBindings.Marshal.Plan
import HostBindings.Settings

/-!
Why a file cannot be generated or written.
-/

namespace HostBindings.Generate

/-- Two native names of one scope that have the same host name. -/
structure Collision where
  scope : String
  first : String
  second : String
  name : String
  deriving DecidableEq, Repr

inductive Error where
  | settings (e : SettingsError)
  | catalog (e : CatalogError)
  | collision (c : Collision)
  | plan (e : PlanError)
  | unresolved (u : Code.Unresolved)
  | io (path : String) (fault : Files.Fault)
  deriving DecidableEq, Repr

/-- The wording of an error; `json` and `toml` are the wordings for texts that cannot be read. -/
def Error.message (json toml : String) : Error → String
  | .settings e => e.message toml
  | .catalog e => e.message json
  | .collision c =>
    "`" ++ c.first ++ "` and `" ++ c.second ++ "` both map to `" ++ c.name ++ "` in " ++ c.scope
  | .plan e => e.message
  | .unresolved u => "unresolved type `" ++ u.name ++ "` referenced by " ++ u.context
  | .io path fault => "I/O error on " ++ path ++ ": " ++ fault.message

end HostBindings.Generate
