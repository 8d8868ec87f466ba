import HostBindings.Command.Failure
import HostBindings.Command.Invocation
import HostBindings.Generate.Directory

/-!
Running commands. A generation takes its settings from a file if one is named, then from the command
line, and checks them before it reads any document. The log is left aside, since nothing depends on
it.
-/

namespace HostBindings.Command

open HostBindings.Files

variable {m : Type → Type} [Monad m] [FileSystem m]

def settingsOf (g : Generation) : ExceptT Failure m Settings := do
  let base ← match g.settings with
    | some path => ExceptT.adapt (.settingsFile path) (Generate.settingsOfFile path)
    | none => pure Settings.default
  let base := { base with moduleName := g.moduleName, lang := g.lang.getD base.lang }
  let s := match g.libraries with
    | some list => base.addLibraries list
    | none => base
  ofExcept (s.check.mapError .settings)
  return s

def generate (g : Generation) : ExceptT Failure m String := do
  let s ← settingsOf g
  let a ← ExceptT.adapt (.generate g.documents) (Generate.artifactOfDirectory g.documents s)
  ExceptT.adapt (.write g.output) (a.write g.output)

def summary (c : Catalog) : String :=
  "AST is valid: " ++ toString c.services.length ++ " service(s), " ++
    toString c.callbacks.length ++ " callback(s), " ++ toString c.records.length ++ " struct(s)"

def check (documents : String) : ExceptT Failure m Catalog :=
  ExceptT.adapt (.load documents) (Catalog.ofDirectory documents)

/-! ### Outcomes -/

structure Outcome where
  code : UInt32
  output : String
  errors : String
  deriving DecidableEq, Repr

def versionText : String := "rsbind 0.3.0"

def usageText : String :=
  "Usage: rsbind [--log-level <LEVEL>] generate <ast_dir> <module_name> <output_dir>" ++
    " [-l|--lang <LANG>] [-c|--config <FILE>] [--ext-libs <LIST>]\n" ++
    "       rsbind [--log-level <LEVEL>] check <ast_dir>\n" ++
    "       rsbind --version"

def Outcome.ofResult (json toml : String) : Except Failure String → Outcome
  | .ok line => ⟨0, line ++ "\n", ""⟩
  | .error f => ⟨1, "", f.report json toml⟩

/-- Runs a command line. `json` and `toml` are the wordings for texts that cannot be read. -/
def run (json toml : String) (words : List String) : m Outcome :=
  match Invocation.ofWords words with
  -- a faulty command line has an exit code of its own
  | .error e => return ⟨2, "", "error: " ++ e.message ++ "\n\n" ++ usageText ++ "\n"⟩
  | .ok .help => return ⟨0, usageText ++ "\n", ""⟩
  | .ok .version => return ⟨0, versionText ++ "\n", ""⟩
  | .ok (.generate g) => do
    let result ← (generate g).run
    return .ofResult json toml (result.map ("Generated " ++ ·))
  | .ok (.check documents) => do
    let result ← (check documents).run
    return .ofResult json toml (result.map summary)

end HostBindings.Command
