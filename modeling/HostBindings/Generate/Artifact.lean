import HostBindings.Generate.HostNames
import HostBindings.Generate.Service
import HostBindings.Layout.File

/-!
The generated file of a catalog: registries of callbacks, records, callback interfaces, then each
service with the proxies that no earlier service has made.
-/

namespace HostBindings.Generate

open HostBindings.Code

structure Artifact where
  fileName : String
  contents : String
  deriving DecidableEq, Repr

def registries (lang : Lang) (c : Catalog) : List Member :=
  if c.callbacks.isEmpty then []
  else lang.registryType :: c.callbacks.map fun i => .field (lang.registryField i.name)

/-- The types of all services. `claimed` holds the callbacks whose proxies earlier services have
made. -/
def services (lang : Lang) (c : Catalog) (s : Settings) (claimed : List String) :
    List Interface → Except PlanError (List TypeDecl)
  | [] => .ok []
  | i :: is => do
    let proxies := i.callbackReturns.filter fun name => !claimed.contains name
    let types ← serviceTypes lang (.ofInterface c s i) i proxies
    let rest ← services lang c s (claimed ++ proxies) is
    return types ++ rest

def file (c : Catalog) (s : Settings) : Except PlanError SourceFile := do
  let lang := s.lang
  let types ← services lang c s [] c.services
  let members :=
    registries lang c ++ c.records.map (fun r => (recordType lang r).member) ++
      c.callbacks.map (fun i => (callbackType lang i).member) ++ types.map (·.member)
  return {
    name := lang.fileName s.moduleName
    header := s.header
    package := lang.package? s
    imports := lang.fileImports s
    members }

/-- Generates the file of a catalog. Settings are checked before the catalog, and the catalog
before host names. -/
def artifact (c : Catalog) (s : Settings) : Except Error Artifact := do
  s.check.mapError .settings
  c.check.mapError .catalog
  if let some clash := catalogCollision? s.lang c then throw (.collision clash)
  let f ← (file c s).mapError .plan
  let contents ← (Layout.renderFile s.lang s.indent f).mapError .unresolved
  return ⟨f.name, contents⟩

end HostBindings.Generate
