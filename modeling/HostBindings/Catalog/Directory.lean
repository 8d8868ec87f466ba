import HostBindings.Catalog
import HostBindings.Document
import HostBindings.Files.System

/-!
Catalogs in directories: each regular file with the extension `json` holds a document. Documents are
taken in the order of their names, whatever order the directory lists them in, and the catalog is
checked once all of them are read.
-/

namespace HostBindings

open HostBindings.Files

variable {m : Type → Type} [Monad m] [FileSystem m]

namespace Document

/-- The paths of the documents among the entries of a directory, in the order of their names. -/
def paths (dir : String) (entries : List Tree.Entry) : List String :=
  let names := (entries.filter fun e => e.isFile && Path.hasExtension "json" e.name).map (·.name)
  (names.mergeSort fun a b => decide (a ≤ b)).map (Path.join dir)

def list (dir : String) : ExceptT CatalogError m (List String) :=
  return paths dir (← attempt (.io dir) (FileSystem.entries dir))

def ofFile (path : String) : ExceptT CatalogError m Entity := do
  let text ← attempt (.io path) (readText path)
  ofExcept ((ofText text).mapError (.atFile path))

end Document

def Catalog.ofDirectory (dir : String) : ExceptT CatalogError m Catalog := do
  let paths ← Document.list dir
  let catalog := ofEntities (← paths.mapM Document.ofFile)
  ofExcept catalog.check
  return catalog

end HostBindings
