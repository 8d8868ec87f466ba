import HostBindings.Catalog.Directory
import HostBindings.Generate.Artifact
import HostBindings.Settings.Document

/-!
Generation from and into directories. Nothing is written before the file is generated, and the
directory it goes to then holds nothing else.
-/

namespace HostBindings.Generate

open HostBindings.Files

variable {m : Type → Type} [Monad m] [FileSystem m]

def settingsOfFile (path : String) : ExceptT Error m Settings := do
  let text ← attempt (.io path) (readText path)
  ofExcept ((Settings.ofText text).mapError fun e => .settings (.inFile path e))

def artifactOfDirectory (dir : String) (s : Settings) : ExceptT Error m Artifact := do
  let catalog ← ExceptT.adapt .catalog (Catalog.ofDirectory dir)
  ofExcept (artifact catalog s)

def Artifact.write (a : Artifact) (dir : String) : ExceptT Error m String := do
  if ← (FileSystem.isThere dir : m Bool) then
    attempt (.io dir) (FileSystem.removeDirectory dir)
  attempt (.io dir) (makeDirectories dir)
  let path := Path.join dir a.fileName
  attempt (.io path) (FileSystem.write path (Text.encodeUtf8 a.contents))
  return path

end HostBindings.Generate
