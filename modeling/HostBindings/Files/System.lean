import HostBindings.Files.Tree
import HostBindings.Text.Utf8

/-!
File systems: the operations that loading and writing need. A tree that operations change is a file
system, so what a command does to files can be stated of trees.
-/

namespace HostBindings.Files

class FileSystem (m : Type → Type) where
  /-- The entries of a directory, in no particular order. -/
  entries (path : String) : m (Except Fault (List Tree.Entry))
  read (path : String) : m (Except Fault (List UInt8))
  isThere (path : String) : m Bool
  isDirectory (path : String) : m Bool
  write (path : String) (octets : List UInt8) : m (Except Fault Unit)
  makeDirectory (path : String) : m (Except Fault Unit)
  /-- Removes a directory with all that it holds. -/
  removeDirectory (path : String) : m (Except Fault Unit)

instance : FileSystem (StateM Tree) where
  entries path t := (t.entries path, t)
  read path t := (t.read path, t)
  isThere path t := (t.exists? path, t)
  write path octets t := t.write path octets
  isDirectory path t := (t.isDirectory path, t)
  makeDirectory path t := t.makeDirectory path
  removeDirectory path t := t.removeDirectory path

variable {m : Type → Type} [Monad m] {α ε : Type}

def attempt (error : Fault → ε) (operation : m (Except Fault α)) : ExceptT ε m α :=
  ExceptT.mk do return (← operation).mapError error

variable [FileSystem m]

def readText (path : String) : m (Except Fault String) := do
  match ← FileSystem.read path with
  | .error fault => return .error fault
  | .ok octets => return (Text.decodeUtf8 octets).mapError fun _ => .notText

def ensureDirectory (path : String) : m (Except Fault Unit) := do
  match ← FileSystem.makeDirectory path with
  | .error .exists =>
    if ← FileSystem.isDirectory path then return .ok () else return .error .exists
  | result => return result

/-- Makes directories, the first of which stands in the second and so on, from the outermost one
that is missing. -/
def ensureAll : List String → m (Except Fault Unit)
  | [] => return .ok ()
  | path :: outer => do
    match ← ensureDirectory path with
    | .error .notFound =>
      match ← ensureAll outer with
      | .ok _ => ensureDirectory path
      | failed => return failed
    | result => return result

def makeDirectories (path : String) : m (Except Fault Unit) :=
  ensureAll (Path.ancestors path)

end HostBindings.Files
