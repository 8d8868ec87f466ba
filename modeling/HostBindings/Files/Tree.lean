import HostBindings.Files.Fault
import HostBindings.Files.Path

/-!
Trees of files and directories, and what file operations do to them. A place in a tree is the list
of names that lead to it from the top. Every path starts at the top; links, rights and names that
are no UTF-8 are not modeled. An operation that fails may have changed the tree before it failed.
-/

namespace HostBindings.Files

inductive Tree where
  | file (octets : List UInt8)
  | directory (entries : List (String × Tree))
  deriving Inhabited

namespace Tree

def empty : Tree := .directory []

def child? (t : Tree) (name : String) : Option Tree :=
  match t with
  | .file _ => none
  | .directory entries => (entries.find? (·.1 == name)).map (·.2)

def at? (t : Tree) : List String → Option Tree
  | [] => some t
  | name :: place => (t.child? name).bind (at? · place)

/-- Puts something at a place, in place of what stands there or at the end of its directory. The
directory must be there. -/
def put (node : Tree) : List String → Tree → Tree
  | [], _ => node
  | _ :: _, .file octets => .file octets
  | name :: place, .directory entries =>
    if entries.any (·.1 == name) then
      .directory (entries.map fun (n, t) => if n == name then (n, put node place t) else (n, t))
    else if place.isEmpty then .directory (entries ++ [(name, node)])
    else .directory entries

def drop : List String → Tree → Tree
  | [], t => t
  | _ :: _, .file octets => .file octets
  | [name], .directory entries => .directory (entries.filter (·.1 != name))
  | name :: place, .directory entries =>
    .directory (entries.map fun (n, t) => if n == name then (n, drop place t) else (n, t))

/-! ### Finding -/

def maxName : Nat := 255

def maxPath : Nat := 4095

def walk (t : Tree) (here : List String) : List String → Except Fault (List String)
  | [] => .ok here
  | step :: steps =>
    match t.at? here with
    | none => .error .notFound
    | some (.file _) => .error .notDirectory
    | some (.directory entries) =>
      if step = "." then walk t here steps
      -- a step up from the top stays there
      else if step = ".." then walk t here.dropLast steps
      else if step.utf8ByteSize > maxName then .error .nameTooLong
      else if entries.any (·.1 == step) then walk t (here ++ [step]) steps
      else .error .notFound

def stepsOf (path : String) : Except Fault (List String) :=
  if path.toList.contains '\x00' then .error .zeroInPath
  else if path.utf8ByteSize > maxPath then .error .nameTooLong
  else if path.isEmpty then .error .notFound
  else .ok (Path.steps path)

def find (t : Tree) (path : String) : Except Fault (List String) := do
  let place ← t.walk [] (← stepsOf path)
  if (t.at? place).isSome then .ok place else .error .notFound

def get (t : Tree) (path : String) : Except Fault Tree := do
  let place ← t.find path
  match t.at? place with
  | some node => .ok node
  | none => .error .notFound

def exists? (t : Tree) (path : String) : Bool :=
  (t.get path).isOk

def isDirectory (t : Tree) (path : String) : Bool :=
  match t.get path with
  | .ok (.directory _) => true
  | _ => false

structure Entry where
  name : String
  isFile : Bool
  deriving DecidableEq, Repr

def entries (t : Tree) (path : String) : Except Fault (List Entry) := do
  match ← t.get path with
  | .file _ => .error .notDirectory
  | .directory entries =>
    .ok (entries.map fun (name, node) => ⟨name, node matches .file _⟩)

def read (t : Tree) (path : String) : Except Fault (List UInt8) := do
  match ← t.get path with
  | .file octets => .ok octets
  | .directory _ => .error .isDirectory

/-! ### Changing -/

/-- The place of the directory that a path's last step stands in, with that step. -/
def parent (t : Tree) (path : String) : Except Fault (List String × String) := do
  let steps ← stepsOf path
  let names := Path.names path
  match names.getLast? with
  | none => .ok ([], ".")
  | some last =>
    let place ← t.walk [] (steps.take (names.length - 1) ++ ["."])
    .ok (place, last)

def write (t : Tree) (path : String) (octets : List UInt8) : Except Fault Unit × Tree :=
  match t.parent path with
  | .error fault => (.error fault, t)
  | .ok (place, last) =>
    if last = "." || last = ".." || Path.endsInSlash path then (.error .isDirectory, t)
    else if last.utf8ByteSize > maxName then (.error .nameTooLong, t)
    else
      match t.at? (place ++ [last]) with
      | some (.directory _) => (.error .isDirectory, t)
      | _ => (.ok (), put (.file octets) (place ++ [last]) t)

def makeDirectory (t : Tree) (path : String) : Except Fault Unit × Tree :=
  match t.parent path with
  | .error fault => (.error fault, t)
  | .ok (place, last) =>
    if last = "." || last = ".." then (.error .exists, t)
    else if last.utf8ByteSize > maxName then (.error .nameTooLong, t)
    else if (t.at? (place ++ [last])).isSome then (.error .exists, t)
    else (.ok (), put empty (place ++ [last]) t)

/-- Removes a directory with all that it holds. The directory is emptied first, and its path is then
followed again; a path that leads through what was removed ends there without a fault, and the empty
directory stays. -/
def removeDirectory (t : Tree) (path : String) : Except Fault Unit × Tree :=
  match t.find path with
  | .error fault => (.error fault, t)
  | .ok place =>
    match t.at? place with
    | none => (.error .notFound, t)
    | some (.file _) => (.error .notDirectory, t)
    | some (.directory _) =>
      let emptied := put empty place t
      -- the path may lead through what has just been taken away
      match emptied.parent path with
      | .error .notFound => (.ok (), emptied)
      | .error fault => (.error fault, emptied)
      | .ok (place, last) =>
        if last = "." then (.error .selfReference, emptied)
        else if last = ".." then (.error .notEmpty, emptied)
        else (.ok (), drop (place ++ [last]) emptied)

end Tree

end HostBindings.Files
