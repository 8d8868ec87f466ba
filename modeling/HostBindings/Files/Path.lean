import HostBindings.Text.Split

/-!
Paths as texts: steps with slashes between them. A slash at the end asks for a directory, and so
counts as a further step that stays in place.
-/

namespace HostBindings.Files.Path

open HostBindings.Text

def names (path : String) : List String :=
  ((splitAtChar (· == '/') path.toList).filter fun part => !part.isEmpty).map String.ofList

def isAbsolute (path : String) : Bool :=
  path.toList.head? == some '/'

def endsInSlash (path : String) : Bool :=
  path.toList.getLast? == some '/'

def steps (path : String) : List String :=
  if endsInSlash path then names path ++ ["."] else names path

/-- The path of an entry of a directory; an absolute entry stands alone. -/
def join (dir entry : String) : String :=
  if isAbsolute entry || dir.isEmpty then entry
  else if endsInSlash dir then dir ++ entry
  else dir ++ "/" ++ entry

/-- A file name that ends in a point and the given letters, with something before the point. -/
def hasExtension (extension name : String) : Bool :=
  let suffix := '.' :: extension.toList
  suffix.length < name.toList.length && suffix.isSuffixOf name.toList

/-- The path itself and those of the directories that it leads through, innermost first. -/
def ancestors (path : String) : List String :=
  let root := if isAbsolute path then "/" else ""
  let steps := (names path).filter (· != ".")
  let outer := (List.range steps.length).reverse.filter (0 < ·) |>.map fun n =>
    root ++ String.intercalate "/" (steps.take n)
  if steps.isEmpty && (path.isEmpty || isAbsolute path) then [] else path :: outer

end HostBindings.Files.Path
