import HostBindings.Catalog
import HostBindings.Generate.Error
import HostBindings.Target

/-!
Host names have to tell apart the methods of an interface, the arguments of a method that cross
the boundary, and the fields of a record. Fields keep their native names.
-/

namespace HostBindings.Generate

/-- The first name whose image is that of an earlier name; `seen` holds the earlier names with
their images. -/
def firstClash? (image : String → String) (seen : List (String × String)) :
    List String → Option (String × String × String)
  | [] => none
  | name :: names =>
    match seen.find? (·.1 == image name) with
    | some (_, first) => some (first, name, image name)
    | none => firstClash? image ((image name, name) :: seen) names

def collision? (scope : String) (image : String → String) (names : List String) :
    Option Collision :=
  (firstClash? image [] names).map fun (first, second, name) => { scope, first, second, name }

def interfaceCollision? (lang : Lang) (i : Interface) : Option Collision :=
  (collision? i.name lang.hostName (i.methods.map (·.name))).or <|
    i.methods.findSome? fun m =>
      collision? (i.name ++ "." ++ m.name) lang.hostName (m.passed.map (·.name))

def catalogCollision? (lang : Lang) (c : Catalog) : Option Collision :=
  (c.interfaces.findSome? (interfaceCollision? lang)).or <|
    c.records.findSome? fun r => collision? r.name id (r.fields.map (·.name))

end HostBindings.Generate
