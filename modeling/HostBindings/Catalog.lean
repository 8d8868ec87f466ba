import HostBindings.Catalog.Error
import HostBindings.Interface

/-!
A catalog: the entities of one library, interfaces and records apart, each in the order given.
`Catalog.fault?` checks that names are distinct, that every reference has a target, and that
callbacks stand only in methods of services.
-/

namespace HostBindings

structure Catalog where
  interfaces : List Interface
  records : List Record
  deriving DecidableEq, Repr

namespace Catalog

def ofEntities : List Entity → Catalog
  | [] => ⟨[], []⟩
  | .interface i :: es =>
    let rest := ofEntities es
    ⟨i :: rest.interfaces, rest.records⟩
  | .record r :: es =>
    let rest := ofEntities es
    ⟨rest.interfaces, r :: rest.records⟩

/-- The interfaces that the host implements. -/
def callbacks (c : Catalog) : List Interface :=
  c.interfaces.filter (·.isCallback)

/-- The interfaces that native code implements. -/
def services (c : Catalog) : List Interface :=
  c.interfaces.filter (!·.isCallback)

def callback? (c : Catalog) (name : String) : Option Interface :=
  c.callbacks.find? (·.name == name)

def record? (c : Catalog) (name : String) : Option Record :=
  c.records.find? (·.name == name)

def isEmpty (c : Catalog) : Bool :=
  c.interfaces.isEmpty && c.records.isEmpty

def names (c : Catalog) : List String :=
  c.interfaces.map (·.name) ++ c.records.map (·.name)

def firstRepeated? (seen : List String) : List String → Option String
  | [] => none
  | name :: names =>
    if name ∈ seen then some name else firstRepeated? (name :: seen) names

/-- The record that a type names, if the catalog lacks it. -/
def recordFault? (c : Catalog) (owner : String) (type : BoundaryType) : Option CatalogError :=
  match type.recordName? with
  | some name => if (c.record? name).isNone then some (.unresolvedRecord name owner) else none
  | none => none

/-- The callback that a method type names, if it may not stand there or the catalog lacks it. -/
def callbackFault? (c : Catalog) (i : Interface) (m : Method) (type : BoundaryType) :
    Option CatalogError :=
  match type.callbackName? with
  | some name =>
    if i.isCallback then some (.unsupported (.nestedCallback (i.name ++ "::" ++ m.name) name))
    else if (c.callback? name).isNone then some (.unresolvedCallback name i.name m.name)
    else none
  | none => none

def methodTypeFault? (c : Catalog) (i : Interface) (m : Method) (type : BoundaryType) :
    Option CatalogError :=
  (c.callbackFault? i m type).or (c.recordFault? (i.name ++ "::" ++ m.name) type)

def interfaceFault? (c : Catalog) (i : Interface) : Option CatalogError :=
  i.methods.findSome? fun m => m.types.findSome? (c.methodTypeFault? i m)

def fieldFault? (c : Catalog) (r : Record) (f : Slot) : Option CatalogError :=
  let owner := r.name ++ "." ++ f.name
  if f.type.isVoid || f.type.isCallback then some (.unsupported (.fieldType owner f.type))
  else c.recordFault? owner f.type

/-- The first thing that is wrong with a catalog: repeated names before references in interfaces,
and those before fields of records. -/
def fault? (c : Catalog) : Option CatalogError :=
  ((firstRepeated? [] c.names).map .duplicateEntity).or <|
    (c.interfaces.findSome? c.interfaceFault?).or <|
      c.records.findSome? fun r => r.fields.findSome? (c.fieldFault? r)

def check (c : Catalog) : Except CatalogError Unit :=
  match c.fault? with
  | some e => .error e
  | none => .ok ()

end Catalog

end HostBindings
