import HostBindings.Generate.Body

/-!
The host types of records and callback interfaces.
-/

namespace HostBindings.Generate

open HostBindings.Code

structure TypeDecl where
  head : TypeHead
  members : List Member

def TypeDecl.member (t : TypeDecl) : Member :=
  .type t.head t.members

/-- The type of a record: one property for each field, under the field's own name, since the
names are the keys of the encoded documents. -/
def recordType (lang : Lang) (r : Record) : TypeDecl where
  head :=
    lang.serializable
      { TypeHead.plain .record r.name with
        modifiers := [.exposed]
        constructorModifiers := [.exposed]
        properties := (r.fields.filter fun f => !f.type.isVoid).map fun f =>
          { Field.plain f.name (lang.hostType f.type) with modifiers := [.exposed] } }
  members := []

def callbackType (lang : Lang) (i : Interface) : TypeDecl where
  head :=
    { TypeHead.plain .interface i.name with
      modifiers := [.exposed]
      docs := ["Implemented by the host, invoked from `" ++ i.package ++ "::" ++ i.module ++ "`."] }
  members := i.methods.map fun m => .func (hostFunc lang m)

end HostBindings.Generate
