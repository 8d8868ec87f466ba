import HostBindings.Code.Decl

/-!
The check that every type named in a file is known: imported, declared in the file, a type
parameter in scope, or built in.
-/

namespace HostBindings.Code

mutual

def Member.declared : Member → List String
  | .type head members => head.name :: Member.declaredInList members
  | _ => []

def Member.declaredInList : List Member → List String
  | [] => []
  | m :: ms => m.declared ++ Member.declaredInList ms

end

/-- A type name that nothing provides, with the declaration that uses it. -/
structure Unresolved where
  name : String
  context : String
  deriving DecidableEq, Repr

/-- The name of a reference that carries no import and is not known. -/
def TypeRef.unknown? (known : String → Bool) : TypeRef → Option String
  | .named name _ none => if known name then none else some name
  | _ => none

def unresolvedRefs? (known : String → Bool) (context : String) (refs : List TypeRef) :
    Option Unresolved :=
  refs.findSome? fun t => (t.nodes.findSome? (·.unknown? known)).map (⟨·, context⟩)

mutual

/-- The first unknown name in a member. `known` holds the names known everywhere, `scope` the type
parameters of the enclosing types. -/
def Member.unresolved? (known : String → Bool) (scope : List String) (context : String) :
    Member → Option Unresolved
  | .field f => unresolvedRefs? (fun n => known n || scope.contains n) context [f.type]
  | .func f => unresolvedRefs? (fun n => known n || scope.contains n) context f.refs
  | .type head members =>
    let scope := scope ++ head.typeParams.map (·.name)
    (unresolvedRefs? (fun n => known n || scope.contains n) head.name head.refs).or
      (Member.unresolvedInList? known scope head.name members)

def Member.unresolvedInList? (known : String → Bool) (scope : List String) (context : String) :
    List Member → Option Unresolved
  | [] => none
  | m :: ms =>
    (m.unresolved? known scope context).or (Member.unresolvedInList? known scope context ms)

end

def SourceFile.unresolved? (isBuiltin : String → Bool) (f : SourceFile) : Option Unresolved :=
  let declared := Member.declaredInList f.members
  Member.unresolvedInList? (fun n => declared.contains n || isBuiltin n) [] f.name f.members

end HostBindings.Code
