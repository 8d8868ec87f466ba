import HostBindings.Code.Decl

/-!
The imports of a file: those given, those of the types named in it, and those of its code, each
once and in increasing order.
-/

namespace HostBindings.Code

/-- Puts a text into its place in an increasing list; one that is there already stays alone. -/
def insertSorted (x : String) : List String → List String
  | [] => [x]
  | y :: ys =>
    if x = y then y :: ys else if x < y then x :: y :: ys else y :: insertSorted x ys

def sortedSet (xs : List String) : List String :=
  xs.foldr insertSorted []

def Field.imports (f : Field) : List String :=
  f.type.imports ++
    match f.initializer with
    | some (.closure _ body) => body.allImports
    | _ => []

def Func.imports (f : Func) : List String :=
  f.refs.flatMap (·.imports) ++ (f.body.map (·.allImports)).getD []

mutual

def Member.imports : Member → List String
  | .field f => f.imports
  | .func f => f.imports
  | .type head members => head.refs.flatMap (·.imports) ++ Member.importsOfList members

def Member.importsOfList : List Member → List String
  | [] => []
  | m :: ms => m.imports ++ Member.importsOfList ms

end

def SourceFile.allImports (f : SourceFile) : List String :=
  sortedSet (f.imports ++ Member.importsOfList f.members)

end HostBindings.Code
