/-!
References to host types. A named type may carry the import that provides it.
-/

namespace HostBindings.Code

inductive TypeRef where
  | named (name : String) (args : List TypeRef) (provider : Option String)
  | array (element : TypeRef)
  | map (key value : TypeRef)
  | optional (inner : TypeRef)
  /-- A function type; `native` marks the C calling convention. -/
  | function (params : List TypeRef) (result : TypeRef) (native : Bool)
  deriving Repr, Inhabited

namespace TypeRef

def plain (name : String) : TypeRef :=
  .named name [] none

def imported (name provider : String) : TypeRef :=
  .named name [] (some provider)

/-- Gives a named type its arguments; other types stay. -/
def withArgs (args : List TypeRef) : TypeRef → TypeRef
  | .named name _ provider => .named name args provider
  | t => t

mutual

/-- The reference and all references in it, each before its parts. -/
def nodes : TypeRef → List TypeRef
  | .named name args provider => .named name args provider :: nodesOfList args
  | .array element => .array element :: nodes element
  | .map key value => .map key value :: (nodes key ++ nodes value)
  | .optional inner => .optional inner :: nodes inner
  | .function params result native =>
    .function params result native :: (nodesOfList params ++ nodes result)

def nodesOfList : List TypeRef → List TypeRef
  | [] => []
  | t :: ts => nodes t ++ nodesOfList ts

end

def provider? : TypeRef → Option String
  | .named _ _ provider => provider
  | _ => none

def imports (t : TypeRef) : List String :=
  t.nodes.filterMap provider?

end TypeRef

end HostBindings.Code
