import HostBindings.Boundary

/-!
Descriptions of what a native library declares. An interface has methods: a service is implemented
natively and called by the host, a callback interface is implemented by the host. A record has
fields and crosses the boundary as a document.
-/

namespace HostBindings

structure Slot where
  name : String
  type : BoundaryType
  /-- The type as the native library spells it. -/
  spelling : String
  deriving DecidableEq, Repr

structure Method where
  name : String
  returns : BoundaryType
  returnSpelling : String
  params : List Slot
  deriving DecidableEq, Repr

structure Interface where
  name : String
  /-- The native module that declares the interface. -/
  module : String
  /-- The native package that exports the functions. -/
  package : String
  isCallback : Bool
  methods : List Method
  deriving DecidableEq, Repr

structure Record where
  name : String
  module : String
  package : String
  fields : List Slot
  deriving DecidableEq, Repr

inductive Entity where
  | interface (i : Interface)
  | record (r : Record)
  deriving DecidableEq, Repr

def Entity.name : Entity → String
  | .interface i => i.name
  | .record r => r.name

namespace Method

/-- The arguments that cross the boundary; those without a value do not. -/
def passed (m : Method) : List Slot :=
  m.params.filter fun p => !p.type.isVoid

def usesCallbacks (m : Method) : Bool :=
  m.returns.isCallback || m.params.any fun p => p.type.isCallback

def types (m : Method) : List BoundaryType :=
  m.params.map (·.type) ++ [m.returns]

end Method

def addNew (seen : List String) (name : String) : List String :=
  if name ∈ seen then seen else seen ++ [name]

namespace Interface

/-- The callback interfaces that the methods take, in the order of first use. -/
def callbackParams (i : Interface) : List String :=
  (i.methods.flatMap fun m => m.params.filterMap (·.type.callbackName?)).foldl addNew []

def callbackReturns (i : Interface) : List String :=
  (i.methods.filterMap (·.returns.callbackName?)).foldl addNew []

end Interface

end HostBindings
