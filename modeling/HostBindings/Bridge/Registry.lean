import HostBindings.Bridge.Error

/-!
Registries of callbacks: a live callback is reached by its handle. Handles count up from one and a
handle that was removed stays dead. An invoked callback may use the registry itself, so actions on
a registry nest. They happen one after the other; threads that use one registry at the same time are
left aside.
-/

namespace HostBindings.Bridge

structure Registry (α : Type) where
  /-- The handle of the next callback. -/
  next : UInt64
  /-- The live callbacks with their handles, each handle once. -/
  live : List (UInt64 × α)

namespace Registry

variable {α β : Type}

def empty : Registry α := ⟨1, []⟩

def get? (r : Registry α) (handle : UInt64) : Option α :=
  (r.live.find? (·.1 == handle)).map (·.2)

def without (r : Registry α) (handle : UInt64) : List (UInt64 × α) :=
  r.live.filter (·.1 != handle)

def register (r : Registry α) (callback : α) : UInt64 × Registry α :=
  (r.next, ⟨r.next + 1, (r.next, callback) :: r.without r.next⟩)

def remove (r : Registry α) (handle : UInt64) : Option α × Registry α :=
  (r.get? handle, { r with live := r.without handle })

def size (r : Registry α) : Nat :=
  r.live.length

def isEmpty (r : Registry α) : Bool :=
  r.live.isEmpty

def lookup (r : Registry α) (handle : UInt64) : Except Error α :=
  match r.get? handle with
  | some callback => .ok callback
  | none => .error (.unknownHandle handle)

/-- Runs a function on a live callback; the function may change the registry. -/
def tryInvoke (r : Registry α) (handle : UInt64) (f : α → Registry α → β × Registry α) :
    Except Error β × Registry α :=
  match r.lookup handle with
  | .ok callback =>
    let (result, r) := f callback r
    (.ok result, r)
  | .error e => (.error e, r)

end Registry

/-! ### Runs -/

/-- One use of a registry. The actions of an invocation are those of the invoked callback. -/
inductive Action (α : Type) where
  | register (callback : α)
  | get (handle : UInt64)
  | remove (handle : UInt64)
  | size
  | isEmpty
  | lookup (handle : UInt64)
  | tryInvoke (handle : UInt64) (inside : List (Action α))
  /-- A look-up that a dead handle puts an end to. -/
  | expectLive (handle : UInt64)
  /-- An invocation that a dead handle puts an end to. -/
  | invoke (handle : UInt64) (inside : List (Action α))
  deriving Inhabited

/-- What an action answers. Nested replies come with the number of callbacks live after each. -/
inductive Reply (α : Type) where
  | handle (handle : UInt64)
  | found (callback : Option α)
  | size (n : Nat)
  | flag (b : Bool)
  | callback (callback : α)
  | invoked (callback : α) (inside : List (Reply α × Nat))
  | refused (e : Error)
  /-- The action came to no end. -/
  | halted (e : Error)

namespace Action

variable {α : Type}

mutual

def run (r : Registry α) : Action α → Reply α × Registry α
  | .register callback =>
    let (handle, r) := r.register callback
    (.handle handle, r)
  | .get handle => (.found (r.get? handle), r)
  | .remove handle =>
    let (callback, r) := r.remove handle
    (.found callback, r)
  | .size => (.size r.size, r)
  | .isEmpty => (.flag r.isEmpty, r)
  | .lookup handle =>
    match r.lookup handle with
    | .ok callback => (.callback callback, r)
    | .error e => (.refused e, r)
  -- what `lookup` refuses, the look-up that expects a live handle does not survive
  | .expectLive handle =>
    match r.lookup handle with
    | .ok callback => (.callback callback, r)
    | .error e => (.halted e, r)
  -- the actions of the callback run on the registry as they find it
  | .tryInvoke handle inside =>
    match r.tryInvoke handle fun callback r =>
      let (replies, r) := runAll r inside
      (Reply.invoked callback replies, r) with
    | (.ok reply, r) => (reply, r)
    | (.error e, r) => (.refused e, r)
  | .invoke handle inside =>
    match r.tryInvoke handle fun callback r =>
      let (replies, r) := runAll r inside
      (Reply.invoked callback replies, r) with
    | (.ok reply, r) => (reply, r)
    | (.error e, r) => (.halted e, r)

/-- Runs actions one after the other, also when some of them are refused or halted. -/
def runAll (r : Registry α) : List (Action α) → List (Reply α × Nat) × Registry α
  | [] => ([], r)
  | action :: actions =>
    let (reply, after) := run r action
    let (replies, last) := runAll after actions
    ((reply, after.size) :: replies, last)

end

end Action

end HostBindings.Bridge
