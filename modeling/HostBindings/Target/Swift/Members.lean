import HostBindings.Naming
import HostBindings.Target.Swift.Types

/-!
The members of Swift files whose shape is the language's own: the registry of callbacks,
trampolines as closures with the C calling convention, and the release of proxies.
-/

namespace HostBindings.Swift

open HostBindings.Code

def locked (items : List Item) : Option Block :=
  some ⟨[.line "lock.lock()", .line "defer \x7b lock.unlock() \x7d"] ++ items, []⟩

def registerFunc : Func :=
  { Func.plain "register" with
    params := [⟨"callback", some "_", .plain "T"⟩]
    returns := some handleType
    body := locked
      [.line "lastHandle += 1", .line "entries[lastHandle] = callback",
       .line "return lastHandle"] }

def lookupFunc : Func :=
  { Func.plain "lookup" with
    params := [⟨"handle", some "_", handleType⟩]
    returns := some (.plain "T")
    body := locked
      [.block "guard let callback = entries[handle] else" []
        [.line "fatalError(\"callback handle \\(handle) is not registered\")"],
       .line "return callback"] }

def removeFunc : Func :=
  { Func.plain "remove" with
    params := [⟨"handle", some "_", handleType⟩]
    body := locked [.line "entries.removeValue(forKey: handle)"] }

def registryType : Member :=
  .type
    { TypeHead.plain .object "CallbackRegistry" with
      modifiers := [.hidden, .final]
      typeParams := [⟨"T", none⟩] }
    [.field
      { Field.plain "lock" (.imported "NSLock" foundation) with
        modifiers := [.hidden], initializer := some (.expr "NSLock()") },
     .field
      { Field.plain "lastHandle" handleType with
        modifiers := [.hidden], isMutable := true, initializer := some (.expr "0") },
     .field
      { Field.plain "entries" (.map handleType (.plain "T")) with
        modifiers := [.hidden], isMutable := true, initializer := some (.expr "[:]") },
     .func registerFunc, .func lookupFunc, .func removeFunc]

def registryField (callback : String) : Field :=
  { Field.plain (Naming.registryName callback)
      ((TypeRef.plain "CallbackRegistry").withArgs [.plain callback]) with
    modifiers := [.hidden]
    initializer := some (.expr ("CallbackRegistry<" ++ callback ++ ">()")) }

def trampoline (name : String) (params : List Param) (returns : Option TypeRef) (body : Block) :
    Member :=
  .field
    { Field.plain name
        (.function (params.map (·.type)) (returns.getD (.plain "Void")) true) with
      modifiers := [.hidden, .static]
      initializer := some (.closure (params.map (·.name)) body) }

/-- The members that release a proxy's callback: once, when the proxy goes away. -/
def proxyRelease (call : Item) : List Member :=
  [.func (.finalizer ⟨[call], []⟩)]

end HostBindings.Swift
