import HostBindings.Naming
import HostBindings.Target.Kotlin.Types

/-!
The members of Kotlin files whose shape is the language's own: the registry of callbacks, the
loading of libraries, native declarations, trampolines as static functions, and the release of
proxies.
-/

namespace HostBindings.Kotlin

open HostBindings.Code

def registerFunc : Func :=
  { Func.plain "register" with
    params := [.plain "callback" (.plain "T")]
    returns := some handleType
    body := some (.ofLines
      ["val handle = lastHandle.incrementAndGet()", "entries[handle] = callback",
       "return handle"]) }

def lookupFunc : Func :=
  { Func.plain "lookup" with
    params := [.plain "handle" handleType]
    returns := some (.plain "T")
    body := some (.ofLines
      ["return entries[handle]",
       "    ?: throw IllegalStateException(\"callback handle $handle is not registered\")"]) }

def removeFunc : Func :=
  { Func.plain "remove" with
    params := [.plain "handle" handleType]
    body := some (.ofLines ["entries.remove(handle)"]) }

def registryType : Member :=
  .type
    { TypeHead.plain .object "CallbackRegistry" with
      modifiers := [.internal]
      typeParams := [⟨"T", some (.plain "Any")⟩] }
    [.field
      { Field.plain "lastHandle"
          (.imported "AtomicLong" "java.util.concurrent.atomic.AtomicLong") with
        modifiers := [.hidden], initializer := some (.expr "AtomicLong(0)") },
     .field
      { Field.plain "entries"
          ((TypeRef.imported "ConcurrentHashMap" "java.util.concurrent.ConcurrentHashMap").withArgs
            [handleType, .plain "T"]) with
        modifiers := [.hidden], initializer := some (.expr "ConcurrentHashMap()") },
     .func registerFunc, .func lookupFunc, .func removeFunc]

def registryField (callback : String) : Field :=
  { Field.plain (Naming.registryName callback)
      ((TypeRef.plain "CallbackRegistry").withArgs [.plain callback]) with
    modifiers := [.internal]
    initializer := some (.expr "CallbackRegistry()") }

def loader (ctx : Context) : Func :=
  let libraries := ctx.settings.mainLibrary ctx.package :: ctx.settings.furtherLibraries
  .loader ⟨libraries.map fun l => .stmt (.loadLibrary l), []⟩

def nativeDeclaration (name : String) (visibility : Modifier) (params : List Param)
    (returns : Option TypeRef) : Func :=
  { Func.plain name with modifiers := [visibility, .static, .external], params, returns }

def trampoline (name : String) (params : List Param) (returns : Option TypeRef) (body : Block) :
    Member :=
  .func { Func.plain name with modifiers := [.static], params, returns, body := some body }

def proxySupertypes : List TypeRef :=
  [.plain "AutoCloseable"]

/-- The members that release a proxy's callback: the first call of `close`, and no other, does. -/
def proxyRelease (call : Item) : List Member :=
  [.field
    { Field.plain "is_released"
        (.imported "AtomicBoolean" "java.util.concurrent.atomic.AtomicBoolean") with
      modifiers := [.hidden], initializer := some (.expr "AtomicBoolean(false)") },
   .func
    { Func.plain "close" with
      modifiers := [.override]
      body := some ⟨[.block "if (is_released.compareAndSet(false, true))" [] [call]], []⟩ }]

end HostBindings.Kotlin
