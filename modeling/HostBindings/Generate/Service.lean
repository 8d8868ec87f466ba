import HostBindings.Generate.Types

/-!
The host type of a service. It holds, in order: the code that loads the native library, a static
function for each method, the trampolines of each callback interface that a method takes, and the
native declarations. The proxies that the service makes for callbacks implemented by native code
follow it as types of their own.
-/

namespace HostBindings.Generate

open HostBindings.Code

def callbackHandle : String :=
  "callback_handle"

def nativeHandle : String :=
  "native_handle"

def serviceFunc (lang : Lang) (ctx : Context) (p : CallPlan) : Except PlanError Func :=
  (nativeCallBody lang ctx p (.method p.method.name) []).map fun body =>
    { hostFunc lang p.method with
      modifiers := [.exposed, .static]
      body := some (lang.block body) }

def nativeDecl? (lang : Lang) (ctx : Context) (symbol : Symbol) (visibility : Modifier)
    (leading : List Param) (p : CallPlan) : Option Func :=
  lang.nativeDeclaration? (lang.symbolName ctx.scope symbol) visibility
    (leading ++ wireParams lang ctx p) (lang.wireType ctx p.result)

def handleParam (lang : Lang) (name : String) : Param :=
  .plain name lang.handleType

def declared (ctx : Context) (callback : String) : Except PlanError Interface :=
  match ctx.catalog.callback? callback with
  | some i => .ok i
  | none => .error (.undeclared callback)

def methodTrampoline (lang : Lang) (ctx : Context) (callback : String) (m : Method) :
    Except PlanError Member := do
  let p ← Marshal.trampoline lang.ownership m
  let body ← trampolineBody lang ctx p callback
  return lang.trampoline (Naming.trampolineName callback m.name)
    (handleParam lang callbackHandle :: wireParams lang ctx p) (lang.wireType ctx p.result)
    (lang.block body)

def releaseTrampoline (lang : Lang) (callback : String) : Member :=
  lang.trampoline (Naming.releaseTrampolineName callback) [handleParam lang callbackHandle] none
    (lang.block [.run (.remove callback callbackHandle)])

def trampolines (lang : Lang) (ctx : Context) (callback : String) :
    Except PlanError (List Member) := do
  let i ← declared ctx callback
  let ms ← i.methods.mapM (methodTrampoline lang ctx callback)
  return ms ++ [releaseTrampoline lang callback]

def proxyFunc (lang : Lang) (ctx : Context) (callback : String) (m : Method) :
    Except PlanError (Func × Option Func) := do
  let p ← Marshal.nativeCall lang.ownership m
  let symbol := Symbol.callbackMethod callback m.name
  let body ← nativeCallBody lang ctx p symbol [nativeHandle]
  let f : Func :=
    { hostFunc lang m with
      modifiers := [.exposed, .override]
      body := some (lang.block body) }
  return (f, nativeDecl? lang ctx symbol .exposed [handleParam lang "handle"] p)

def proxyHead (lang : Lang) (callback : String) : TypeHead :=
  { TypeHead.plain .object (Naming.proxyName callback) with
    modifiers := [.exposed, .final]
    supertypes := lang.hostType (.callback callback) :: lang.proxySupertypes
    constructorModifiers := [.internal]
    properties := [{ Field.plain nativeHandle lang.handleType with modifiers := [.hidden] }]
    docs := ["`" ++ callback ++ "` implemented by native code."] }

def proxy (lang : Lang) (ctx : Context) (callback : String) :
    Except PlanError (TypeDecl × List Func) := do
  let i ← declared ctx callback
  let funcs ← i.methods.mapM (proxyFunc lang ctx callback)
  let free := Symbol.callbackRelease callback
  let release := lang.proxyRelease (.stmt (.run (.native ctx.scope free [nativeHandle])))
  let natives := funcs.filterMap (·.2) ++
    (lang.nativeDeclaration? (lang.symbolName ctx.scope free) .exposed
      [handleParam lang "handle"] none).toList
  return (⟨proxyHead lang callback, funcs.map (.func ·.1) ++ release⟩, natives)

def serviceMethod (lang : Lang) (ctx : Context) (m : Method) :
    Except PlanError (Func × Option Func) := do
  let p ← Marshal.nativeCall lang.ownership m
  let f ← serviceFunc lang ctx p
  return (f, nativeDecl? lang ctx (.method m.name) .hidden [] p)

def serviceHead (i : Interface) : TypeHead :=
  { TypeHead.plain .holder i.name with
    modifiers := [.exposed, .final]
    docs := ["Bindings for `" ++ i.package ++ "::" ++ i.module ++ "::" ++ i.name ++ "`."] }

/-- The members of a service: what its methods need, the trampolines of each callback interface
that they take, and the native declarations, those of its proxies last. -/
def serviceMembers (lang : Lang) (ctx : Context) (funcs : List (Func × Option Func))
    (taken : List (List Member)) (made : List (TypeDecl × List Func)) : List Member :=
  (lang.loader? ctx).toList.map .func ++ funcs.map (.func ·.1) ++ taken.flatten ++
    (funcs.filterMap (·.2) ++ made.flatMap (·.2)).map .func

def serviceTypes (lang : Lang) (ctx : Context) (i : Interface) (proxies : List String) :
    Except PlanError (List TypeDecl) := do
  let funcs ← i.methods.mapM (serviceMethod lang ctx)
  let taken ← i.callbackParams.mapM (trampolines lang ctx)
  let made ← proxies.mapM (proxy lang ctx)
  return ⟨serviceHead i, serviceMembers lang ctx funcs taken made⟩ :: made.map (·.1)

end HostBindings.Generate
