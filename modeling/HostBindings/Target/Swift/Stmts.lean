import HostBindings.Bridge.Buffer
import HostBindings.Marshal.Plan
import HostBindings.Target.Swift.Types

/-!
Swift statements. Text and bytes cross the boundary as raw buffers: what native code returns is
copied and released, what it takes over is freshly allocated, and what it only reads is released
when the call ends.
-/

namespace HostBindings.Swift

open HostBindings.Code HostBindings.Target

def symbolName (scope : Scope) : Symbol → String
  | .method name => scope.module ++ "_" ++ name
  | .callbackMethod callback method => scope.module ++ "_" ++ callback ++ "_" ++ method
  | .callbackRelease callback => scope.module ++ "_" ++ callback ++ "_free"
  | .releaseText => Bridge.releaseTextSymbol
  | .releaseBytes => Bridge.releaseBytesSymbol

def argText (a : CallArg) : String :=
  match a.label with
  | some label => label ++ ": " ++ a.value
  | none => a.value

def callText (callee : String) (args : List CallArg) : String :=
  callee ++ "(" ++ commas (args.map argText) ++ ")"

def bindText (x value : String) : String :=
  "let " ++ x ++ " = " ++ value

def plainCall (callee : String) (args : List String) : String :=
  callText callee (args.map fun a => ⟨none, a⟩)

/-- The arguments that make up a registered callback: a trampoline for each method under the
method's name, the one that releases, and the handle. -/
def modelArgs (owner callback : String) (methods : List String) (handle : String) :
    List CallArg :=
  (methods.map fun m => ⟨some m, owner ++ "." ++ Naming.trampolineName callback m⟩) ++
    [⟨some "free_callback", owner ++ "." ++ Naming.releaseTrampolineName callback⟩,
     ⟨some "index", handle⟩]

def exprText : Expr → String
  | .name x => x
  | .cast target x => numericName target ++ "(" ++ x ++ ")"
  | .asInteger x => x ++ " ? 1 : 0"
  | .asTruth x => x ++ " > 0"
  | .duplicate e => "strdup(" ++ exprText e ++ ")"
  | .copyText x => "String(cString: " ++ x ++ "!)"
  | .jsonEncode x => "String(decoding: try! JSONEncoder().encode(" ++ x ++ "), as: UTF8.self)"
  | .jsonDecode type x =>
    "try! JSONDecoder().decode(" ++ typeText (hostType type) ++ ".self, from: Data(" ++ x ++
      ".utf8))"
  | .allocate x => "malloc(max(" ++ x ++ ".count, 1))!.assumingMemoryBound(to: Int8.self)"
  | .copyBytes x =>
    "[Int8](UnsafeBufferPointer(start: " ++ x ++ ".ptr, count: Int(" ++ x ++ ".len)))"
  | .wireBytes buffer x =>
    callText "WireBytes" [⟨some "ptr", buffer⟩, ⟨some "len", "Int32(" ++ x ++ ".count)"⟩]
  | .register callback x => plainCall (Naming.registryName callback ++ ".register") [x]
  | .lookup callback handle => plainCall (Naming.registryName callback ++ ".lookup") [handle]
  | .remove callback handle => plainCall (Naming.registryName callback ++ ".remove") [handle]
  | .model scope callback methods handle =>
    callText (modelName scope.module callback) (modelArgs scope.owner callback methods handle)
  | .proxy callback x => callText (Naming.proxyName callback) [⟨some "native_handle", x⟩]
  | .native scope symbol args => plainCall (symbolName scope symbol) args
  | .invoke receiver method args =>
    callText (receiver ++ "." ++ method) (args.map fun a => ⟨some a.1, a.2⟩)

def stmtText : Stmt → String
  | .bind x (.asInteger y) => "let " ++ x ++ ": Int32 = " ++ exprText (.asInteger y)
  | .bind x value => bindText x (exprText value)
  | .fill buffer x =>
    buffer ++ ".initialize(from: " ++ x ++ ", count: " ++ x ++ ".count)"
  | .deferRelease buffer => "defer \x7b free(" ++ buffer ++ ") \x7d"
  | .run value => exprText value
  | .ret x => "return " ++ x
  | .loadLibrary library => "System.loadLibrary(\"" ++ library ++ "\")"

/-- An expression, in a fresh buffer if native code takes it over. -/
def owned (c : Crossing) (e : Expr) : Expr :=
  if c.transfersOwnership then .duplicate e else e

def release (ctx : Context) (c : Crossing) (symbol : Symbol) (x : String) : List Stmt :=
  if c.freesBuffer then [.run (.native ctx.scope symbol [x])] else []

def convert (ctx : Context) (c : Crossing) (input output : String) :
    Except PlanError (List Stmt) :=
  match c.conversion with
  | .none => .ok []
  | .passThrough => .ok [.bind output (owned c (.name input))]
  | .cast =>
    match c.type with
    | .single (.numeric n) => .ok [.bind output (.cast n input)]
    | _ => .ok [.bind output (.name input)]
  | .boolToWire => .ok [.bind output (.asInteger input)]
  | .wireToBool => .ok [.bind output (.asTruth input)]
  | .jsonEncode => .ok [.bind output (owned c (.jsonEncode input))]
  | .jsonDecode =>
    -- the copy is made before the buffer goes, and decoded after
    let text := output ++ "_json"
    .ok ([.bind text (.copyText input)] ++ release ctx c .releaseText input ++
      [.bind output (.jsonDecode c.type text)])
  | .copyString => .ok ([.bind output (.copyText input)] ++ release ctx c .releaseText input)
  | .bytesToWire =>
    let buffer := output ++ "_buf"
    .ok ([.bind buffer (.allocate input), .fill buffer input] ++
      -- a buffer that native code only reads is released when the call ends
      (if c.transfersOwnership then [] else [.deferRelease buffer]) ++
      [.bind output (.wireBytes buffer input)])
  | .wireToBytes => .ok ([.bind output (.copyBytes input)] ++ release ctx c .releaseBytes input)
  | .registerCallback callback =>
    match ctx.catalog.callback? callback with
    | none => .error (.undeclared callback)
    | some i =>
      let handle := output ++ "_handle"
      .ok [.bind handle (.register callback input),
        .bind output (.model ctx.scope callback (i.methods.map (·.name)) handle)]
  | .wrapProxy callback => .ok [.bind output (.proxy callback input)]

end HostBindings.Swift
