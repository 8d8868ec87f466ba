import HostBindings.Naming
import HostBindings.Marshal.Plan
import HostBindings.Target.Kotlin.Types

/-!
Kotlin statements. Texts and byte arrays are objects of the host, so nothing is copied or released
by hand, and a registered callback is its handle.
-/

namespace HostBindings.Kotlin

open HostBindings.Code HostBindings.Target

/-- The native function of a symbol, as the owner declares it. -/
def symbolName : Symbol → String
  | .method name => "native_" ++ name
  | .callbackMethod callback method => "native_" ++ callback ++ "_" ++ method
  | .callbackRelease callback => "native_" ++ callback ++ "_free"
  | .releaseText => "native_free_str"
  | .releaseBytes => "native_free_bytes"

/-- The native function of a symbol, as it is called from anywhere in the file. -/
def symbolCallee (scope : Scope) (symbol : Symbol) : String :=
  scope.owner ++ "." ++ symbolName symbol

def callText (callee : String) (args : List CallArg) : String :=
  callee ++ "(" ++ commas (args.map (·.value)) ++ ")"

def bindText (x value : String) : String :=
  "val " ++ x ++ " = " ++ value

def plainCall (callee : String) (args : List String) : String :=
  callText callee (args.map fun a => ⟨none, a⟩)

/-- An expression as it is written. An operation on raw memory, of which Kotlin has none, is
written as the value that it is applied to. -/
def exprText : Expr → String
  | .name x => x
  | .cast target x => x ++ ".to" ++ numericName target ++ "()"
  | .asInteger x => "if (" ++ x ++ ") 1 else 0"
  | .asTruth x => x ++ " > 0"
  | .duplicate e => exprText e
  | .copyText x => x
  | .jsonEncode x => "Json.encodeToString(" ++ x ++ ")"
  | .jsonDecode type x =>
    "Json.decodeFromString<" ++ typeText (hostType type) ++ ">(" ++ x ++ ")"
  | .allocate x => x
  | .copyBytes x => x
  | .wireBytes _ x => x
  | .register callback x => plainCall (Naming.registryName callback ++ ".register") [x]
  | .lookup callback handle => plainCall (Naming.registryName callback ++ ".lookup") [handle]
  | .remove callback handle => plainCall (Naming.registryName callback ++ ".remove") [handle]
  | .model _ _ _ handle => handle
  | .proxy callback x => plainCall (Naming.proxyName callback) [x]
  | .native scope symbol args => plainCall (symbolCallee scope symbol) args
  | .invoke receiver method args => plainCall (receiver ++ "." ++ method) (args.map (·.2))

/-- A statement as it is written. The statements on raw memory are not written at all. -/
def stmtText : Stmt → String
  | .bind x value => bindText x (exprText value)
  | .fill _ _ => ""
  | .deferRelease _ => ""
  | .run value => exprText value
  | .ret x => "return " ++ x
  | .loadLibrary library => "System.loadLibrary(\"" ++ library ++ "\")"

def converted (c : Crossing) (input : String) : Option Expr :=
  match c.conversion with
  | .none => none
  | .passThrough => some (.name input)
  | .copyString => some (.name input)
  | .bytesToWire => some (.name input)
  | .wireToBytes => some (.name input)
  | .cast =>
    match c.type with
    | .single (.numeric n) => some (.cast n input)
    | _ => some (.name input)
  | .boolToWire => some (.asInteger input)
  | .wireToBool => some (.asTruth input)
  | .jsonEncode => some (.jsonEncode input)
  | .jsonDecode => some (.jsonDecode c.type input)
  | .registerCallback callback => some (.register callback input)
  | .wrapProxy callback => some (.proxy callback input)

def convert (c : Crossing) (input output : String) : List Stmt :=
  (converted c input).toList.map (.bind output)

def jsonObject : String :=
  "kotlinx.serialization.json.Json"

def exprImports : Expr → List String
  | .jsonEncode _ => [jsonObject, "kotlinx.serialization.encodeToString"]
  | .jsonDecode _ _ => [jsonObject, "kotlinx.serialization.decodeFromString"]
  | _ => []

def stmtImports : Stmt → List String
  | .bind _ value => exprImports value
  | .run value => exprImports value
  | _ => []

end HostBindings.Kotlin
