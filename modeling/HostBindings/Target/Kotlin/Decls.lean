import HostBindings.Target.Kotlin.Types

/-!
Kotlin declarations: headers of types and functions, and fields.
-/

namespace HostBindings.Kotlin

open HostBindings.Code HostBindings.Target

def modifierWords : List (Modifier × String) :=
  [(.internal, "internal"), (.hidden, "private"), (.override, "override"),
   (.external, "external")]

def modifiers (ms : List Modifier) : String :=
  modifierText modifierWords ms

def paramsText (ps : List Param) : String :=
  commas (ps.map fun p => p.name ++ ": " ++ typeText p.type)

def typeParamText (p : TypeParam) : String :=
  match p.bound with
  | some bound => p.name ++ " : " ++ typeText bound
  | none => p.name

def typeParamsText (ps : List TypeParam) : String :=
  if ps.isEmpty then "" else "<" ++ commas (ps.map typeParamText) ++ ">"

/-- One line stands in one comment, several lines between its ends. -/
def docLines : List String → List String
  | [] => []
  | [line] => ["/** " ++ line ++ " */"]
  | lines => ["/**"] ++ lines.map (" * " ++ ·) ++ [" */"]

def annotationText (t : TypeRef) : String :=
  "@" ++ typeText t

def fieldText (f : Field) : String :=
  modifiers f.modifiers ++ (if f.isMutable then "var" else "val") ++ " " ++ f.name ++ ": " ++
    typeText f.type

def leadText (h : TypeHead) : String :=
  let start := modifiers h.modifiers
  let name := h.name ++ typeParamsText h.typeParams
  match h.kind with
  | .record => start ++ "data class " ++ name
  | .interface => start ++ "interface " ++ name
  | .holder => start ++ "object " ++ h.name
  | .object =>
    let constructor := modifiers h.constructorModifiers
    -- a constructor is named only for its modifiers
    if h.properties.isEmpty || constructor = "" then start ++ "class " ++ name
    else start ++ "class " ++ name ++ " " ++ constructor ++ "constructor"

def typeHeader (h : TypeHead) : TypeHeader where
  lead := leadText h
  params := h.properties.map fieldText
  tail := if h.supertypes.isEmpty then "" else " : " ++ commas (h.supertypes.map typeText)

def omitsBody (h : TypeHead) (members : List Member) : Bool :=
  h.kind == .record && members.isEmpty

def signature (f : Func) : String :=
  match f.kind with
  | .function =>
    modifiers f.modifiers ++ "fun " ++ f.name ++ "(" ++ paramsText f.params ++ ")" ++
      (f.returns.map fun r => ": " ++ typeText r).getD ""
  | .constructor => modifiers f.modifiers ++ "constructor(" ++ paramsText f.params ++ ")"
  | .finalizer => "protected fun finalize()"
  | .loader => "init"

def leadingLines (f : Func) : List String :=
  f.annotations.map annotationText ++
    (if f.modifiers.contains .static then ["@JvmStatic"] else [])

def closureOpen (params : List String) : String :=
  if params.isEmpty then "\x7b" else "\x7b " ++ commas params ++ " ->"

end HostBindings.Kotlin
