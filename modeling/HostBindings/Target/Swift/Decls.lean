import HostBindings.Target.Swift.Types

/-!
Swift declarations: headers of types and functions, fields, and the members that stored properties
imply.
-/

namespace HostBindings.Swift

open HostBindings.Code HostBindings.Target

def modifierWords : List (Modifier × String) :=
  [(.hidden, "private"), (.exposed, "public"), (.final, "final"), (.static, "static")]

def modifiers (ms : List Modifier) : String :=
  modifierText modifierWords ms

def paramText (p : Param) : String :=
  match p.label with
  | some label => label ++ " " ++ p.name ++ ": " ++ typeText p.type
  | none => p.name ++ ": " ++ typeText p.type

def paramsText (ps : List Param) : String :=
  commas (ps.map paramText)

def typeParamText (p : TypeParam) : String :=
  match p.bound with
  | some bound => p.name ++ ": " ++ typeText bound
  | none => p.name

def typeParamsText (ps : List TypeParam) : String :=
  if ps.isEmpty then "" else "<" ++ commas (ps.map typeParamText) ++ ">"

def docLines (docs : List String) : List String :=
  docs.map ("/// " ++ ·)

def annotationText (t : TypeRef) : String :=
  "@" ++ typeText t

def kindWord : TypeKind → String
  | .record => "struct"
  | .interface => "protocol"
  | .holder => "class"
  | .object => "class"

def typeHeader (h : TypeHead) : TypeHeader where
  lead := modifiers h.modifiers ++ kindWord h.kind ++ " " ++ h.name ++ typeParamsText h.typeParams
  params := []
  tail := if h.supertypes.isEmpty then "" else ": " ++ commas (h.supertypes.map typeText)

def implied? (h : TypeHead) : Option Func :=
  if (h.kind == .object || !h.constructorModifiers.isEmpty) && !h.properties.isEmpty then
    some
      { Func.plain "init" with
        kind := .constructor
        modifiers := h.constructorModifiers
        params := h.properties.map fun p => .plain p.name p.type
        body := some (.ofLines (h.properties.map fun p => "self." ++ p.name ++ " = " ++ p.name)) }
  else none

def signature (f : Func) : String :=
  match f.kind with
  | .function =>
    modifiers f.modifiers ++ "func " ++ f.name ++ "(" ++ paramsText f.params ++ ")" ++
      (f.returns.map fun r => " -> " ++ typeText r).getD ""
  | .constructor => modifiers f.modifiers ++ "init(" ++ paramsText f.params ++ ")"
  | .finalizer => "deinit"
  | .loader => modifiers f.modifiers ++ "init()"

def leadingLines (f : Func) : List String :=
  f.annotations.map annotationText

def fieldText (f : Field) : String :=
  modifiers f.modifiers ++ (if f.isMutable then "var" else "let") ++ " " ++ f.name ++ ": " ++
    typeText f.type

def closureOpen (params : List String) : String :=
  if params.isEmpty then "\x7b" else "\x7b " ++ commas params ++ " in"

end HostBindings.Swift
