import HostBindings.Interface
import HostBindings.Json.Value
import HostBindings.Spelling.Names

/-!
Documents that describe entities: one JSON object for each interface or record.

    { "ty": "trait", "name": …, "mod_name": …, "crate_name": …, "is_callback": …,
      "methods": [ { "name": …, "return_type": type, "origin_return_ty": …,
                     "args": [ { "name": …, "ty": type, "origin_ty": … } ] } ] }
    { "ty": "struct", "name": …, "mod_name": …, "crate_name": …,
      "fields": [ { "name": …, "ty": type, "origin_ty": … } ] }

Every key shown is required and all others are ignored. A type is a tag, or an object with the
single key `Vec` that holds a tag. The tags `Struct` and `Callback` take their name from the
spelling next to them.
-/

namespace HostBindings.Document

open HostBindings.Json

abbrev Fields := List (String × Value)

def field (fields : Fields) (key context : String) : Except CatalogError Value :=
  match Value.field? key fields with
  | some v => .ok v
  | none => .error (.missingKey key context)

def textField (fields : Fields) (key context : String) : Except CatalogError String := do
  match ← field fields key context with
  | .text s => .ok s
  | _ => .error (.wrongShape key context .string)

def boolField (fields : Fields) (key context : String) : Except CatalogError Bool := do
  match ← field fields key context with
  | .bool b => .ok b
  | _ => .error (.wrongShape key context .boolean)

def listField (fields : Fields) (key context : String) : Except CatalogError (List Value) := do
  match ← field fields key context with
  | .list items => .ok items
  | _ => .error (.wrongShape key context .array)

def objectFields (v : Value) (key context : String) : Except CatalogError Fields :=
  match v with
  | .record fields => .ok fields
  | _ => .error (.wrongShape key context .object)

def typeOfTag (tag spelling context : String) : Except CatalogError BoundaryType :=
  match Element.ofPlainTag? tag with
  | some e => .ok (.single e)
  | none =>
    match tag with
    | "Void" => .ok .void
    | "Struct" => (Spelling.recordName spelling).map fun name => .single (.record name)
    | "Callback" => (Spelling.callbackName spelling).map .callback
    | "Vec" => .error (.unsupported (.bareVec context))
    | tag => .error (.unknownType tag context)

def elementOfTag (tag spelling context : String) : Except CatalogError Element :=
  match Element.ofPlainTag? tag with
  | some e => .ok e
  | none =>
    match tag with
    | "Struct" => (Spelling.elementName spelling).map .record
    | "Vec" => .error (.nestedVec (spelling ++ " in " ++ context))
    | "Void" => .error (.unsupported (.vecOf tag context))
    | "Callback" => .error (.unsupported (.vecOf tag context))
    | tag => .error (.unknownType tag context)

/-- The type that a value spells: a tag, or an object with the single key `Vec`. -/
def readType (v : Value) (spelling context : String) : Except CatalogError BoundaryType :=
  let wrong := .error (.wrongShape "ty" context .type)
  match v with
  | .text tag => typeOfTag tag spelling context
  | .record [("Vec", .text tag)] => (elementOfTag tag spelling context).map .vec
  | .record [("Vec", .record inner)] =>
    match Value.field? "Vec" inner with
    | some _ => .error (.nestedVec (spelling ++ " in " ++ context))
    | none => wrong
  | _ => wrong

def readSlot (owner : String) (v : Value) : Except CatalogError Slot := do
  let fields ← objectFields v "args[]" owner
  let name ← textField fields "name" owner
  let context := owner ++ " `" ++ name ++ "`"
  let spelling ← textField fields "origin_ty" context
  let type ← readType (← field fields "ty" context) spelling context
  return { name, type, spelling }

def readMethod (interface : String) (v : Value) : Except CatalogError Method := do
  let fields ← objectFields v "methods[]" ("trait " ++ interface)
  let name ← textField fields "name" ("trait " ++ interface ++ " method")
  let context := interface ++ "::" ++ name
  let returnSpelling ← textField fields "origin_return_ty" context
  let returns ←
    readType (← field fields "return_type" context) returnSpelling (context ++ " return type")
  let params ← (← listField fields "args" context).mapM (readSlot context)
  return { name, returns, returnSpelling, params }

def readInterface (fields : Fields) : Except CatalogError Interface := do
  let name ← textField fields "name" "trait"
  let context := "trait " ++ name
  let methods ← (← listField fields "methods" context).mapM (readMethod name)
  let module ← textField fields "mod_name" context
  let package ← textField fields "crate_name" context
  let isCallback ← boolField fields "is_callback" context
  return { name, module, package, isCallback, methods }

def readRecord (fields : Fields) : Except CatalogError Record := do
  let name ← textField fields "name" "struct"
  let context := "struct " ++ name
  let slots ← (← listField fields "fields" context).mapM (readSlot context)
  let module ← textField fields "mod_name" context
  let package ← textField fields "crate_name" context
  return { name, module, package, fields := slots }

def ofValue (v : Value) : Except CatalogError Entity := do
  let fields ← objectFields v "<root>" "AST document"
  match ← textField fields "ty" "AST document" with
  | "trait" => (readInterface fields).map .interface
  | "struct" => (readRecord fields).map .record
  | kind => .error (.unknownEntity kind)

def ofText (text : String) : Except CatalogError Entity :=
  match Value.read? text with
  | some v => ofValue v
  | none => .error .notJson

end HostBindings.Document
