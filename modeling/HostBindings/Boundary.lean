/-!
The closed set of types that may cross the native boundary.

| tag                  | type                        |
|----------------------|-----------------------------|
| `Void`               | no value                    |
| `Byte` … `Double`    | a number of fixed width     |
| `Boolean`, `String`  | the element of that name    |
| `Struct`             | a record, by name           |
| `Vec`                | a list of elements, one level deep |
| `Callback`           | a callback interface, by name |
-/

namespace HostBindings

inductive Numeric where
  | byte
  | short
  | int
  | long
  | float
  | double
  deriving DecidableEq, Repr

/-- What a list may hold: a number, a truth value, a text or a record. -/
inductive Element where
  | numeric (n : Numeric)
  | boolean
  | string
  | record (name : String)
  deriving DecidableEq, Repr

inductive BoundaryType where
  | void
  | single (e : Element)
  | vec (e : Element)
  | callback (name : String)
  deriving DecidableEq, Repr

def Numeric.tag : Numeric → String
  | .byte => "Byte"
  | .short => "Short"
  | .int => "Int"
  | .long => "Long"
  | .float => "Float"
  | .double => "Double"

namespace Element

def tag : Element → String
  | .numeric n => n.tag
  | .boolean => "Boolean"
  | .string => "String"
  | .record _ => "Struct"

def label : Element → String
  | .record name => "Struct(" ++ name ++ ")"
  | e => e.tag

def ofPlainTag? : String → Option Element
  | "Byte" => some (.numeric .byte)
  | "Short" => some (.numeric .short)
  | "Int" => some (.numeric .int)
  | "Long" => some (.numeric .long)
  | "Float" => some (.numeric .float)
  | "Double" => some (.numeric .double)
  | "String" => some .string
  | "Boolean" => some .boolean
  | _ => none

def recordName? : Element → Option String
  | .record name => some name
  | _ => none

theorem ofPlainTag?_tag {e : Element} (h : e.recordName? = none) : ofPlainTag? e.tag = some e := by
  cases e with
  | numeric n => cases n <;> rfl
  | boolean => rfl
  | string => rfl
  | record name => simp [recordName?] at h

end Element

namespace BoundaryType

def tag : BoundaryType → String
  | .void => "Void"
  | .single e => e.tag
  | .vec _ => "Vec"
  | .callback _ => "Callback"

def label : BoundaryType → String
  | .void => "Void"
  | .single e => e.label
  | .vec e => "Vec<" ++ e.label ++ ">"
  | .callback name => "Callback(" ++ name ++ ")"

def isVoid : BoundaryType → Bool
  | .void => true
  | _ => false

def isScalar : BoundaryType → Bool
  | .single (.numeric _) => true
  | .single .boolean => true
  | _ => false

def isDocument : BoundaryType → Bool
  | .vec _ => true
  | .single (.record _) => true
  | _ => false

def isCallback : BoundaryType → Bool
  | .callback _ => true
  | _ => false

def callbackName? : BoundaryType → Option String
  | .callback name => some name
  | _ => none

def recordName? : BoundaryType → Option String
  | .single e => e.recordName?
  | .vec e => e.recordName?
  | _ => none

def element? : BoundaryType → Option Element
  | .vec e => some e
  | _ => none

end BoundaryType

end HostBindings
