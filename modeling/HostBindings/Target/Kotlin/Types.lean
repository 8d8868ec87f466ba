import HostBindings.Marshal.Wire
import HostBindings.Target.Context

/-!
Kotlin types: how host and wire types are written, and the words that Kotlin reserves or knows.
-/

namespace HostBindings.Kotlin

open HostBindings.Code HostBindings.Target

def keywords : List String :=
  ["as", "break", "class", "continue", "do", "else", "false", "for", "fun", "if", "in",
   "interface", "is", "null", "object", "package", "return", "super", "this", "throw", "true",
   "try", "typealias", "typeof", "val", "var", "when", "while"]

def builtins : List String :=
  ["Byte", "Short", "Int", "Long", "Float", "Double", "Boolean", "String", "ByteArray", "Unit",
   "Any", "List", "Map", "AutoCloseable"]

def numericName : Numeric → String
  | .byte => "Byte"
  | .short => "Short"
  | .int => "Int"
  | .long => "Long"
  | .float => "Float"
  | .double => "Double"

def elementType : Element → TypeRef
  | .numeric n => .plain (numericName n)
  | .boolean => .plain "Boolean"
  | .string => .plain "String"
  | .record name => .plain name

def hostType : BoundaryType → TypeRef
  | .void => .plain "Unit"
  | .single e => elementType e
  | .vec (.numeric .byte) => .plain "ByteArray"
  | .vec e => .array (elementType e)
  | .callback name => .plain name

def handleType : TypeRef :=
  .plain "Long"

def wireType (c : Crossing) : Option TypeRef :=
  match c.wire with
  | .void => none
  | .numeric n => some (.plain (numericName n))
  | .handle => some handleType
  | .model _ => some handleType
  | .str => some (.plain "String")
  | .bytes => some (.plain "ByteArray")

mutual

def typeText : TypeRef → String
  | .named name [] _ => name
  | .named name args _ => name ++ "<" ++ commas (typeTexts args) ++ ">"
  | .array element => "List<" ++ typeText element ++ ">"
  | .map key value => "Map<" ++ typeText key ++ ", " ++ typeText value ++ ">"
  | .optional inner => typeText inner ++ "?"
  | .function params result _ =>
    "(" ++ commas (typeTexts params) ++ ") -> " ++ typeText result

def typeTexts : List TypeRef → List String
  | [] => []
  | t :: ts => typeText t :: typeTexts ts

end

end HostBindings.Kotlin
