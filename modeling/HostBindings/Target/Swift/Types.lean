import HostBindings.Marshal.Wire
import HostBindings.Target.Context

/-!
Swift types: how host and wire types are written, and the words that Swift reserves or knows.
-/

namespace HostBindings.Swift

open HostBindings.Code HostBindings.Target

def keywords : List String :=
  ["Any", "Self", "as", "associatedtype", "break", "case", "catch", "class", "continue",
   "default", "defer", "deinit", "do", "else", "enum", "extension", "fallthrough", "false",
   "fileprivate", "for", "func", "guard", "if", "import", "in", "init", "inout", "internal", "is",
   "let", "nil", "open", "operator", "private", "protocol", "public", "repeat", "rethrows",
   "return", "self", "static", "struct", "subscript", "super", "switch", "throw", "throws",
   "true", "try", "typealias", "var", "where", "while"]

def builtins : List String :=
  ["Int8", "Int16", "Int32", "Int64", "UInt8", "Float", "Double", "Bool", "String", "Void",
   "CChar", "UnsafePointer", "UnsafeMutablePointer", "Data", "Codable"]

def foundation : String :=
  "Foundation"

def numericName : Numeric → String
  | .byte => "Int8"
  | .short => "Int16"
  | .int => "Int32"
  | .long => "Int64"
  | .float => "Float"
  | .double => "Double"

def elementType : Element → TypeRef
  | .numeric n => .plain (numericName n)
  | .boolean => .plain "Bool"
  | .string => .plain "String"
  | .record name => .plain name

def hostType : BoundaryType → TypeRef
  | .void => .plain "Void"
  | .single e => elementType e
  | .vec e => .array (elementType e)
  | .callback name => .plain name

def handleType : TypeRef :=
  .plain "Int64"

def modelName (module callback : String) : String :=
  module ++ "_" ++ callback ++ "_Model"

/-- The pointer type of a text: what the receiver may not release is read-only. -/
def pointerName : Position → String
  | .argument => "UnsafePointer"
  | .callbackArgument => "UnsafePointer"
  | .result => "UnsafeMutablePointer"
  | .callbackResult => "UnsafeMutablePointer"

def wireType (ctx : Context) (c : Crossing) : Option TypeRef :=
  match c.wire with
  | .void => none
  | .numeric n => some (.plain (numericName n))
  | .handle => some handleType
  | .str =>
    some (.optional ((TypeRef.plain (pointerName c.position)).withArgs [.plain "CChar"]))
  | .bytes => some (.imported "WireBytes" ctx.settings.moduleName)
  | .model callback =>
    some (.imported (modelName ctx.module callback) ctx.settings.moduleName)

mutual

def typeText : TypeRef → String
  | .named name [] _ => name
  | .named name args _ => name ++ "<" ++ commas (typeTexts args) ++ ">"
  | .array element => "[" ++ typeText element ++ "]"
  | .map key value => "[" ++ typeText key ++ ": " ++ typeText value ++ "]"
  | .optional inner => typeText inner ++ "?"
  | .function params result native =>
    (if native then "@convention(c) " else "") ++ "(" ++ commas (typeTexts params) ++ ") -> " ++
      typeText result

def typeTexts : List TypeRef → List String
  | [] => []
  | t :: ts => typeText t :: typeTexts ts

end

end HostBindings.Swift
