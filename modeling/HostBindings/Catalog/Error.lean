import HostBindings.Boundary
import HostBindings.Files.Fault
import HostBindings.Spelling.Token

/-!
Why a catalog of entities cannot be read or does not hold together. Each constructor is a cause;
its wording is in `CatalogError.message`.
-/

namespace HostBindings

/-- A combination of types that documents can spell but that has no meaning at the boundary. -/
inductive Unsupported where
  | genericElement (spelling : String)
  | genericCallback (spelling : String)
  | genericRecord (spelling : String)
  /-- A list spelled where the tag says record. -/
  | listAsRecord (spelling : String)
  | bareVec (context : String)
  /-- A list of elements that cannot stand in a list, by the element's tag. -/
  | vecOf (tag context : String)
  /-- A callback interface whose method takes or returns a callback. -/
  | nestedCallback (owner callback : String)
  | fieldType (owner : String) (type : BoundaryType)
  deriving DecidableEq, Repr

def Unsupported.message : Unsupported → String
  | .genericElement spelling => "generic vector element in `" ++ spelling ++ "`"
  | .genericCallback spelling => "generic callback interface `" ++ spelling ++ "`"
  | .genericRecord spelling => "generic struct `" ++ spelling ++ "`"
  | .listAsRecord spelling => "`" ++ spelling ++ "` tagged as Struct"
  | .bareVec context => "bare `Vec` tag without element type in " ++ context
  | .vecOf tag context => "Vec<" ++ tag ++ "> in " ++ context
  | .nestedCallback owner callback =>
    "callback interface " ++ owner ++ " passes callback `" ++ callback ++ "`"
  | .fieldType owner type => "struct field " ++ owner ++ " of type " ++ type.label

inductive Shape where
  | object
  | string
  | boolean
  | array
  | type
  deriving DecidableEq, Repr

def Shape.message : Shape → String
  | .object => "an object"
  | .string => "a string"
  | .boolean => "a boolean"
  | .array => "an array"
  | .type => "a type tag string or a single-key \x7b\"Vec\": <tag>\x7d object"

inductive CatalogError where
  | io (path : String) (fault : Files.Fault)
  | notJson
  | missingKey (key context : String)
  | wrongShape (key context : String) (expected : Shape)
  | unknownEntity (kind : String)
  | unknownType (tag context : String)
  | nestedVec (site : String)
  | unsupported (what : Unsupported)
  | invalidSpelling (spelling : String) (fault : Spelling.Fault)
  | unresolvedCallback (callback interface method : String)
  | unresolvedRecord (name owner : String)
  | duplicateEntity (name : String)
  | inFile (path : String) (error : CatalogError)
  deriving DecidableEq, Repr

namespace CatalogError

def message (json : String) : CatalogError → String
  | .io path fault => "I/O error on " ++ path ++ ": " ++ fault.message
  | .notJson => "invalid JSON: " ++ json
  | .missingKey key context => "missing required key `" ++ key ++ "` in " ++ context
  | .wrongShape key context expected =>
    "key `" ++ key ++ "` in " ++ context ++ " must be " ++ expected.message
  | .unknownEntity kind => "unknown entity kind: " ++ kind
  | .unknownType tag context => "unknown type `" ++ tag ++ "` in " ++ context
  | .nestedVec site => "nested vectors are not supported: " ++ site
  | .unsupported what => "unsupported type shape: " ++ what.message
  | .invalidSpelling spelling fault =>
    "invalid origin type `" ++ spelling ++ "`: " ++ fault.message
  | .unresolvedCallback callback interface method =>
    "unresolved callback `" ++ callback ++ "` referenced by " ++ interface ++ "::" ++ method
  | .unresolvedRecord name owner => "unresolved struct `" ++ name ++ "` referenced by " ++ owner
  | .duplicateEntity name => "duplicate entity name: " ++ name
  | .inFile path error => path ++ ": " ++ error.message json

/-- Names the file that an error comes from; the file nearest to the cause is kept. -/
def atFile (path : String) : CatalogError → CatalogError
  | .inFile p e => .inFile p e
  | e => .inFile path e

def root : CatalogError → CatalogError
  | .inFile _ e => e.root
  | e => e

end CatalogError

end HostBindings
