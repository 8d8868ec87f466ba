import HostBindings.Text.Case
import HostBindings.Text.Split

/-!
Names of generated declarations. Native names are words joined by underscores; host names are
written in camel case, native symbols keep their spelling.

| native name      | function      | result         |
|------------------|---------------|----------------|
| `test_u8_1`      | `camelCase`   | `testU81`      |
| `demo-lib`       | `pascalCase`  | `DemoLib`      |
| `DemoCallback`   | `decapitalize`| `demoCallback` |
| `demo-lib`       | `toSymbol`    | `demo_lib`     |
-/

namespace HostBindings.Naming

open HostBindings.Text

/-- Camel case from a point inside a name: `started` once a character has been written,
`raise` when the next character opens a word. Underscores are dropped, and one that stands
before the first character opens no word. -/
def camelFrom (started raise : Bool) : List Char → List Char
  | [] => []
  | c :: cs =>
    if c = '_' then camelFrom started started cs
    else (if raise then upper c else [c]) ++ camelFrom true false cs

def camelCase (name : String) : String :=
  String.ofList (camelFrom false false name.toList)

def capitalizeChars : List Char → List Char
  | [] => []
  | c :: cs => upper c ++ cs

def decapitalizeChars : List Char → List Char
  | [] => []
  | c :: cs => lower c ++ cs

def capitalize (name : String) : String :=
  String.ofList (capitalizeChars name.toList)

def decapitalize (name : String) : String :=
  String.ofList (decapitalizeChars name.toList)

def pascalCase (name : String) : String :=
  String.ofList
    ((splitAtChar (fun c => c == '-' || c == '_') name.toList).flatMap capitalizeChars)

def toSymbol (name : String) : String :=
  String.ofList (name.toList.map fun c => if c == '-' || c == '.' then '_' else c)

def escapeKeyword (keywords : List String) (name : String) : String :=
  if name ∈ keywords then "`" ++ name ++ "`" else name

def registryName (callback : String) : String :=
  decapitalize callback ++ "Registry"

def trampolineName (callback method : String) : String :=
  "invoke_" ++ callback ++ "_" ++ method

def releaseTrampolineName (callback : String) : String :=
  "free_" ++ callback

def proxyName (callback : String) : String :=
  callback ++ "Proxy"

end HostBindings.Naming
