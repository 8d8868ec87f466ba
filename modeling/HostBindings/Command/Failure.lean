import HostBindings.Generate.Error

/-!
Failures of commands, and how they are reported: what was attempted, and then the causes from the
outermost to the innermost, numbered if there are several.
-/

namespace HostBindings

def CatalogError.causes (json : String) : CatalogError → List String
  | .io path fault => [(CatalogError.io path fault).message json, fault.message]
  | .notJson => [CatalogError.notJson.message json, json]
  | .inFile path e => (CatalogError.inFile path e).message json :: e.causes json
  | e => [e.message json]

def Generate.Error.causes (json toml : String) : Generate.Error → List String
  | .catalog e => e.causes json
  | .io path fault => [(Generate.Error.io path fault).message json toml, fault.message]
  | e => [e.message json toml]

namespace Command

inductive Failure where
  | settingsFile (path : String) (e : Generate.Error)
  | settings (e : SettingsError)
  | load (documents : String) (e : CatalogError)
  | generate (documents : String) (e : Generate.Error)
  | write (output : String) (e : Generate.Error)
  deriving DecidableEq, Repr

def Failure.attempt : Failure → String
  | .settingsFile path _ => "Failed to load settings: " ++ path
  | .settings _ => "Invalid generation settings"
  | .load documents _ => "Failed to load AST from " ++ documents
  | .generate documents _ => "Failed to generate bindings from " ++ documents
  | .write output _ => "Failed to write " ++ output

def Failure.causes (json toml : String) : Failure → List String
  | .settingsFile _ e => e.causes json toml
  | .settings e => [e.message toml]
  | .load _ e => e.causes json
  | .generate _ e => e.causes json toml
  | .write _ e => e.causes json toml

def indentLines (margin : String) (text : String) : String :=
  String.join (text.toList.map fun c => if c = '\n' then "\n" ++ margin else String.ofList [c])

def paddedNumber (n : Nat) : String :=
  let digits := toString n
  String.ofList (List.replicate (5 - digits.length) ' ') ++ digits

def causeLines : List String → List String
  | [cause] => ["    " ++ indentLines "    " cause]
  | causes =>
    causes.mapIdx fun n cause => paddedNumber n ++ ": " ++ indentLines "       " cause

def Failure.report (json toml : String) (f : Failure) : String :=
  let causes := causeLines (f.causes json toml)
  "Error: " ++ f.attempt ++ "\n\nCaused by:\n" ++ String.intercalate "\n" causes ++ "\n"

end Command

end HostBindings
