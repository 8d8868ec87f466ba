import HostBindings.Text.Case

/-!
The target languages.
-/

namespace HostBindings

/-- Swift over the C calling convention, or Kotlin over the Java native interface. -/
inductive Lang where
  | swift
  | kotlin
  deriving DecidableEq, Repr

namespace Lang

def name : Lang → String
  | .swift => "swift"
  | .kotlin => "kotlin"

def ofName? (s : String) : Option Lang :=
  match Text.lowerAscii s with
  | "swift" => some .swift
  | "kotlin" => some .kotlin
  | "kt" => some .kotlin
  | _ => none

end Lang

end HostBindings
