import HostBindings.Catalog
import HostBindings.Code.Decl
import HostBindings.Settings

/-!
What a language needs to know about the place that code is generated for, and how the texts that
both languages build from parts are put together.
-/

namespace HostBindings

open HostBindings.Code

structure Context where
  catalog : Catalog
  settings : Settings
  /-- The native module of the interface. -/
  module : String
  /-- The native package that exports its functions. -/
  package : String
  /-- The host type that owns trampolines and native declarations. -/
  owner : String

namespace Context

/-- The place of an interface: it owns its trampolines and native declarations itself. -/
def ofInterface (catalog : Catalog) (settings : Settings) (i : Interface) : Context where
  catalog
  settings
  module := i.module
  package := i.package
  owner := i.name

def scope (c : Context) : Scope :=
  ⟨c.module, c.owner⟩

end Context

namespace Target

structure CallArg where
  label : Option String
  value : String

/-- The opening of a type declaration. With parameters, `lead` ends in an opening bracket on its
own line, each parameter has a line, and `tail` follows the closing bracket. -/
structure TypeHeader where
  lead : String
  params : List String
  tail : String

def commas (parts : List String) : String :=
  String.intercalate ", " parts

/-- The words of a declaration's modifiers, each followed by a blank. `words` lists the modifiers
that the language writes, in the order in which it writes them. -/
def modifierText (words : List (Modifier × String)) (modifiers : List Modifier) : String :=
  String.join ((words.filter fun w => modifiers.contains w.1).map fun w => w.2 ++ " ")

end Target

end HostBindings
