import HostBindings.Settings
import HostBindings.Toml.Document

/-!
Settings files: TOML texts with a key for each setting. A setting that is not there keeps its
default, and keys that name no setting are ignored.
-/

namespace HostBindings.Settings

open HostBindings.Toml

/-- The language that a node names: a string in lower case, or a table with that name as its one
key, which holds nothing. -/
def lang? : Node → Option Lang
  | .scalar (.text s) => ofExactName? s
  | .table _ [(name, .table _ [])] => ofExactName? name
  | .table _ [(name, .list [])] => ofExactName? name
  | _ => none
where
  ofExactName? (name : String) : Option Lang :=
    if name = Lang.swift.name then some .swift
    else if name = Lang.kotlin.name then some .kotlin
    else none

def text? : Node → Option String
  | .scalar (.text s) => some s
  | _ => none

def texts? : Node → Option (List String)
  | .list items => items.mapM text?
  | _ => none

def count? : Node → Option Nat
  | .scalar (.int n) => if 0 ≤ n && n < UInt64.size then some n.toNat else none
  | _ => none

def setting? {α : Type} (key : String) (read : Node → Option α) (dflt : α) (entries : Entries) :
    Option α :=
  match entries.find? key with
  | some node => read node
  | none => some dflt

def ofEntries? (entries : Entries) : Option Settings := do
  let lang ← setting? "lang" lang? default.lang entries
  let moduleName ← setting? "module_name" text? default.moduleName entries
  let libraryName ←
    setting? "library_name" (fun node => (text? node).map some) default.libraryName entries
  let extraLibraries ← setting? "extra_libraries" texts? default.extraLibraries entries
  let indent ← setting? "indent" count? default.indent entries
  let header ← setting? "header" (fun node => (text? node).map some) default.header entries
  some { lang, moduleName, libraryName, extraLibraries, indent, header }

def ofText (text : String) : Except SettingsError Settings :=
  match (Entries.ofText? text).bind ofEntries? with
  | some s => .ok s
  | none => .error .unreadable

end HostBindings.Settings
