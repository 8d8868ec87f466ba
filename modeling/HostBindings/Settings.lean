import HostBindings.Lang
import HostBindings.Naming
import HostBindings.Text.Blank

/-!
Settings of a generation run, and what makes them usable.
-/

namespace HostBindings

structure Settings where
  lang : Lang
  /-- The native module that Swift imports, or the package that Kotlin declares. -/
  moduleName : String
  /-- The library to load; by default the one named after the native package. -/
  libraryName : Option String
  /-- Libraries to load after the main one, in order. -/
  extraLibraries : List String
  /-- Spaces for each level of indentation. That so many may not fit into memory is left aside. -/
  indent : Nat
  /-- Comment lines at the top of the generated file. -/
  header : Option String
  deriving DecidableEq, Repr

inductive SettingsError where
  | unknownLang (name : String)
  | emptyModule
  | moduleNotPath (name : String)
  | zeroIndent
  | emptyLibrary
  /-- The text of a settings file is not what its format asks for. -/
  | unreadable
  | inFile (path : String) (error : SettingsError)
  deriving DecidableEq, Repr

/-- The wording of an error; `toml` is the wording for a text that cannot be read. -/
def SettingsError.message (toml : String) : SettingsError → String
  | .unknownLang name =>
    "configuration error: unknown target language `" ++ name ++ "` (expected swift or kotlin)"
  | .emptyModule => "configuration error: module name cannot be empty"
  | .moduleNotPath name =>
    "configuration error: module name `" ++ name ++
      "` must be an identifier (dots allowed for packages)"
  | .zeroIndent => "configuration error: indent must be at least 1"
  | .emptyLibrary => "configuration error: library name cannot be empty"
  | .unreadable => "configuration error: " ++ toml
  | .inFile path error => "configuration error: " ++ path ++ ": " ++ error.message toml

def Lang.ofName (s : String) : Except SettingsError Lang :=
  match Lang.ofName? s with
  | some lang => .ok lang
  | none => .error (.unknownLang (Text.lowerAscii s))

namespace Settings

open HostBindings.Text

def default : Settings where
  lang := .swift
  moduleName := ""
  libraryName := none
  extraLibraries := []
  indent := 4
  header := none

def forModule (moduleName : String) : Settings :=
  { default with moduleName }

/-- The entries of a list of libraries that are not blank, without white space at their ends. -/
def trimmed (libraries : List String) : List String :=
  (libraries.map trim).filter (· ≠ "")

/-- Appends libraries given in one text, separated by commas. -/
def addLibraries (s : Settings) (list : String) : Settings :=
  let entries := (splitAtChar (· == ',') list.toList).map String.ofList
  { s with extraLibraries := s.extraLibraries ++ trimmed entries }

def mainLibrary (s : Settings) (package : String) : String :=
  s.libraryName.getD (Naming.toSymbol package)

def furtherLibraries (s : Settings) : List String :=
  trimmed s.extraLibraries

def isIdentifierStart (c : Char) : Bool :=
  c.isAlpha || c == '_'

def isIdentifierChar (c : Char) : Bool :=
  c.isAlphanum || c == '_'

def isIdentifier : List Char → Bool
  | [] => false
  | c :: cs => isIdentifierStart c && cs.all isIdentifierChar

def isIdentifierPath (name : String) : Bool :=
  (splitAtChar (· == '.') name.toList).all isIdentifier

def fault? (s : Settings) : Option SettingsError :=
  if isBlankText s.moduleName then some .emptyModule
  else if !isIdentifierPath s.moduleName then some (.moduleNotPath s.moduleName)
  else if s.indent = 0 then some .zeroIndent
  else if s.libraryName.any isBlankText then some .emptyLibrary
  else none

def check (s : Settings) : Except SettingsError Unit :=
  match s.fault? with
  | some e => .error e
  | none => .ok ()

end Settings

end HostBindings
