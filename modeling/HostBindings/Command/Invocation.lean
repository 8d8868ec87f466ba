import HostBindings.Settings

/-!
Invocations: what a command line asks for. Options may stand anywhere behind the command that they
belong to; each takes one value and may be given once. Arguments are read from left to right, and
the first one that does not fit decides, unless the version or help was asked for before it.
-/

namespace HostBindings.Command

structure Generation where
  /-- The directory of documents. -/
  documents : String
  moduleName : String
  output : String
  lang : Option Lang
  /-- The path of a settings file. -/
  settings : Option String
  /-- Further libraries, separated by commas. -/
  libraries : Option String
  deriving DecidableEq, Repr

inductive Invocation where
  | generate (g : Generation)
  | check (documents : String)
  | version
  | help
  deriving DecidableEq, Repr

inductive UsageError where
  | noCommand
  | unknownCommand (word : String)
  | unknownOption (word : String)
  | noValue (option : String)
  | needlessValue (option : String)
  | badValue (option value : String)
  | repeatedOption (option : String)
  | missingArgument (name : String)
  | emptyPath (name : String)
  | surplusArgument (word : String)
  deriving DecidableEq, Repr

def UsageError.message : UsageError → String
  | .noCommand => "a command is required"
  | .unknownCommand word => "unknown command `" ++ word ++ "`"
  | .unknownOption word => "unexpected option `" ++ word ++ "`"
  | .noValue option => "a value is required for `" ++ option ++ "`"
  | .needlessValue option => "`" ++ option ++ "` takes no value"
  | .badValue option value => "invalid value `" ++ value ++ "` for `" ++ option ++ "`"
  | .repeatedOption option => "`" ++ option ++ "` is given more than once"
  | .missingArgument name => "the argument `" ++ name ++ "` is missing"
  | .emptyPath name => "`" ++ name ++ "` must not be empty"
  | .surplusArgument word => "unexpected argument `" ++ word ++ "`"

/-! ### Words -/

inductive Word where
  /-- Two dashes and a name, with the value behind an equals sign. -/
  | long (name : String) (value : Option String)
  /-- One dash and letters. -/
  | short (letter : Char) (rest : List Char)
  /-- Two dashes alone: what follows are no options. -/
  | stop
  | plain

def splitEquals : List Char → List Char × Option (List Char)
  | [] => ([], none)
  | c :: cs =>
    if c = '=' then ([], some cs)
    else
      let (name, value) := splitEquals cs
      (c :: name, value)

def Word.ofText (s : String) : Word :=
  match s.toList with
  | ['-', '-'] => .stop
  | '-' :: '-' :: cs =>
    let (name, value) := splitEquals cs
    .long (String.ofList name) (value.map String.ofList)
  | '-' :: c :: cs => .short c cs
  | _ => .plain

def Word.isValue : Word → Bool
  | .plain => true
  | _ => false

/-! ### Options -/

inductive Setting where
  | logLevel
  | lang
  | settings
  | libraries
  deriving DecidableEq, Repr

def Setting.name : Setting → String
  | .logLevel => "log-level"
  | .lang => "lang"
  | .settings => "config"
  | .libraries => "ext-libs"

def Setting.letter? : Setting → Option Char
  | .lang => some 'l'
  | .settings => some 'c'
  | _ => none

def logLevels : List String :=
  ["trace", "debug", "info", "warn", "error", "off"]

def Setting.admits (value : String) : Setting → Bool
  | .logLevel => logLevels.contains value
  | .lang => (Lang.ofName? value).isSome
  | .settings => !value.isEmpty
  | .libraries => true

/-- What is read so far behind a command. -/
structure Collected where
  /-- The arguments that are no options, in order. -/
  plain : List String
  values : List (Setting × String)

def Collected.empty : Collected := ⟨[], []⟩

def Collected.value? (c : Collected) (setting : Setting) : Option String :=
  (c.values.find? (·.1 == setting)).map (·.2)

def Collected.take (c : Collected) (setting : Setting) (value : String) :
    Except UsageError Collected :=
  if !setting.admits value then .error (.badValue setting.name value)
  else if (c.value? setting).isSome then .error (.repeatedOption setting.name)
  else .ok { c with values := c.values ++ [(setting, value)] }

structure Parameter where
  name : String
  isPath : Bool

def Collected.push (parameters : List Parameter) (c : Collected) (word : String) :
    Except UsageError Collected :=
  match parameters[c.plain.length]? with
  | none => .error (.surplusArgument word)
  | some p =>
    if p.isPath && word.isEmpty then .error (.emptyPath p.name)
    else .ok { c with plain := c.plain ++ [word] }

/-! ### Reading -/

/-- What comes of reading options: what they say, or a stop at a request for help or version. -/
inductive Reading where
  | done (c : Collected)
  | request (i : Invocation)

def readPlain (parameters : List Parameter) (c : Collected) :
    List String → Except UsageError Reading
  | [] => .ok (.done c)
  | word :: words =>
    match c.push parameters word with
    | .ok c => readPlain parameters c words
    | .error e => .error e

def readArguments (settings : List Setting) (parameters : List Parameter) (c : Collected) :
    List String → Except UsageError Reading
  | [] => .ok (.done c)
  | word :: words =>
    match Word.ofText word with
    | .plain =>
      match c.push parameters word with
      | .ok c => readArguments settings parameters c words
      | .error e => .error e
    | .stop => readPlain parameters c words
    | .long name value =>
      if name = "help" then
        if value.isSome then .error (.needlessValue name) else .ok (.request .help)
      else
        match settings.find? (·.name == name), value, words with
        | none, _, _ => .error (.unknownOption word)
        | some s, some v, words =>
          match c.take s v with
          | .ok c => readArguments settings parameters c words
          | .error e => .error e
        -- the next word is the value, unless it looks like an option
        | some s, none, v :: words =>
          if (Word.ofText v).isValue then
            match c.take s v with
            | .ok c => readArguments settings parameters c words
            | .error e => .error e
          else .error (.noValue name)
        | some _, none, [] => .error (.noValue name)
    | .short letter rest =>
      if letter = 'h' then .ok (.request .help)
      else
        match settings.find? (·.letter? == some letter), rest, words with
        | none, _, _ => .error (.unknownOption word)
        -- behind a letter the value may follow at once, with or without an equals sign
        | some s, '=' :: v, words =>
          match c.take s (String.ofList v) with
          | .ok c => readArguments settings parameters c words
          | .error e => .error e
        | some s, d :: v, words =>
          match c.take s (String.ofList (d :: v)) with
          | .ok c => readArguments settings parameters c words
          | .error e => .error e
        | some s, [], v :: words =>
          if (Word.ofText v).isValue then
            match c.take s v with
            | .ok c => readArguments settings parameters c words
            | .error e => .error e
          else .error (.noValue s.name)
        | some s, [], [] => .error (.noValue s.name)

def generateParameters : List Parameter :=
  [⟨"ast_dir", true⟩, ⟨"module_name", false⟩, ⟨"output_dir", true⟩]

def checkParameters : List Parameter :=
  [⟨"ast_dir", true⟩]

def missing (parameters : List Parameter) (c : Collected) : UsageError :=
  .missingArgument ((parameters[c.plain.length]?.map (·.name)).getD "")

def readGenerate (words : List String) : Except UsageError Invocation := do
  let settings := [.logLevel, .lang, .settings, .libraries]
  match ← readArguments settings generateParameters .empty words with
  | .request i => return i
  | .done c =>
    match c.plain with
    | [documents, moduleName, output] =>
      return .generate {
        documents, moduleName, output
        lang := (c.value? .lang).bind Lang.ofName?
        settings := c.value? .settings
        libraries := c.value? .libraries }
    | _ => throw (missing generateParameters c)

def readCheck (words : List String) : Except UsageError Invocation := do
  match ← readArguments [.logLevel] checkParameters .empty words with
  | .request i => return i
  | .done c =>
    match c.plain with
    | [documents] => return .check documents
    | _ => throw (missing checkParameters c)

def readHelp : List String → Except UsageError Invocation
  | [] => .ok .help
  | [word] =>
    if ["generate", "check", "help"].contains word then .ok .help
    else .error (.unknownCommand word)
  | _ :: word :: _ => .error (.unknownCommand word)

/-- Reads a command line. `level` holds the log level if it was given before the command. -/
def readCommand (level : Collected) : List String → Except UsageError Invocation
  | [] => .error .noCommand
  | word :: words =>
    match Word.ofText word with
    | .plain =>
      if word = "generate" then readGenerate words
      else if word = "check" then readCheck words
      else if word = "help" then readHelp words
      else .error (.unknownCommand word)
    | .stop => .error .noCommand
    | .short letter _ =>
      if letter = 'h' then .ok .help
      else if letter = 'V' then .ok .version
      else .error (.unknownOption word)
    | .long name value =>
      if name = "help" || name = "version" then
        if value.isSome then .error (.needlessValue name)
        else .ok (if name = "help" then .help else .version)
      -- no other option may stand before the command
      else if name != Setting.logLevel.name then .error (.unknownOption word)
      else
        match value, words with
        | some v, words =>
          match level.take .logLevel v with
          | .ok level => readCommand level words
          | .error e => .error e
        | none, v :: words =>
          if (Word.ofText v).isValue then
            match level.take .logLevel v with
            | .ok level => readCommand level words
            | .error e => .error e
          else .error (.noValue name)
        | none, [] => .error (.noValue name)

def Invocation.ofWords (words : List String) : Except UsageError Invocation :=
  readCommand .empty words

end HostBindings.Command
