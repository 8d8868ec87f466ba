import HostBindings.Toml.Scalar

/-!
Tables of TOML texts, and which later lines may still extend a table: one that dotted keys made
takes further dotted keys; one that only stands on the way to a header's table takes its own header
later; an inline table takes nothing.
-/

namespace HostBindings.Toml

inductive Made where
  /-- By its own header. -/
  | header
  /-- On the way to the table of a header. -/
  | implied
  /-- On the way to a dotted key. -/
  | dotted
  | inline
  deriving DecidableEq

inductive Node where
  | scalar (s : Scalar)
  | list (items : List Node)
  | table (made : Made) (entries : List (String × Node))
  /-- A list whose tables each have a header. -/
  | tables (each : List (List (String × Node)))

abbrev Entries := List (String × Node)

structure Key where
  path : List String
  name : String

namespace Entries

def find? (name : String) (entries : Entries) : Option Node :=
  (List.find? (·.1 == name) entries).map (·.2)

/-- Sets the node under a name: in place if the name is there, else at the end. -/
def set (name : String) (node : Node) : Entries → Entries
  | [] => [(name, node)]
  | (n, old) :: rest => if n = name then (n, node) :: rest else (n, old) :: set name node rest

def onLast (f : Entries → Option Entries) : List Entries → Option (List Entries)
  | [] => none
  | [last] => (f last).map ([·])
  | first :: rest => (onLast f rest).map (first :: ·)

/-- Adds an entry of a line or inline table. Nothing if the key is taken, or if its path leads
through a table that dotted keys may not extend. -/
def insert? (name : String) (node : Node) : List String → Entries → Option Entries
  | [], entries =>
    match find? name entries with
    | some _ => none
    | none => some (entries ++ [(name, node)])
  | step :: path, entries =>
    match find? step entries with
    | none =>
      (insert? name node path []).map fun inner => set step (.table .dotted inner) entries
    | some (.table .dotted inner) =>
      (insert? name node path inner).map fun inner => set step (.table .dotted inner) entries
    | some (.table .implied inner) =>
      if path.isEmpty then none
      else (insert? name node path inner).map fun inner => set step (.table .implied inner) entries
    | some (.tables each) =>
      if path.isEmpty then none
      else (onLast (insert? name node path) each).map fun each => set step (.tables each) entries
    | some _ => none

/-- Changes the node that a header names. Nothing if its path leads through a node that is no
table, or through an inline table. -/
def update? (name : String) (f : Option Node → Option Node) : List String → Entries → Option Entries
  | [], entries => (f (find? name entries)).map fun node => set name node entries
  | step :: path, entries =>
    match find? step entries with
    | none => (update? name f path []).map fun inner => set step (.table .implied inner) entries
    | some (.table .inline _) => none
    | some (.table made inner) =>
      (update? name f path inner).map fun inner => set step (.table made inner) entries
    | some (.tables each) =>
      (onLast (update? name f path) each).map fun each => set step (.tables each) entries
    | some _ => none

end Entries

end HostBindings.Toml
