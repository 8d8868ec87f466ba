import HostBindings.Json.Tree

/-!
JSON values. The fields of a record stand in the order in which their keys first appear, each key
once; of repeated keys the last value counts.
-/

namespace HostBindings.Json

inductive Value where
  | null
  | bool (b : Bool)
  | number (n : Number)
  | text (s : String)
  | list (items : List Value)
  | record (fields : List (String × Value))
  deriving Inhabited

namespace Value

/-- Sets a field: in place if the key is there, else at the end. -/
def setField (key : String) (v : Value) : List (String × Value) → List (String × Value)
  | [] => [(key, v)]
  | (k, w) :: fields => if k = key then (k, v) :: fields else (k, w) :: setField key v fields

def field? (key : String) : List (String × Value) → Option Value
  | [] => none
  | (k, v) :: fields => if k = key then some v else field? key fields

mutual

/-- The value of a tree. Nothing if a numeral denotes no number, a string no text, or containers
nest deeper than the given depth. -/
def ofTree? (depth : Nat) : Tree → Option Value
  | .null => some .null
  | .bool b => some (.bool b)
  | .number n => n.number?.map .number
  | .text content => content.map .text
  | .list items =>
    match depth with
    | 0 => none
    | depth + 1 => (itemsOfTrees? depth items).map .list
  | .record fields =>
    match depth with
    | 0 => none
    | depth + 1 => (fieldsOfTrees? depth fields []).map .record

def itemsOfTrees? (depth : Nat) : List Tree → Option (List Value)
  | [] => some []
  | t :: ts =>
    match ofTree? depth t with
    | some v => (itemsOfTrees? depth ts).map (v :: ·)
    | none => none

def fieldsOfTrees? (depth : Nat) :
    List (Option String × Tree) → List (String × Value) → Option (List (String × Value))
  | [], done => some done
  | (key, t) :: fields, done =>
    match key, ofTree? depth t with
    | some key, some v => fieldsOfTrees? depth fields (setField key v done)
    | _, _ => none

end

def maxDepth : Nat := 127

def ofText? (text : String) (depth : Nat) : Option Value :=
  (Tree.ofText? text).bind (ofTree? depth)

def read? (text : String) : Option Value :=
  ofText? text maxDepth

end Value

end HostBindings.Json
