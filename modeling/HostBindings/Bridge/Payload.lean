import HostBindings.Bridge.Buffer
import HostBindings.Json.Writer

/-!
Payloads: values that cross the boundary as JSON texts. Writing is by way of a JSON value; reading
is from the tree of the text, so that a part that no field asks for is never evaluated.
-/

namespace HostBindings.Bridge

open HostBindings.Json

class Payload (α : Type) where
  toValue : α → Value
  ofTree? : Tree → Option α

namespace Payload

def int? (least greatest : Int) : Tree → Option Int
  | .number n =>
    match n.number? with
    | some (.int i) => if least ≤ i && i ≤ greatest then some i else none
    | _ => none
  | _ => none

/-- The integer of a word with sign, by the number of its bits. -/
def word? (bits : Nat) (t : Tree) : Option Int :=
  int? (-Nat.pow 2 (bits - 1)) (Nat.pow 2 (bits - 1) - 1) t

def double? : Tree → Option Float
  | .number n =>
    n.number?.map fun
      | .int i => if i < 0 then -(i.natAbs.toUInt64.toFloat) else i.natAbs.toUInt64.toFloat
      | .double x => x
  | _ => none

instance : Payload Bool where
  toValue := .bool
  ofTree?
    | .bool b => some b
    | _ => none

instance : Payload Int8 where
  toValue n := .number (.int n.toInt)
  ofTree? t := (word? 8 t).map Int8.ofInt

instance : Payload Int16 where
  toValue n := .number (.int n.toInt)
  ofTree? t := (word? 16 t).map Int16.ofInt

instance : Payload Int32 where
  toValue n := .number (.int n.toInt)
  ofTree? t := (word? 32 t).map Int32.ofInt

instance : Payload Int64 where
  toValue n := .number (.int n.toInt)
  ofTree? t := (word? 64 t).map Int64.ofInt

instance : Payload Float where
  toValue x := .number (.double x)
  ofTree? := double?

instance : Payload String where
  toValue := .text
  ofTree?
    | .text content => content
    | _ => none

instance {α : Type} [Payload α] : Payload (List α) where
  toValue vs := .list (vs.map toValue)
  ofTree?
    | .list items => items.mapM ofTree?
    | _ => none

/-! ### Records -/

/-- The values of a record's keys that are among the names; nothing if a key is no text or one of
the names comes twice. -/
def named? (names : List String) :
    List (Option String × Tree) → Option (List (String × Tree))
  | [] => some []
  | (none, _) :: _ => none
  | (some key, t) :: fields =>
    match named? names fields with
    | none => none
    | some found =>
      if names.contains key then
        if found.any (·.1 == key) then none else some ((key, t) :: found)
      else some found

/-- The values of a record's fields, in the order of their names. A record has each field once and
may have others; a list has just the values. -/
def fields? (names : List String) : Tree → Option (List Tree)
  | .record fields => do
    let found ← named? names fields
    names.mapM fun name => (found.find? (·.1 == name)).map (·.2)
  | .list items => if items.length = names.length then some items else none
  | _ => none

/-! ### Texts -/

def encode {α : Type} [Payload α] (v : α) : Except Error WireText :=
  WireText.ofText (toValue v).write

def decode {α : Type} [Payload α] (buffer : Option (List UInt8)) : Except Error α := do
  let text ← WireText.borrow buffer
  match (Tree.ofText? text).bind ofTree? with
  | some v => .ok v
  | none => .error .notJson

end Payload

instance : Payload Value where
  toValue := id
  ofTree? := Value.ofTree? Value.maxDepth

end HostBindings.Bridge
