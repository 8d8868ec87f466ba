import HostBindings.Json.Token

/-!
The tree of a JSON text as written: repeated keys are kept, numerals are not yet evaluated, and
strings that stand for no text are still there. Reading needs no bound on nesting, since the
containers part way through are held in a list.
-/

namespace HostBindings.Json

inductive Tree where
  | null
  | bool (b : Bool)
  | number (n : Numeral)
  | text (content : Option String)
  | list (items : List Tree)
  | record (fields : List (Option String × Tree))
  deriving Inhabited

namespace Tree

/-- A container part way through, with the finished parts in reverse; in a record also the key
whose value is being read. -/
inductive Frame where
  | list (done : List Tree)
  | record (done : List (Option String × Tree)) (key : Option String)

def ofWord? (word : List Char) : Option Tree :=
  if word = ['n', 'u', 'l', 'l'] then some .null
  else if word = ['t', 'r', 'u', 'e'] then some (.bool true)
  else if word = ['f', 'a', 'l', 's', 'e'] then some (.bool false)
  else (Numeral.ofChars? word).map .number

mutual

/-- Reads on where a value has to start, inside the given containers. -/
def readValue? : List Token → List Frame → Option Tree
  | .listOpen :: .listClose :: ts, frames => readRest? (.list []) ts frames
  | .listOpen :: ts, frames => readValue? ts (.list [] :: frames)
  | .recordOpen :: .recordClose :: ts, frames => readRest? (.record []) ts frames
  | .recordOpen :: .text key :: .colon :: ts, frames => readValue? ts (.record [] key :: frames)
  | .text content :: ts, frames => readRest? (.text content) ts frames
  | .word w :: ts, frames =>
    match ofWord? w with
    | some t => readRest? t ts frames
    | none => none
  | _, _ => none

def readRest? (t : Tree) : List Token → List Frame → Option Tree
  | [], [] => some t
  | .comma :: ts, .list done :: frames => readValue? ts (.list (t :: done) :: frames)
  | .listClose :: ts, .list done :: frames => readRest? (.list (t :: done).reverse) ts frames
  | .comma :: .text next :: .colon :: ts, .record done key :: frames =>
    readValue? ts (.record ((key, t) :: done) next :: frames)
  | .recordClose :: ts, .record done key :: frames =>
    readRest? (.record ((key, t) :: done).reverse) ts frames
  | _, _ => none

end

def ofText? (text : String) : Option Tree :=
  (Token.scan? text.toList).bind (readValue? · [])

end Tree

end HostBindings.Json
