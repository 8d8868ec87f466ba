import HostBindings.Toml.Table
import HostBindings.Toml.Token

/-!
Documents: the lines of a TOML text, and the table that they describe. A line is an entry or the
header of a table. Lists and inline tables that are part way through are held in a list, so reading
needs no recursion into them; they may nest eighty deep, and a key may have eighty names.
-/

namespace HostBindings.Toml

/-! ### Keys and scalars -/

def isKeyChar (c : Char) : Bool :=
  c.isAlphanum || c == '_' || c == '-'

def Piece.name? : Piece → Option String
  | .word chars => if chars.all isKeyChar then some (String.ofList chars) else none
  | .text s lines => if lines then none else some s
  | _ => none

def Piece.isBlank : Piece → Bool
  | .space => true
  | .tab => true
  | _ => false

namespace Key

def names? : List Piece → Option Key
  | [] => none
  | [p] => p.name?.map fun name => ⟨[], name⟩
  | p :: .dot :: ps => do
    let step ← p.name?
    let key ← names? ps
    some ⟨step :: key.path, key.name⟩
  | _ => none

def maxNames : Nat := 80

/-- The key of a phrase; blanks may stand around the dots. -/
def ofPieces? (pieces : List Piece) : Option Key :=
  (names? (pieces.filter fun p => !p.isBlank)).filter fun key => key.path.length < maxNames

end Key

def Piece.chars? : Piece → Option (List Char)
  | .word chars => some chars
  | .dot => some ['.']
  | .space => some [' ']
  | _ => none

def Scalar.ofPieces? (pieces : List Piece) : Option Scalar :=
  match pieces.dropWhile Piece.isBlank with
  | [.text s _] => some (.text s)
  | ps => (ps.mapM Piece.chars?).bind fun chars => ofChars? chars.flatten

/-! ### Lines -/

structure Header where
  key : Key
  inList : Bool

inductive Line where
  | entry (key : Key) (node : Node)
  | header (h : Header)

/-- What is part way through: a list or inline table, with the finished parts, or a line, with the
lines before it in reverse; in the last two also the key whose value is being read. -/
inductive Frame where
  | list (done : List Node)
  | table (done : Entries) (key : Key)
  | line (done : List Line) (key : Key)

def maxDepth : Nat := 80

mutual

def readLines? (done : List Line) : List Token → Option (List Line)
  | [] => some done.reverse
  | .newline :: ts => readLines? done ts
  | .phrase ps :: .equals :: ts =>
    match Key.ofPieces? ps with
    | some key => readValue? ts [.line done key]
    | none => none
  | .listOpen false :: .phrase ps :: .listClose _ :: ts =>
    match Key.ofPieces? ps with
    | some key => readLineEnd? (.header ⟨key, false⟩ :: done) ts
    | none => none
  | .listOpen true :: .listOpen _ :: .phrase ps :: .listClose true :: .listClose _ :: ts =>
    match Key.ofPieces? ps with
    | some key => readLineEnd? (.header ⟨key, true⟩ :: done) ts
    | none => none
  | _ => none

def readLineEnd? (done : List Line) : List Token → Option (List Line)
  | [] => some done.reverse
  | .newline :: ts => readLines? done ts
  | _ => none

/-- Reads on where a value has to start; in a list, also where the list may end. Only the value of a
line has to start on the line of its key. -/
def readValue? : List Token → List Frame → Option (List Line)
  | .newline :: ts, .list done :: frames => readValue? ts (.list done :: frames)
  | .newline :: ts, .table done key :: frames => readValue? ts (.table done key :: frames)
  | .listClose _ :: ts, .list done :: frames => readRest? (.list done.reverse) ts frames
  | .phrase ps :: ts, frames =>
    match Scalar.ofPieces? ps with
    | some s => readRest? (.scalar s) ts frames
    | none => none
  | .listOpen _ :: ts, frames =>
    if frames.length ≤ maxDepth then readValue? ts (.list [] :: frames) else none
  | .tableOpen :: ts, frames =>
    if frames.length ≤ maxDepth then readKey? [] ts frames else none
  | _, _ => none

/-- Reads on where a key of an inline table may start, or the table may end. -/
def readKey? (done : Entries) : List Token → List Frame → Option (List Line)
  | .newline :: ts, frames => readKey? done ts frames
  | .tableClose :: ts, frames => readRest? (.table .inline done) ts frames
  | .phrase ps :: ts, frames =>
    match Key.ofPieces? ps with
    | some key => readEquals? done key ts frames
    | none => none
  | _, _ => none

def readEquals? (done : Entries) (key : Key) : List Token → List Frame → Option (List Line)
  | .newline :: ts, frames => readEquals? done key ts frames
  | .equals :: ts, frames => readValue? ts (.table done key :: frames)
  | _, _ => none

def readRest? (node : Node) : List Token → List Frame → Option (List Line)
  | ts, [.line done key] =>
    match ts with
    | [] => some (.entry key node :: done).reverse
    | .newline :: ts => readLines? (.entry key node :: done) ts
    | _ => none
  | .newline :: ts, frames => readRest? node ts frames
  | .comma :: ts, .list done :: frames => readValue? ts (.list (node :: done) :: frames)
  | .listClose _ :: ts, .list done :: frames => readRest? (.list (node :: done).reverse) ts frames
  | .comma :: ts, .table done key :: frames =>
    match done.insert? key.name node key.path with
    | some done => readKey? done ts frames
    | none => none
  | .tableClose :: ts, .table done key :: frames =>
    match done.insert? key.name node key.path with
    | some done => readRest? (.table .inline done) ts frames
    | none => none
  | _, _ => none

end

/-! ### Sections -/

structure Section where
  header : Header
  entries : List (Key × Node)

def sections : List Line → List (Key × Node) × List Section
  | [] => ([], [])
  | .entry key node :: lines =>
    let (entries, rest) := sections lines
    ((key, node) :: entries, rest)
  | .header h :: lines =>
    let (entries, rest) := sections lines
    ([], ⟨h, entries⟩ :: rest)

def fill? (table : Entries) (entries : List (Key × Node)) : Option Entries :=
  entries.foldlM (fun table (key, node) => table.insert? key.name node key.path) table

/-- The table of a section, by what already stands where its header points. -/
def tableOf? (entries : List (Key × Node)) : Option Node → Option Node
  | none => (fill? [] entries).map (.table .header)
  | some (.table .implied inner) => (fill? inner entries).map (.table .header)
  | some _ => none

/-- The list of tables that a section makes longer. -/
def tablesOf? (entries : List (Key × Node)) : Option Node → Option Node
  | none => (fill? [] entries).map fun table => .tables [table]
  | some (.tables each) => (fill? [] entries).map fun table => .tables (each ++ [table])
  | some _ => none

def place? (root : Entries) (s : Section) : Option Entries :=
  let change := if s.header.inList then tablesOf? s.entries else tableOf? s.entries
  root.update? s.header.key.name change s.header.key.path

def Entries.ofLines? (lines : List Line) : Option Entries := do
  let (entries, rest) := sections lines
  let root ← fill? [] entries
  rest.foldlM place? root

def dropMark : List Char → List Char
  | '\uFEFF' :: cs => cs
  | cs => cs

def Entries.ofText? (text : String) : Option Entries := do
  let tokens ← Token.scan? (dropMark text.toList)
  let lines ← readLines? [] tokens
  Entries.ofLines? lines

end HostBindings.Toml
