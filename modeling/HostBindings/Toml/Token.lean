import HostBindings.Toml.Quoted

/-!
Tokens of TOML texts. What stands between brackets, commas, equals signs and line ends is a phrase:
a key, or a scalar. Comments and blanks at the end of a phrase are dropped.
-/

namespace HostBindings.Toml

open HostBindings.Text

inductive Piece where
  | word (chars : List Char)
  /-- A string, with whether three quotes enclose it. -/
  | text (s : String) (lines : Bool)
  | dot
  | space
  | tab

inductive Token where
  /-- An opening bracket, with whether another one follows at once. -/
  | listOpen (doubled : Bool)
  /-- A closing bracket, with whether another one follows at once. -/
  | listClose (doubled : Bool)
  | tableOpen
  | tableClose
  | comma
  | equals
  | newline
  | phrase (pieces : List Piece)

namespace Token

def consPiece (p : Piece) : List Token → List Token
  | .phrase ps :: ts => .phrase (p :: ps) :: ts
  | ts => .phrase [p] :: ts

/-- Puts a blank in front of tokens, where it counts only if a phrase follows. -/
def consBlank (p : Piece) : List Token → List Token
  | .phrase ps :: ts => .phrase (p :: ps) :: ts
  | ts => ts

def isWordChar (c : Char) : Bool :=
  c.isAlphanum || c == '_' || c == '-' || c == '+' || c == ':'

def inLine (c : Char) : Bool :=
  !Quoted.isLineEnd c

def punctuation? (next : Option Char) : Char → Option Token
  | '[' => some (.listOpen (next == some '['))
  | ']' => some (.listClose (next == some ']'))
  | '{' => some .tableOpen
  | '}' => some .tableClose
  | ',' => some .comma
  | '=' => some .equals
  | '\n' => some .newline
  | _ => none

def scan? (cs : List Char) : Option (List Token) :=
  match cs with
  | [] => some []
  | '\r' :: '\n' :: rest => (scan? rest).map (.newline :: ·)
  | c :: rest =>
    if c == ' ' then (scan? rest).map (consBlank .space)
    else if c == '\t' then (scan? rest).map (consBlank .tab)
    else if c == '.' then (scan? rest).map (consPiece .dot)
    else if c == '#' then
      have := (List.dropWhile_suffix inLine : rest.dropWhile inLine <:+ rest).length_le
      if (rest.takeWhile inLine).all Quoted.isPlain then scan? (rest.dropWhile inLine)
      else none
    else if c == '"' || c == '\'' then
      match Quoted.ofChars? c rest with
      | some q => (scan? (rest.drop q.length)).map (consPiece (.text q.text q.lines))
      | none => none
    else if isWordChar c then
      have := (List.dropWhile_suffix isWordChar : rest.dropWhile isWordChar <:+ rest).length_le
      (scan? (rest.dropWhile isWordChar)).map
        (consPiece (.word (c :: rest.takeWhile isWordChar)))
    else
      match punctuation? rest.head? c with
      | some t => (scan? rest).map (t :: ·)
      | none => none
termination_by cs.length
decreasing_by all_goals simp only [List.length_cons, List.length_drop]; omega

end Token

end HostBindings.Toml
