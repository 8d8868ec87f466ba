import HostBindings.Json.Numeral
import HostBindings.Text.Hex

/-!
Tokens of JSON texts. White space is space, tab, line feed and carriage return. A string token is
`none` when an escape in it leaves half of a surrogate pair alone: such a string is well formed,
but stands for no text.
-/

namespace HostBindings.Json

inductive Token where
  | listOpen
  | listClose
  | recordOpen
  | recordClose
  | comma
  | colon
  | text (content : Option String)
  /-- A run of letters, digits, signs and points: a numeral or one of the three constants. -/
  | word (chars : List Char)

namespace Token

/-- A piece of a string: a character, or a UTF-16 unit given by its four digits. -/
inductive Piece where
  | char (c : Char)
  | unit (n : Nat)

def escaped? : Char → Option Char
  | '"' => some '"'
  | '\\' => some '\\'
  | '/' => some '/'
  | 'b' => some '\x08'
  | 'f' => some '\x0c'
  | 'n' => some '\n'
  | 'r' => some '\r'
  | 't' => some '\t'
  | _ => none

/-- The pieces of a string up to its closing quote, and what follows the quote. -/
def pieces? : List Char → Option (List Piece × List Char)
  | [] => none
  | '"' :: rest => some ([], rest)
  -- two units may make up one character, which is decided when all pieces are there
  | '\\' :: 'u' :: a :: b :: c :: d :: rest => do
    let n ← Text.hexValue? [a, b, c, d]
    let (ps, after) ← pieces? rest
    some (.unit n :: ps, after)
  | '\\' :: e :: rest => do
    let c ← escaped? e
    let (ps, after) ← pieces? rest
    some (.char c :: ps, after)
  | c :: rest =>
    if c.toNat < 0x20 then none
    else do
      let (ps, after) ← pieces? rest
      some (.char c :: ps, after)

/-- The characters that pieces stand for; nothing if a surrogate is left alone. -/
def joinPieces? : List Piece → Option (List Char)
  | [] => some []
  | .char c :: ps => (joinPieces? ps).map (c :: ·)
  | .unit hi :: .unit lo :: ps =>
    -- a high surrogate needs a low one behind it
    if 0xD800 ≤ hi && hi ≤ 0xDBFF then
      if 0xDC00 ≤ lo && lo ≤ 0xDFFF then
        (joinPieces? ps).map (Char.ofNat (0x10000 + (hi - 0xD800) * 0x400 + (lo - 0xDC00)) :: ·)
      else none
    else if 0xDC00 ≤ hi && hi ≤ 0xDFFF then none
    else (joinPieces? (.unit lo :: ps)).map (Char.ofNat hi :: ·)
  | .unit n :: ps =>
    if 0xD800 ≤ n && n ≤ 0xDFFF then none else (joinPieces? ps).map (Char.ofNat n :: ·)

theorem length_of_pieces? {cs : List Char} {ps : List Piece} {after : List Char}
    (h : pieces? cs = some (ps, after)) : after.length < cs.length := by
  -- each case reads at least one character before it goes on
  fun_induction pieces? cs generalizing ps after with
  | case1 => simp at h
  | case2 rest =>
    simp only [Option.some.injEq, Prod.mk.injEq] at h
    simp [← h.2]
  | case3 a b c d rest ih =>
    simp only [Option.bind_eq_bind, Option.bind_eq_some_iff] at h
    obtain ⟨n, _, ⟨qs, r⟩, hr, h⟩ := h
    simp only [Option.some.injEq, Prod.mk.injEq] at h
    have := ih hr
    simp only [List.length_cons, ← h.2]
    omega
  | case4 e rest _ ih =>
    simp only [Option.bind_eq_bind, Option.bind_eq_some_iff] at h
    obtain ⟨n, _, ⟨qs, r⟩, hr, h⟩ := h
    simp only [Option.some.injEq, Prod.mk.injEq] at h
    have := ih hr
    simp only [List.length_cons, ← h.2]
    omega
  | case5 => simp at h
  | case6 c rest _ _ _ _ ih =>
    simp only [Option.bind_eq_bind, Option.bind_eq_some_iff] at h
    obtain ⟨⟨qs, r⟩, hr, h⟩ := h
    simp only [Option.some.injEq, Prod.mk.injEq] at h
    have := ih hr
    simp only [List.length_cons, ← h.2]
    omega

def isSpace (c : Char) : Bool :=
  c == ' ' || c == '\t' || c == '\n' || c == '\r'

def isWordChar (c : Char) : Bool :=
  c.isAlphanum || c == '-' || c == '+' || c == '.'

def punctuation? : Char → Option Token
  | '[' => some .listOpen
  | ']' => some .listClose
  | '{' => some .recordOpen
  | '}' => some .recordClose
  | ',' => some .comma
  | ':' => some .colon
  | _ => none

/-- The tokens of a text; nothing if some part of it belongs to no token. -/
def scan? (cs : List Char) : Option (List Token) :=
  match cs with
  | [] => some []
  | c :: rest =>
    if isSpace c then scan? rest
    else if c == '"' then
      match h : pieces? rest with
      | none => none
      | some (ps, after) =>
        have := length_of_pieces? h
        (scan? after).map (.text ((joinPieces? ps).map String.ofList) :: ·)
    else
      match punctuation? c with
      | some t => (scan? rest).map (t :: ·)
      | none =>
        if isWordChar c then
          have := (List.dropWhile_suffix isWordChar : rest.dropWhile isWordChar <:+ rest).length_le
          (scan? (rest.dropWhile isWordChar)).map (.word (c :: rest.takeWhile isWordChar) :: ·)
        else none
termination_by cs.length
decreasing_by all_goals simp only [List.length_cons]; omega

end Token

end HostBindings.Json
