import HostBindings.Text.Hex

/-!
Strings of TOML texts, by the quote that encloses them: single quotes keep every character, double
quotes know escapes. Three quotes enclose several lines; there the first line end does not count,
and up to two quotes may stand before the closing three.
-/

namespace HostBindings.Toml

open HostBindings.Text

/-- A string: its text, whether three quotes enclose it, and how many characters it takes behind
its first quote. -/
structure Quoted where
  text : String
  lines : Bool
  length : Nat

namespace Quoted

def isPlain (c : Char) : Bool :=
  c == '\t' || (0x20 ≤ c.toNat && c.toNat != 0x7F)

def isLineEnd (c : Char) : Bool :=
  c == '\n' || c == '\r'

/-- Each carriage return stands before a line feed. -/
def returnsPaired : List Char → Bool
  | [] => true
  | '\r' :: '\n' :: cs => returnsPaired cs
  | '\r' :: _ => false
  | _ :: cs => returnsPaired cs

/-- How many characters stand before the closing quote. Behind double quotes a backslash takes the
next character with it. -/
def lengthOfBody? (quote : Char) : List Char → Option Nat
  | [] => none
  | '\\' :: c :: cs =>
    if quote = '"' then (lengthOfBody? quote cs).map (· + 2)
    else if c = quote then some 1
    else (lengthOfBody? quote cs).map (· + 2)
  | c :: cs => if c = quote then some 0 else (lengthOfBody? quote cs).map (· + 1)

def lengthOfLines? (quote : Char) : List Char → Option Nat
  | [] => none
  | '\\' :: cs =>
    if quote = '"' then
      match cs with
      | [] => none
      | _ :: cs => (lengthOfLines? quote cs).map (· + 2)
    else (lengthOfLines? quote cs).map (· + 1)
  | c :: cs =>
    if c = quote && cs.take 2 = [quote, quote] then
      -- up to two quotes may stand before the closing ones
      some (((cs.drop 2).take 2).takeWhile (· == quote)).length
    else (lengthOfLines? quote cs).map (· + 1)

def escaped? : Char → Option Char
  | 'b' => some '\x08'
  | 't' => some '\t'
  | 'n' => some '\n'
  | 'f' => some '\x0c'
  | 'r' => some '\r'
  | 'e' => some '\x1b'
  | '"' => some '"'
  | '\\' => some '\\'
  | _ => none

def charOfHex? (digits : List Char) : Option Char :=
  (hexValue? digits).bind fun n => if n.isValidChar then some (Char.ofNat n) else none

def isBlank (c : Char) : Bool :=
  c == ' ' || c == '\t'

/-- The characters that a backslash at the end of a line takes away. -/
def isGap (c : Char) : Bool :=
  isBlank c || isLineEnd c

/-- What stands behind a line end and the blanks and line ends that follow it; only blanks may
stand before it. -/
def afterFold? (cs : List Char) : Option (List Char) :=
  match cs.dropWhile isBlank with
  | c :: rest => if isLineEnd c then some (rest.dropWhile isGap) else none
  | [] => none

theorem length_of_afterFold? {cs rest : List Char} (h : afterFold? cs = some rest) :
    rest.length < cs.length := by
  unfold afterFold? at h
  have hle := (List.dropWhile_suffix isBlank : cs.dropWhile isBlank <:+ cs).length_le
  split at h
  · rename_i c tail heq
    rw [heq, List.length_cons] at hle
    split at h
    · simp only [Option.some.injEq] at h
      have hgap := (List.dropWhile_suffix isGap : tail.dropWhile isGap <:+ tail).length_le
      rw [h] at hgap
      omega
    · simp at h
  · simp at h

/-- The characters that stand between double quotes. In strings of several lines a backslash at the
end of a line joins the lines. -/
def unescape? (lines : Bool) (cs : List Char) : Option (List Char) :=
  match cs with
  | [] => some []
  | '\\' :: 'x' :: a :: b :: rest => do
    let c ← charOfHex? [a, b]
    (unescape? lines rest).map (c :: ·)
  | '\\' :: 'u' :: a :: b :: c :: d :: rest => do
    let c ← charOfHex? [a, b, c, d]
    (unescape? lines rest).map (c :: ·)
  | '\\' :: 'U' :: a :: b :: c :: d :: e :: f :: g :: h :: rest => do
    let c ← charOfHex? [a, b, c, d, e, f, g, h]
    (unescape? lines rest).map (c :: ·)
  | '\\' :: rest =>
    match rest with
    | [] => none
    | c :: tail =>
      match escaped? c with
      | some e => (unescape? lines tail).map (e :: ·)
      | none =>
        if lines then
          match h : afterFold? (c :: tail) with
          | some after =>
            have := length_of_afterFold? h
            unescape? lines after
          | none => none
        else none
  | c :: rest =>
    if isPlain c || (lines && isLineEnd c) then (unescape? lines rest).map (c :: ·) else none
termination_by cs.length
decreasing_by all_goals simp only [List.length_cons] at *; omega

def content? (quote : Char) (lines : Bool) (body : List Char) : Option String :=
  let kept := fun c => isPlain c || (lines && isLineEnd c)
  if !returnsPaired body then none
  else if quote = '"' then (unescape? lines body).map String.ofList
  else if body.all kept then some (String.ofList body)
  else none

def dropLineEnd : List Char → List Char
  | '\n' :: cs => cs
  | '\r' :: '\n' :: cs => cs
  | cs => cs

def ofChars? (quote : Char) (cs : List Char) : Option Quoted :=
  if cs.take 2 = [quote, quote] then do
    let rest := cs.drop 2
    let n ← lengthOfLines? quote rest
    let text ← content? quote true (dropLineEnd (rest.take n))
    some ⟨text, true, n + 5⟩
  else do
    let n ← lengthOfBody? quote cs
    let text ← content? quote false (cs.take n)
    some ⟨text, false, n + 1⟩

end Quoted

end HostBindings.Toml
