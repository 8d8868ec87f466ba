import HostBindings.Text.Alphanumeric
import HostBindings.Text.Blank

/-!
Tokens of native type spellings such as `&'a mut Vec<demo::Item>`, and why a spelling may fail to
be a type.
-/

namespace HostBindings.Spelling

open HostBindings.Text

inductive Token where
  /-- A run of letters, digits and underscores. -/
  | word (w : String)
  /-- A quote with the letters, digits and underscores behind it. -/
  | lifetime
  | less
  | greater
  | comma
  /-- Two colons. -/
  | separator
  | ampersand
  | plus
  deriving DecidableEq, Repr

def Token.label : Token → String
  -- messages name the token that stands where a word should, so never a word
  | .word w => "Ident(\"" ++ w ++ "\")"
  | .lifetime => "Lifetime"
  | .less => "Lt"
  | .greater => "Gt"
  | .comma => "Comma"
  | .separator => "PathSep"
  | .ampersand => "Amp"
  | .plus => "Plus"

/-- Why a spelling is no type, or not the type that was asked for. -/
inductive Fault where
  | loneColon
  | strayCharacter (c : Char)
  | empty
  | notWord (found : Token)
  | endOfType
  | unclosedArguments
  | noArguments
  | trailingTokens
  | notVector
  deriving DecidableEq, Repr

def Fault.message : Fault → String
  | .loneColon => "single `:`"
  | .strayCharacter c => "unexpected character `" ++ String.ofList [c] ++ "`"
  | .empty => "empty type"
  | .notWord found => "expected identifier, found " ++ found.label
  | .endOfType => "unexpected end of type"
  | .unclosedArguments => "unbalanced `<`"
  | .noArguments => "empty generic argument list"
  | .trailingTokens => "trailing tokens"
  | .notVector => "expected `Vec<T>`"

def Token.ofChar? : Char → Option Token
  | '<' => some .less
  | '>' => some .greater
  | ',' => some .comma
  | '&' => some .ampersand
  | '+' => some .plus
  | _ => none

def scan (cs : List Char) : Except Fault (List Token) :=
  match cs with
  | [] => .ok []
  | c :: rest =>
    if isBlank c then scan rest
    else
      match Token.ofChar? c with
      | some t => (scan rest).map (t :: ·)
      | none =>
        if c = ':' then
          match rest with
          | ':' :: rest => (scan rest).map (.separator :: ·)
          | _ => .error .loneColon
        -- the name of a lifetime is dropped
        else if c = '\'' then
          have := (List.dropWhile_suffix isWordChar : rest.dropWhile isWordChar <:+ rest).length_le
          (scan (rest.dropWhile isWordChar)).map (.lifetime :: ·)
        else if isWordChar c then
          have := (List.dropWhile_suffix isWordChar : rest.dropWhile isWordChar <:+ rest).length_le
          (scan (rest.dropWhile isWordChar)).map
            (.word (String.ofList (c :: rest.takeWhile isWordChar)) :: ·)
        else .error (.strayCharacter c)
termination_by cs.length
decreasing_by all_goals simp only [List.length_cons]; omega

end HostBindings.Spelling
