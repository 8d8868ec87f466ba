import HostBindings.Spelling.Token

/-!
Types as native code spells them: a path with type arguments.

    type      := "&" lifetime? "mut"? type | "dyn" type ("+" type)* | path arguments?
    path      := word ("::" word)*
    arguments := "<" type ("," type)* ","? ">"

A reference stands for the type it refers to, and a `dyn` type for its first bound. The word `dyn`
at the start of a type is always the keyword, and so is `mut` in its place.
-/

namespace HostBindings.Spelling

structure Expr where
  path : List String
  args : List Expr
  deriving Repr, Inhabited

def Expr.baseName (e : Expr) : String :=
  e.path.getLast?.getD ""

def Expr.isGeneric (e : Expr) : Bool :=
  !e.args.isEmpty

/-- What was read from some tokens, and the tokens left over, fewer than before. -/
structure Parsed (α : Type) (tokens : List Token) where
  value : α
  rest : List Token
  shorter : rest.length < tokens.length

def skipLifetime : List Token → List Token
  | .lifetime :: rest => rest
  | tokens => tokens

def skipMut : List Token → List Token
  | .word "mut" :: rest => rest
  | tokens => tokens

theorem length_skipLifetime_le (tokens : List Token) :
    (skipLifetime tokens).length ≤ tokens.length := by
  unfold skipLifetime
  split <;> simp

theorem length_skipMut_le (tokens : List Token) : (skipMut tokens).length ≤ tokens.length := by
  unfold skipMut
  split <;> simp

def wordFault : List Token → Fault
  | [] => .endOfType
  | t :: _ => .notWord t

def parsePath : List Token → Except Fault (List String × List Token)
  | .separator :: .word w :: rest =>
    match parsePath rest with
    | .ok (path, after) => .ok (w :: path, after)
    | .error f => .error f
  | .separator :: rest => .error (wordFault rest)
  | tokens => .ok ([], tokens)

theorem length_of_parsePath {tokens after : List Token} {path : List String}
    (h : parsePath tokens = .ok (path, after)) : after.length ≤ tokens.length := by
  fun_induction parsePath tokens generalizing path after with
  | case1 w rest words r hr ih =>
    simp only [Except.ok.injEq, Prod.mk.injEq] at h
    have := ih hr
    simp only [List.length_cons, ← h.2]
    omega
  | case2 => simp at h
  | case3 => simp at h
  | case4 tokens =>
    simp only [Except.ok.injEq, Prod.mk.injEq] at h
    simp [← h.2]

mutual

def parseType (tokens : List Token) : Except Fault (Parsed Expr tokens) :=
  match tokens with
  | .ampersand :: rest =>
    have := length_skipLifetime_le rest
    have := length_skipMut_le (skipLifetime rest)
    match parseType (skipMut (skipLifetime rest)) with
    | .error f => .error f
    | .ok t => .ok ⟨t.value, t.rest, by have := t.shorter; simp only [List.length_cons]; omega⟩
  | .word w :: rest =>
    -- a `dyn` type stands for its first bound
    if w = "dyn" then
      match parseType rest with
      | .error f => .error f
      | .ok first =>
        have := first.shorter
        match parseBounds first.rest with
        | .error f => .error f
        | .ok after => .ok ⟨first.value, after.1, by
            have := after.2; simp only [List.length_cons]; omega⟩
    else
      match h : parsePath rest with
      | .error f => .error f
      | .ok (path, after) =>
        have := length_of_parsePath h
        match after with
        | .less :: inner =>
          match parseArgs inner with
          | .error f => .error f
          | .ok args =>
            if args.value.isEmpty then .error .noArguments
            else .ok ⟨⟨w :: path, args.value⟩, args.rest, by
              have := args.shorter; simp only [List.length_cons] at *; omega⟩
        | after => .ok ⟨⟨w :: path, []⟩, after, by simp only [List.length_cons]; omega⟩
  | tokens => .error (wordFault tokens)
termination_by 2 * tokens.length
decreasing_by all_goals simp only [List.length_cons] at *; omega

/-- Reads the further bounds of a `dyn` type and drops them. -/
def parseBounds (tokens : List Token) :
    Except Fault { after : List Token // after.length ≤ tokens.length } :=
  match tokens with
  | .plus :: rest =>
    match parseType rest with
    | .error f => .error f
    | .ok bound =>
      have := bound.shorter
      match parseBounds bound.rest with
      | .error f => .error f
      | .ok after => .ok ⟨after.1, by have := after.2; simp only [List.length_cons]; omega⟩
  | tokens => .ok ⟨tokens, Nat.le_refl _⟩
termination_by 2 * tokens.length
decreasing_by all_goals simp only [List.length_cons] at *; omega

def parseArgs (tokens : List Token) : Except Fault (Parsed (List Expr) tokens) :=
  match tokens with
  | [] => .error .endOfType
  -- an argument may be missing before the bracket, so a comma may stand there
  | .greater :: rest => .ok ⟨[], rest, by simp⟩
  | t :: ts =>
    match parseType (t :: ts) with
    | .error f => .error f
    | .ok ⟨first, .comma :: rest, shorter⟩ =>
      match parseArgs rest with
      | .error f => .error f
      | .ok args => .ok ⟨first :: args.value, args.rest, by
          have := args.shorter; simp only [List.length_cons] at *; omega⟩
    | .ok ⟨first, .greater :: rest, shorter⟩ => .ok ⟨[first], rest, by
        simp only [List.length_cons] at *; omega⟩
    | .ok _ => .error .unclosedArguments
-- `parseArgs` reads a type off all of its tokens, so it weighs more than `parseType`
termination_by 2 * tokens.length + 1
decreasing_by all_goals simp only [List.length_cons] at *; omega

end

def ofTokens (tokens : List Token) : Except Fault Expr :=
  if tokens.isEmpty then .error .empty
  else
    match parseType tokens with
    | .error f => .error f
    | .ok t => if t.rest.isEmpty then .ok t.value else .error .trailingTokens

def parse (spelling : String) : Except Fault Expr :=
  match scan spelling.toList with
  | .error f => .error f
  | .ok tokens => ofTokens tokens

end HostBindings.Spelling
