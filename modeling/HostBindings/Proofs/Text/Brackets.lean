import HostBindings.Text.Lines
import Mathlib.Data.List.Basic

/-!
Brackets of texts. A text is balanced if, read from left to right, each closing bracket meets the
bracket that was opened last, and none stays open. Only the brackets of a text matter for this, and
a balanced part of a text does not matter at all.
-/

namespace HostBindings.Text

/-! ### Reading brackets -/

def closer? : Char → Option Char
  | '(' => some ')'
  | '[' => some ']'
  | '\x7b' => some '\x7d'
  | _ => none

def isCloser (c : Char) : Bool :=
  c == ')' || c == ']' || c == '\x7d'

def isBracket (c : Char) : Bool :=
  (closer? c).isSome || isCloser c

def close (c : Char) : List Char → Option (List Char)
  | [] => none
  | d :: missing => if c = d then some missing else none

/-- Reads a character where these closing brackets are missing, the one for the innermost level
first. -/
def readChar (missing : List Char) (c : Char) : Option (List Char) :=
  match closer? c with
  | some d => some (d :: missing)
  | none => if isCloser c then close c missing else some missing

def readChars (missing : List Char) : List Char → Option (List Char)
  | [] => some missing
  | c :: cs => (readChar missing c).bind fun missing => readChars missing cs

/-- Every bracket is closed, and in the order in which brackets are opened. -/
def Balanced (cs : List Char) : Prop :=
  readChars [] cs = some []

instance : DecidablePred Balanced :=
  fun _ => inferInstanceAs (Decidable (_ = _))

theorem readChars_append (missing a b : List Char) :
    readChars missing (a ++ b) = (readChars missing a).bind fun missing => readChars missing b := by
  induction a generalizing missing with
  | nil => rfl
  | cons c a ih =>
    rw [List.cons_append, readChars, readChars, Option.bind_assoc]
    exact Option.bind_congr fun missing _ => ih missing

theorem close_frame {missing rest : List Char} {c : Char} (outer : List Char)
    (h : close c missing = some rest) : close c (missing ++ outer) = some (rest ++ outer) := by
  cases missing with
  | nil => cases h
  | cons d missing =>
    rw [close] at h
    split at h
    · rename_i heq
      rw [List.cons_append, close, if_pos heq, Option.some.inj h]
    · cases h

/-- What is missing at the start of a text may stay missing. -/
theorem readChar_frame {missing rest : List Char} {c : Char} (outer : List Char)
    (h : readChar missing c = some rest) :
    readChar (missing ++ outer) c = some (rest ++ outer) := by
  unfold readChar at h ⊢
  cases hcloser : closer? c with
  | some d =>
    rw [hcloser] at h
    rw [← Option.some.inj h]
    rfl
  | none =>
    rw [hcloser] at h
    cases hclosing : isCloser c with
    | true =>
      rw [hclosing] at h
      exact close_frame outer h
    | false =>
      rw [hclosing] at h
      rw [← Option.some.inj h]
      rfl

theorem readChars_frame {missing rest cs : List Char} (outer : List Char)
    (h : readChars missing cs = some rest) :
    readChars (missing ++ outer) cs = some (rest ++ outer) := by
  induction cs generalizing missing with
  | nil =>
    rw [readChars, Option.some.injEq] at h
    rw [readChars, h]
  | cons c cs ih =>
    obtain ⟨next, hc, hcs⟩ := Option.bind_eq_some_iff.mp h
    rw [readChars, readChar_frame outer hc, Option.bind_some]
    exact ih hcs

namespace Balanced

theorem nil : Balanced [] :=
  rfl

theorem append {a b : List Char} (ha : Balanced a) (hb : Balanced b) : Balanced (a ++ b) := by
  rw [Balanced, readChars_append, ha]
  exact hb

theorem flatMap {α : Type} {as : List α} {f : α → List Char} (h : ∀ a ∈ as, Balanced (f a)) :
    Balanced (as.flatMap f) := by
  induction as with
  | nil => exact nil
  | cons a as ih =>
    rw [List.forall_mem_cons] at h
    exact h.1.append (ih h.2)

/-- A balanced text leaves what is missing as it is. -/
theorem readChars {cs : List Char} (h : Balanced cs) (missing : List Char) :
    Text.readChars missing cs = some missing :=
  readChars_frame missing h

/-- Whether a balanced text stands in another text does not matter. -/
theorem insert {inner : List Char} (h : Balanced inner) (front rest : List Char) :
    Balanced (front ++ inner ++ rest) ↔ Balanced (front ++ rest) := by
  have hsame : Text.readChars [] (front ++ inner ++ rest) = Text.readChars [] (front ++ rest) := by
    rw [readChars_append, readChars_append, readChars_append, Option.bind_assoc]
    refine Option.bind_congr fun missing _ => ?_
    rw [h.readChars, Option.bind_some]
  rw [Balanced, Balanced, hsame]

example : Balanced "f(g[0])".toList ∧ ¬ Balanced "f(g[0)]".toList := by
  decide

end Balanced

/-! ### The brackets of a text -/

/-- Other characters change nothing. -/
theorem readChars_filter (missing cs : List Char) :
    readChars missing (cs.filter isBracket) = readChars missing cs := by
  induction cs generalizing missing with
  | nil => rfl
  | cons c cs ih =>
    cases hc : isBracket c with
    | true =>
      rw [List.filter_cons_of_pos hc, readChars, readChars]
      exact Option.bind_congr fun missing _ => ih missing
    | false =>
      obtain ⟨hopener, hcloser⟩ : closer? c = none ∧ isCloser c = false := by
        simpa [isBracket] using hc
      -- what is no bracket leaves the open ones as they are
      have hskip : readChar missing c = some missing := by
        unfold readChar
        rw [hopener, hcloser]
        rfl
      rw [List.filter_cons_of_neg (by simp [hc]), readChars, hskip, ih]
      rfl

theorem balanced_filter {cs : List Char} : Balanced (cs.filter isBracket) ↔ Balanced cs := by
  rw [Balanced, Balanced, readChars_filter]

def brackets (text : String) : List Char :=
  text.toList.filter isBracket

abbrev BracketFree (text : String) : Prop :=
  brackets text = []

theorem bracketFree_iff {text : String} :
    BracketFree text ↔ ∀ c ∈ text.toList, isBracket c = false := by
  simp [BracketFree, brackets, List.filter_eq_nil_iff]

theorem brackets_append (a b : String) : brackets (a ++ b) = brackets a ++ brackets b := by
  rw [brackets, String.toList_append, List.filter_append]
  rfl

theorem BracketFree.balanced {text : String} (h : BracketFree text) : Balanced (brackets text) := by
  rw [h]
  exact Balanced.nil

theorem BracketFree.append {a b : String} (ha : BracketFree a) (hb : BracketFree b) :
    BracketFree (a ++ b) := by
  rw [BracketFree, brackets_append, ha, hb, List.append_nil]

/-- A text of three parts is balanced if the middle one is and the others are without it. -/
theorem balanced_around {front inner rest : String} (hinner : Balanced (brackets inner))
    (h : Balanced (brackets (front ++ rest))) : Balanced (brackets (front ++ inner ++ rest)) := by
  rw [brackets_append] at h
  rw [brackets_append, brackets_append, hinner.insert]
  exact h

theorem balanced_append {a b : String} (ha : Balanced (brackets a)) (hb : Balanced (brackets b)) :
    Balanced (brackets (a ++ b)) := by
  rw [brackets_append]
  exact ha.append hb

theorem brackets_join (parts : List String) :
    brackets (String.join parts) = parts.flatMap brackets := by
  rw [brackets, String.toList_join, List.filter_flatMap]
  rfl

theorem flatMap_brackets_eq_nil {parts : List String} (h : ∀ part ∈ parts, BracketFree part) :
    parts.flatMap brackets = [] :=
  List.flatMap_eq_nil_iff.mpr h

theorem filter_linesOfChars (cs : List Char) :
    (linesOfChars cs).flatMap (·.filter isBracket) = cs.filter isBracket := by
  -- line breaks have no brackets, and every other character stays in its line
  induction cs using linesOfChars.induct with
  | case1 => rfl
  | case2 cs ih =>
    rw [linesOfChars, List.flatMap_cons, ih]
    rfl
  | case3 cs ih =>
    rw [linesOfChars, List.flatMap_cons, ih]
    rfl
  | case4 c cs hfeed hreturn hnil ih =>
    rw [hnil] at ih
    rw [linesOfChars, hnil, List.filter_cons, ← ih]
    · simp only [List.flatMap_cons, List.flatMap_nil, List.append_nil, List.filter_cons,
        List.filter_nil]
    · exact hfeed
    · exact hreturn
  | case5 c cs hfeed hreturn line rest hlines ih =>
    rw [hlines] at ih
    rw [linesOfChars, hlines, List.filter_cons, ← ih]
    · simp only [List.flatMap_cons, List.filter_cons]
      split <;> rfl
    · exact hfeed
    · exact hreturn

theorem brackets_lines (text : String) : (lines text).flatMap brackets = brackets text := by
  rw [lines, List.flatMap_map, brackets, ← filter_linesOfChars]
  simp only [brackets, String.toList_ofList]

end HostBindings.Text
