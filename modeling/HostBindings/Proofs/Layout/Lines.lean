import HostBindings.Layout.Output
import Mathlib.Data.List.Basic
import Mathlib.Data.List.Induction
import Mathlib.Data.List.TakeWhile

/-!
Laid out text as a list of lines. What a declaration shows is a list of marks: lines with all that
encloses them, and places for blank lines. Settling the marks decides which places get a blank line
and what is left at the end, and depends on no indentation: writing marks one by one writes just the
settled lines, each as deep as it is enclosed.
-/

namespace HostBindings.Layout

/-- What sets the lines in it one level deeper. -/
inductive Enclosure where
  | typeBody
  | parameters
  | funcBody
  | closure
  | block
  deriving DecidableEq, Repr

inductive Mark where
  /-- A line with what encloses it, outermost first. -/
  | line (enclosing : List Enclosure) (text : String)
  | blank
  deriving DecidableEq, Repr

structure Line where
  depth : Nat
  text : String
  deriving DecidableEq, Repr

def indentation (width level : Nat) : String :=
  String.ofList (List.replicate (width * level) ' ')

namespace Line

def separator : Line :=
  ⟨0, ""⟩

def isBlank (l : Line) : Bool :=
  l.depth == 0 && l.text == ""

def render (width : Nat) (l : Line) : String :=
  indentation width l.depth ++ l.text ++ "\n"

def renderAll (width : Nat) (ls : List Line) : String :=
  String.join (ls.map (render width))

end Line

/-! ### Settling -/

inductive Ending where
  /-- There is no text. -/
  | empty
  | line
  | blankLine
  deriving DecidableEq, Repr

def Line.ending (l : Line) (before : Ending) : Ending :=
  if l.isBlank then
    match before with
    | .empty => .line
    | _ => .blankLine
  else if l.text.toList.getLast? = some '\n' then .blankLine
  else .line

/-- The lines of marks behind a text with this ending. -/
def settleFrom (ending : Ending) : List Mark → List Line
  | [] => []
  | .line enclosing text :: ms =>
    ⟨enclosing.length, text⟩ :: settleFrom (Line.ending ⟨enclosing.length, text⟩ ending) ms
  | .blank :: ms =>
    match ending with
    | .line => .separator :: settleFrom .blankLine ms
    | _ => settleFrom ending ms

def dropLineFeeds (s : String) : String :=
  String.ofList (s.toList.reverse.dropWhile (· == '\n')).reverse

/-- A line whose indentation is all that it shows needs a width. -/
def Line.Visible (width : Nat) (l : Line) : Prop :=
  dropLineFeeds l.text = "" → l.depth ≠ 0 → 1 ≤ width

def trimReversed : List Line → List Line
  | [] => []
  | l :: ls =>
    let l := { l with text := dropLineFeeds l.text }
    if l.isBlank && !ls.isEmpty then trimReversed ls else l :: ls

/-- Lines without what would end the text in a blank line. -/
def trimEnd (ls : List Line) : List Line :=
  (trimReversed ls.reverse).reverse

/-- Lines that show marks: a line is as deep as it is enclosed, and the place for a blank line gets
a separator or nothing. -/
inductive Presents : List Mark → List Line → Prop where
  | nil : Presents [] []
  | line {ms : List Mark} {ls : List Line} (enclosing : List Enclosure) (text : String)
      (h : Presents ms ls) : Presents (.line enclosing text :: ms) (⟨enclosing.length, text⟩ :: ls)
  | granted {ms : List Mark} {ls : List Line} (h : Presents ms ls) :
      Presents (.blank :: ms) (.separator :: ls)
  | refused {ms : List Mark} {ls : List Line} (h : Presents ms ls) : Presents (.blank :: ms) ls

theorem presents_settleFrom (e : Ending) (ms : List Mark) : Presents ms (settleFrom e ms) := by
  induction ms generalizing e with
  | nil => exact .nil
  | cons m ms ih =>
    cases m with
    | line enclosing text => exact .line enclosing text (ih _)
    | blank =>
      cases e with
      | empty => exact .refused (ih _)
      | line => exact .granted (ih _)
      | blankLine => exact .refused (ih _)

/-! ### Characters -/

theorem indentation_add (width a b : Nat) :
    indentation width a ++ indentation width b = indentation width (a + b) := by
  unfold indentation
  rw [← String.ofList_append, List.replicate_append_replicate, Nat.mul_add]

namespace Line

theorem toList_render (width : Nat) (l : Line) :
    (l.render width).toList =
      List.replicate (width * l.depth) ' ' ++ l.text.toList ++ ['\n'] := by
  simp [render, indentation]

theorem renderAll_cons (width : Nat) (l : Line) (ls : List Line) :
    renderAll width (l :: ls) = l.render width ++ renderAll width ls := by
  rw [renderAll, List.map_cons, String.join_cons, renderAll]

theorem renderAll_nil (width : Nat) : renderAll width [] = "" :=
  rfl

theorem renderAll_singleton (width : Nat) (l : Line) : renderAll width [l] = l.render width := by
  rw [renderAll_cons, renderAll_nil, String.append_empty]

theorem renderAll_append (width : Nat) (a b : List Line) :
    renderAll width (a ++ b) = renderAll width a ++ renderAll width b := by
  induction a with
  | nil => exact String.empty_append.symm
  | cons l a ih =>
    rw [List.cons_append, renderAll_cons, ih, renderAll_cons, String.append_assoc]

theorem render_separator (width : Nat) : separator.render width = "\n" := by
  simp [separator, render, indentation]

end Line

/-! ### Endings -/

/-- The ending that the characters of a text have. Every text that is laid out is empty or ends in a
line feed. -/
def Ending.Of (text : List Char) : Ending → Prop
  | .empty => text = []
  | .line => text = ['\n'] ∨ ∃ front c, c ≠ '\n' ∧ text = front ++ [c, '\n']
  | .blankLine => ∃ front, text = front ++ ['\n', '\n']

theorem Ending.not_blankLine_of_line {text : List Char} (h : Ending.line.Of text) :
    ¬ Ending.blankLine.Of text := by
  rintro ⟨front', hfront⟩
  rcases h with rfl | ⟨front, c, hc, rfl⟩
  · exact absurd (congrArg List.length hfront) (by simp)
  · exact hc (List.cons.inj (List.append_inj' hfront rfl).2).1

/-- A line feed behind a text without a blank line at its end makes one. -/
theorem Ending.Of.blank {text : List Char} (h : Ending.line.Of text) :
    Ending.blankLine.Of (text ++ ['\n']) := by
  rcases h with rfl | ⟨front, c, _, rfl⟩
  · exact ⟨[], rfl⟩
  · exact ⟨front ++ [c], by simp⟩

theorem Line.visible_of_pos {width : Nat} (hwidth : 1 ≤ width) (l : Line) : l.Visible width :=
  fun _ _ => hwidth

theorem Line.exists_last {l : Line} {width : Nat} (hvisible : l.text = "" → l.depth ≠ 0 → 1 ≤ width)
    (h : l.isBlank = false) (e : Ending) :
    ∃ front c, List.replicate (width * l.depth) ' ' ++ l.text.toList = front ++ [c] ∧
      l.ending e = if c = '\n' then .blankLine else .line := by
  unfold Line.ending
  rw [h, if_neg Bool.false_ne_true]
  rcases l.text.toList.eq_nil_or_concat' with hnil | ⟨front, c, hconcat⟩
  · -- without text there is indentation, which ends in a blank
    have htext : l.text = "" := String.toList_eq_nil_iff.mp hnil
    have hdepth : l.depth ≠ 0 := by
      intro hzero
      rw [Line.isBlank, hzero, htext] at h
      exact absurd h (by decide)
    obtain ⟨n, hn⟩ := Nat.exists_eq_succ_of_ne_zero
      (Nat.mul_ne_zero (Nat.ne_of_gt (hvisible htext hdepth)) hdepth)
    refine ⟨List.replicate n ' ', ' ', ?_, ?_⟩
    · rw [hnil, hn, List.replicate_succ', List.append_nil]
    · rw [hnil, List.getLast?_nil]
      rfl
  · refine ⟨List.replicate (width * l.depth) ' ' ++ front, c, ?_, ?_⟩
    · rw [hconcat, List.append_assoc]
    · simp only [hconcat, List.getLast?_concat, Option.some.injEq]

theorem Ending.Of.line {text : List Char} {e : Ending} {width : Nat} {l : Line} (h : e.Of text)
    (hvisible : l.Visible width) : (l.ending e).Of (text ++ (l.render width).toList) := by
  rw [Line.toList_render]
  cases hl : l.isBlank with
  | true =>
    obtain ⟨depth, content⟩ := l
    obtain ⟨rfl, rfl⟩ : depth = 0 ∧ content = "" := by simpa [Line.isBlank] using hl
    -- nothing but a line feed
    show (Line.ending .separator e).Of (text ++ ['\n'])
    cases e with
    | empty =>
      obtain rfl : text = [] := h
      exact Or.inl rfl
    | line => exact h.blank
    | blankLine =>
      obtain ⟨front, rfl⟩ := h
      exact ⟨front ++ ['\n'], by simp⟩
  | false =>
    obtain ⟨front, c, hbody, hending⟩ :=
      Line.exists_last (fun htext => hvisible (by rw [htext]; rfl)) hl e
    rw [hbody, hending]
    by_cases hc : c = '\n'
    · rw [if_pos hc, hc]
      exact ⟨text ++ front, by simp⟩
    · rw [if_neg hc]
      exact Or.inr ⟨text ++ front, c, hc, by simp⟩

/-! ### Writing marks -/

def Mark.write (width : Nat) (text : String) : Mark → String
  | .line enclosing content => text ++ Line.render width ⟨enclosing.length, content⟩
  | .blank => if text.isEmpty || text.endsWith "\n\n" then text else text ++ "\n"

theorem endsWith_blankLine {text : String} :
    text.endsWith "\n\n" = true ↔ Ending.blankLine.Of text.toList := by
  rw [String.endsWith_eq_endsWith_toSlice, String.Slice.endsWith_string_iff, String.copy_toSlice]
  exact ⟨fun ⟨front, h⟩ => ⟨front, h.symm⟩, fun ⟨front, h⟩ => ⟨front, h.symm⟩⟩

/-- A wish for a blank line is granted behind a line only. -/
theorem Mark.write_blank {width : Nat} {text : String} {e : Ending} (h : e.Of text.toList) :
    Mark.write width text .blank = if e = .line then text ++ "\n" else text := by
  rw [Mark.write]
  cases e with
  | empty =>
    obtain rfl : text = "" := String.toList_eq_nil_iff.mp h
    rfl
  | line =>
    have hempty : text.isEmpty = false := by
      rw [Bool.eq_false_iff, ne_eq, String.isEmpty_iff]
      rintro rfl
      rcases h with h | ⟨front, c, _, h⟩
      · exact absurd h (by simp)
      · exact absurd h (by simp)
    have hblank : text.endsWith "\n\n" = false := by
      rw [Bool.eq_false_iff, ne_eq, endsWith_blankLine]
      exact Ending.not_blankLine_of_line h
    rw [hempty, hblank]
    rfl
  | blankLine =>
    rw [endsWith_blankLine.mpr h, Bool.or_true]
    rfl

theorem foldl_write {width : Nat} {ms : List Mark} {text : String} {e : Ending}
    (hvisible : ∀ l ∈ settleFrom e ms, l.Visible width) (h : e.Of text.toList) :
    ms.foldl (Mark.write width) text = text ++ Line.renderAll width (settleFrom e ms) := by
  induction ms generalizing text e with
  | nil => exact String.append_empty.symm
  | cons m ms ih =>
    cases m with
    | line enclosing content =>
      rw [settleFrom, List.forall_mem_cons] at hvisible
      have hline := h.line hvisible.1
      rw [← String.toList_append] at hline
      rw [List.foldl_cons, Mark.write, ih hvisible.2 hline, settleFrom, Line.renderAll_cons,
        String.append_assoc]
    | blank =>
      rw [List.foldl_cons, Mark.write_blank h]
      -- a blank line is written behind a line of text only
      cases e with
      | empty => exact ih hvisible h
      | line =>
        rw [settleFrom, List.forall_mem_cons] at hvisible
        have hblank := h.blank
        rw [if_pos rfl, ih (e := .blankLine) hvisible.2 (by simpa using hblank), settleFrom,
          Line.renderAll_cons, Line.render_separator, String.append_assoc]
      | blankLine => exact ih hvisible h

theorem foldl_write_empty {width : Nat} {ms : List Mark}
    (hvisible : ∀ l ∈ settleFrom .empty ms, l.Visible width) :
    ms.foldl (Mark.write width) "" = Line.renderAll width (settleFrom .empty ms) := by
  rw [foldl_write hvisible (show Ending.empty.Of "".toList from rfl), String.empty_append]

/-! ### The end of a text -/

def reversedChars (width : Nat) : List Line → List Char
  | [] => []
  | l :: ls =>
    '\n' :: l.text.toList.reverse ++ List.replicate (width * l.depth) ' ' ++ reversedChars width ls

theorem reverse_renderAll (width : Nat) (ls : List Line) :
    (Line.renderAll width ls).toList.reverse = reversedChars width ls.reverse := by
  induction ls using List.reverseRecOn with
  | nil => rfl
  | append_singleton ls l ih =>
    rw [Line.renderAll_append, String.toList_append, List.reverse_append, ih, List.reverse_concat]
    simp [Line.renderAll, Line.toList_render, reversedChars]

theorem dropBlankLines_lineFeeds (k : Nat) (cs : List Char) :
    Output.dropBlankLines ('\n' :: (List.replicate k '\n' ++ cs)) =
      Output.dropBlankLines ('\n' :: cs) := by
  induction k with
  | zero => rfl
  | succ k ih =>
    rw [List.replicate_succ, List.cons_append, Output.dropBlankLines]
    exact ih

theorem dropBlankLines_of_ne {cs : List Char} (h : cs.head? ≠ some '\n') :
    Output.dropBlankLines ('\n' :: cs) = '\n' :: cs := by
  rw [Output.dropBlankLines, if_neg (by simpa using h)]

theorem reverse_dropLineFeeds (s : String) :
    ∃ k, s.toList.reverse = List.replicate k '\n' ++ (dropLineFeeds s).toList.reverse ∧
      (dropLineFeeds s).toList.reverse.head? ≠ some '\n' := by
  refine ⟨(s.toList.reverse.takeWhile (· == '\n')).length, ?_, ?_⟩
  · have hfeeds : s.toList.reverse.takeWhile (· == '\n') =
        List.replicate (s.toList.reverse.takeWhile (· == '\n')).length '\n' :=
      List.eq_replicate_of_mem fun c hc => by simpa using List.mem_takeWhile_imp hc
    rw [← hfeeds, dropLineFeeds, String.toList_ofList, List.reverse_reverse,
      List.takeWhile_append_dropWhile]
  · rw [dropLineFeeds, String.toList_ofList, List.reverse_reverse]
    intro h
    have hc := List.head?_dropWhile_not (· == '\n') s.toList.reverse
    rw [h] at hc
    exact absurd hc (by decide)

/-- Blank lines at the end are dropped line by line. -/
theorem dropBlankLines_reversedChars {width : Nat} {ls : List Line}
    (hvisible : ∀ l ∈ ls, l.Visible width) :
    Output.dropBlankLines (reversedChars width ls) = reversedChars width (trimReversed ls) := by
  induction ls with
  | nil => rfl
  | cons l ls ih =>
    rw [List.forall_mem_cons] at hvisible
    obtain ⟨k, htext, hhead⟩ := reverse_dropLineFeeds l.text
    rw [reversedChars, htext, List.cons_append, List.cons_append, List.append_assoc,
      List.append_assoc, dropBlankLines_lineFeeds, trimReversed]
    cases hblank : Line.isBlank { l with text := dropLineFeeds l.text } with
    | true =>
      obtain ⟨hdepth, hnil⟩ : l.depth = 0 ∧ dropLineFeeds l.text = "" := by
        simpa [Line.isBlank] using hblank
      rw [hnil, hdepth, Nat.mul_zero]
      cases ls with
      | nil => simp [reversedChars, Output.dropBlankLines]
      | cons l' ls =>
        show Output.dropBlankLines ('\n' :: reversedChars width (l' :: ls)) =
          reversedChars width (trimReversed (l' :: ls))
        -- the line before ends in a line feed of its own
        rw [← ih hvisible.2]
        rfl
    | false =>
      -- what stands before the line feed is the text or indentation
      obtain ⟨front, c, hbody, _⟩ :=
        Line.exists_last (l := { l with text := dropLineFeeds l.text }) hvisible.1 hblank .empty
      have hrev : (dropLineFeeds l.text).toList.reverse ++ List.replicate (width * l.depth) ' ' =
          c :: front.reverse := by
        have h := congrArg List.reverse hbody
        rwa [List.reverse_append, List.reverse_replicate, List.reverse_concat] at h
      have hc : c ≠ '\n' := by
        rintro rfl
        cases htail : (dropLineFeeds l.text).toList.reverse with
        | nil =>
          rw [htail, List.nil_append] at hrev
          have hmem : '\n' ∈ List.replicate (width * l.depth) ' ' := hrev ▸ List.mem_cons_self
          exact absurd (List.eq_of_mem_replicate hmem) (by decide)
        | cons d ds =>
          rw [htail, List.cons_append, List.cons.injEq] at hrev
          rw [htail, hrev.1] at hhead
          exact hhead rfl
      rw [← List.append_assoc, hrev, List.cons_append, dropBlankLines_of_ne (by simpa using hc),
        Bool.false_and, if_neg Bool.false_ne_true, reversedChars, List.cons_append, hrev]
      rfl

theorem finish_renderAll {width : Nat} {ls : List Line} (hvisible : ∀ l ∈ ls, l.Visible width)
    (o : Output) (h : o.text = Line.renderAll width ls) :
    o.finish = Line.renderAll width (trimEnd ls) := by
  rw [Output.finish, h, reverse_renderAll,
    dropBlankLines_reversedChars fun l hl => hvisible l (List.mem_reverse.mp hl),
    ← String.toList_inj, String.toList_ofList, List.reverse_eq_iff, reverse_renderAll, trimEnd,
    List.reverse_reverse]

/-! ### Leading blanks -/

/-- Characters without the blanks at the beginning of each line; `atStart` says whether the first
character begins a line. -/
def unindentFrom (atStart : Bool) : List Char → List Char
  | [] => []
  | c :: cs =>
    if atStart && c == ' ' then unindentFrom true cs else c :: unindentFrom (c == '\n') cs

def unindent (text : String) : String :=
  String.ofList (unindentFrom true text.toList)

theorem unindentFrom_blanks (k : Nat) (cs : List Char) :
    unindentFrom true (List.replicate k ' ' ++ cs) = unindentFrom true cs := by
  induction k with
  | zero => rfl
  | succ k ih => exact ih

theorem unindentFrom_lineFeed (atStart : Bool) (cs rest : List Char) :
    unindentFrom atStart (cs ++ '\n' :: rest) =
      unindentFrom atStart (cs ++ ['\n']) ++ unindentFrom true rest := by
  induction cs generalizing atStart with
  | nil => cases atStart <;> rfl
  | cons c cs ih =>
    rw [List.cons_append, List.cons_append, unindentFrom, unindentFrom]
    split
    · exact ih true
    · rw [ih, List.cons_append]

theorem unindentFrom_renderAll (width : Nat) (ls : List Line) :
    unindentFrom true (Line.renderAll width ls).toList =
      ls.flatMap fun l => unindentFrom true (l.text.toList ++ ['\n']) := by
  induction ls with
  | nil => rfl
  | cons l ls ih =>
    rw [Line.renderAll_cons, String.toList_append, Line.toList_render, List.append_assoc,
      List.append_assoc, unindentFrom_blanks, List.singleton_append, unindentFrom_lineFeed, ih,
      List.flatMap_cons]

/-- Without leading blanks, lines have the same text for every width. -/
theorem unindent_renderAll (width width' : Nat) (ls : List Line) :
    unindent (Line.renderAll width ls) = unindent (Line.renderAll width' ls) := by
  rw [unindent, unindent, unindentFrom_renderAll, unindentFrom_renderAll]

end HostBindings.Layout
