import HostBindings.Proofs.Layout.Lines
import Mathlib.Data.List.Chain

/-!
Solid lines and the separators between them. Marks of solid lines are settled into lines of which no
two in a row are separators, and such lines, once the end is trimmed, make a tidy text. Marks that
begin and end in a line are settled alike behind any text.
-/

namespace HostBindings.Layout

/-- A text with no blank line at its beginning or its end, and no two of them in a row. -/
structure Tidy (text : String) : Prop where
  start : text.toList.head? ≠ some '\n'
  single : ¬ ['\n', '\n', '\n'] <:+: text.toList
  /-- What is not empty ends in one line feed. -/
  stop : text = "" ∨ ∃ front c, c ≠ '\n' ∧ text.toList = front ++ [c, '\n']

def Solid (line : String) : Prop :=
  line ≠ "" ∧ '\n' ∉ line.toList

instance (line : String) : Decidable (Solid line) :=
  inferInstanceAs (Decidable (_ ∧ _))

/-! ### Solid lines -/

def SolidMarks (ms : List Mark) : Prop :=
  ∀ es text, .line es text ∈ ms → Solid text

theorem solidMarks_append {x y : List Mark} :
    SolidMarks (x ++ y) ↔ SolidMarks x ∧ SolidMarks y := by
  refine ⟨fun h => ⟨fun es text ht => h es text (List.mem_append_left _ ht),
    fun es text ht => h es text (List.mem_append_right _ ht)⟩, fun h es text ht => ?_⟩
  exact (List.mem_append.mp ht).elim (h.1 es text) (h.2 es text)

theorem solidMarks_cons_line {es : List Enclosure} {text : String} {ms : List Mark} :
    SolidMarks (.line es text :: ms) ↔ Solid text ∧ SolidMarks ms := by
  simp only [SolidMarks, List.mem_cons, Mark.line.injEq]
  exact ⟨fun h => ⟨h es text (.inl ⟨rfl, rfl⟩), fun es' text' ht => h es' text' (.inr ht)⟩,
    fun h es' text' ht => ht.elim (fun heq => heq.2 ▸ h.1) (h.2 es' text')⟩

theorem solidMarks_cons_blank {ms : List Mark} :
    SolidMarks (.blank :: ms) ↔ SolidMarks ms := by
  simp [SolidMarks]

theorem dropLineFeeds_of_notMem {s : String} (h : '\n' ∉ s.toList) : dropLineFeeds s = s := by
  have hdrop : s.toList.reverse.dropWhile (· == '\n') = s.toList.reverse := by
    rw [List.dropWhile_eq_self_iff]
    intro hpos hfeed
    exact h (List.mem_reverse.mp (eq_of_beq hfeed ▸ List.getElem_mem hpos))
  rw [dropLineFeeds, hdrop, List.reverse_reverse, String.ofList_toList]

theorem not_solid_empty : ¬ Solid "" :=
  fun h => h.1 rfl

theorem ending_of_solid {l : Line} (h : Solid l.text) (e : Ending) : l.ending e = .line := by
  have hblank : l.isBlank = false := by simp [Line.isBlank, h.1]
  have hlast : l.text.toList.getLast? ≠ some '\n' := fun hlast => h.2 (List.mem_of_getLast? hlast)
  unfold Line.ending
  rw [hblank, if_neg Bool.false_ne_true, if_neg hlast]

/-- What solid marks show are solid lines and separators. -/
theorem Presents.lines {ms : List Mark} {ls : List Line} (h : Presents ms ls)
    (hms : SolidMarks ms) : ∀ l ∈ ls, l = .separator ∨ Solid l.text := by
  induction h with
  | nil => exact fun _ hl => absurd hl List.not_mem_nil
  | line es text _ ih =>
    rw [solidMarks_cons_line] at hms
    exact List.forall_mem_cons.mpr ⟨.inr hms.1, ih hms.2⟩
  | granted _ ih =>
    exact List.forall_mem_cons.mpr ⟨.inl rfl, ih (solidMarks_cons_blank.mp hms)⟩
  | refused _ ih => exact ih (solidMarks_cons_blank.mp hms)

theorem visible_of_solid {l : Line} (h : l = .separator ∨ Solid l.text) (width : Nat) :
    l.Visible width := by
  intro htext hdepth
  rcases h with rfl | h
  · exact absurd rfl hdepth
  · rw [dropLineFeeds_of_notMem h.2] at htext
    exact absurd htext h.1

theorem visible_settleFrom {ms : List Mark} (hms : SolidMarks ms) (width : Nat) :
    ∀ l ∈ settleFrom .empty ms, l.Visible width :=
  fun l hl => visible_of_solid ((presents_settleFrom .empty ms).lines hms l hl) width

/-- A solid line ends in its only line feed. -/
theorem exists_body {l : Line} (h : Solid l.text) (width : Nat) :
    ∃ body, body ≠ [] ∧ '\n' ∉ body ∧ (l.render width).toList = body ++ ['\n'] := by
  refine ⟨List.replicate (width * l.depth) ' ' ++ l.text.toList, ?_, ?_, Line.toList_render width l⟩
  · exact List.append_ne_nil_of_right_ne_nil _ (String.toList_eq_nil_iff.not.mpr h.1)
  · exact List.not_mem_append (fun hmem => absurd (List.eq_of_mem_replicate hmem) (by decide)) h.2

/-! ### Parted lines -/

def Alternate (k l : Line) : Prop :=
  Solid k.text ∨ Solid l.text

theorem not_alternate_separator : ¬ Alternate .separator .separator :=
  fun h => h.elim not_solid_empty not_solid_empty

/-- Solid lines and separators, of which no two follow each other and none comes first or last. -/
structure Parted (ls : List Line) : Prop where
  lines : ∀ l ∈ ls, l = .separator ∨ Solid l.text
  /-- Not even with further separators on both sides do two follow each other. -/
  alternate : (.separator :: (ls ++ [.separator])).IsChain Alternate

/-- A list without this element is an infix on one side of it only. -/
theorem infix_or_infix {α : Type} {p a b : List α} {c : α} (hc : c ∉ p) (h : p <:+: a ++ c :: b) :
    p <:+: a ∨ p <:+: b := by
  have hnil : ∀ {q : List α}, q <+: c :: b → c ∉ q → q = [] := by
    intro q hq hcq
    rcases List.prefix_cons_iff.mp hq with rfl | ⟨q, rfl, -⟩
    · rfl
    · exact absurd List.mem_cons_self hcq
  rcases List.infix_append_iff_ne_nil.mp h with h | h | ⟨q, r, -, hr, rfl, -, hrb⟩
  · exact .inl h
  · rcases List.infix_cons_iff.mp h with h | h
    · rw [hnil h hc]
      exact .inl List.nil_infix
    · exact .inr h
  · exact absurd (hnil hrb fun hcr => hc (List.mem_append_right _ hcr)) hr

theorem infix_or_infix_around {α : Type} {p a body b : List α} (hne : body ≠ [])
    (hbody : ∀ c ∈ body, c ∉ p) (h : p <:+: a ++ (body ++ b)) : p <:+: a ∨ p <:+: b := by
  induction body generalizing a with
  | nil => exact absurd rfl hne
  | cons c body ih =>
    rw [List.forall_mem_cons] at hbody
    rcases infix_or_infix hbody.1 h with h | h
    · exact .inl h
    · cases body with
      | nil => exact .inr h
      | cons d body =>
        rcases ih (a := []) (List.cons_ne_nil _ _) hbody.2 h with h | h
        · exact .inl (List.eq_nil_of_infix_nil h ▸ List.nil_infix)
        · exact .inr h

/-- A separator is settled behind a solid line only. -/
theorem isChain_settleFrom {ms : List Mark} (hms : SolidMarks ms) {e : Ending} {l : Line}
    (hl : e = .line → Solid l.text) : (l :: settleFrom e ms).IsChain Alternate := by
  induction ms generalizing e l with
  | nil => exact .singleton l
  | cons m ms ih =>
    cases m with
    | line es text =>
      rw [solidMarks_cons_line] at hms
      rw [settleFrom, List.isChain_cons_cons, ending_of_solid hms.1]
      exact ⟨.inr hms.1, ih hms.2 fun _ => hms.1⟩
    | blank =>
      rw [solidMarks_cons_blank] at hms
      cases e with
      | empty => exact ih hms hl
      | line =>
        rw [settleFrom, List.isChain_cons_cons]
        exact ⟨.inl (hl rfl), ih hms Ending.noConfusion⟩
      | blankLine => exact ih hms hl

namespace Parted

variable {ls : List Line} {width : Nat}

theorem exists_head (h : Parted ls) : ∃ l rest, ls = l :: rest ∧ Solid l.text := by
  cases ls with
  | nil => exact absurd (List.isChain_cons_cons.mp h.alternate).1 not_alternate_separator
  | cons l rest =>
    have hl := (List.isChain_cons_cons.mp h.alternate).1
    exact ⟨l, rest, rfl, hl.resolve_left not_solid_empty⟩

theorem exists_last (h : Parted ls) : ∃ front l, ls = front ++ [l] ∧ Solid l.text := by
  rcases ls.eq_nil_or_concat' with rfl | ⟨front, l, rfl⟩
  · exact absurd (List.isChain_cons_cons.mp h.alternate).1 not_alternate_separator
  · have halternate := h.alternate
    rw [List.append_assoc] at halternate
    have hl := (List.isChain_cons_append_cons_cons.mp halternate).2.1
    exact ⟨front, l, rfl, hl.resolve_right not_solid_empty⟩

/-- Lines behind at most two line feeds, or one if a solid line ends in it, have no three line feeds
in a row. -/
theorem not_infix_renderAll {l : Line} (hlines : ∀ l ∈ ls, l = .separator ∨ Solid l.text)
    (halternate : (l :: ls).IsChain Alternate) {k : Nat} (hk : k ≤ 2) (hl : Solid l.text → k ≤ 1) :
    ¬ ['\n', '\n', '\n'] <:+: List.replicate k '\n' ++ (Line.renderAll width ls).toList := by
  have hfeeds : ∀ {k : Nat}, k ≤ 2 → ¬ ['\n', '\n', '\n'] <:+: List.replicate k '\n' := by
    intro k hk h
    have hlength := h.length_le
    rw [List.length_replicate] at hlength
    exact absurd (hlength.trans hk) (by decide)
  induction ls generalizing l k with
  | nil =>
    rw [Line.renderAll_nil, String.toList_empty, List.append_nil]
    exact hfeeds hk
  | cons m ls ih =>
    rw [List.forall_mem_cons] at hlines
    rw [List.isChain_cons_cons] at halternate
    rw [Line.renderAll_cons, String.toList_append]
    rcases hlines.1 with rfl | hm
    · -- the separator follows a solid line
      have hk1 : k ≤ 1 := hl (halternate.1.resolve_right not_solid_empty)
      have hrest := ih hlines.2 halternate.2 (Nat.succ_le_succ hk1)
        (fun h => absurd h not_solid_empty)
      rw [List.replicate_succ', List.append_assoc] at hrest
      rwa [Line.render_separator]
    · obtain ⟨body, hne, hbody, hrender⟩ := exists_body hm width
      rw [hrender, List.append_assoc]
      intro h
      have hdisjoint : ∀ c ∈ body, c ∉ ['\n', '\n', '\n'] := by
        intro c hc hfeed
        simp only [List.mem_cons, List.not_mem_nil, or_false, or_self] at hfeed
        exact hbody (hfeed ▸ hc)
      rcases infix_or_infix_around hne hdisjoint h with h | h
      · exact hfeeds hk h
      · exact ih hlines.2 halternate.2 (by decide : 1 ≤ 2) (fun _ => le_refl 1) h

theorem tidy (h : Parted ls) (width : Nat) : Tidy (Line.renderAll width ls) where
  start := by
    obtain ⟨l, rest, rfl, hl⟩ := h.exists_head
    obtain ⟨body, hne, hbody, hrender⟩ := exists_body hl width
    rw [Line.renderAll_cons, String.toList_append, hrender, List.append_assoc,
      List.head?_append_of_ne_nil _ hne]
    exact fun hhead => hbody (List.mem_of_head? hhead)
  single := by
    have halternate := h.alternate
    rw [← List.cons_append] at halternate
    exact not_infix_renderAll h.lines halternate.left_of_append (Nat.zero_le 2)
      (fun h => absurd h not_solid_empty)
  stop := by
    obtain ⟨front, l, rfl, hl⟩ := h.exists_last
    obtain ⟨body, hne, hbody, hrender⟩ := exists_body hl width
    obtain ⟨start, c, rfl⟩ := body.eq_nil_or_concat'.resolve_left hne
    refine .inr ⟨(Line.renderAll width front).toList ++ start, c, ?_, ?_⟩
    · exact fun hc => hbody (hc ▸ List.mem_concat_self)
    · rw [Line.renderAll_append, String.toList_append, Line.renderAll_singleton, hrender]
      simp only [List.append_assoc, List.cons_append, List.nil_append]

theorem renderAll_ne_empty (h : Parted ls) (width : Nat) : Line.renderAll width ls ≠ "" := by
  obtain ⟨l, rest, rfl, hl⟩ := h.exists_head
  obtain ⟨body, hne, -, hrender⟩ := exists_body hl width
  intro hempty
  have hchars := congrArg String.toList hempty
  rw [Line.renderAll_cons, String.toList_append, hrender] at hchars
  simp at hchars

end Parted

/-! ### The end of a text -/

theorem trimEnd_concat_of_solid {front : List Line} {l : Line} (h : Solid l.text) :
    trimEnd (front ++ [l]) = front ++ [l] := by
  have hblank : l.isBlank = false := by simp [Line.isBlank, h.1]
  rw [trimEnd, List.reverse_concat, trimReversed, dropLineFeeds_of_notMem h.2, hblank,
    Bool.false_and, if_neg Bool.false_ne_true, List.reverse_cons, List.reverse_reverse]

theorem trimEnd_concat_separator {front : List Line} (h : front ≠ []) :
    trimEnd (front ++ [.separator]) = trimEnd front := by
  have hempty : front.reverse.isEmpty = false := by simpa using h
  rw [trimEnd, List.reverse_concat, trimReversed, hempty]
  rfl

/-- What is left of settled lines at the end is parted, if anything is. -/
theorem parted_trimEnd {ms : List Mark} (hms : SolidMarks ms) :
    trimEnd (settleFrom .empty ms) = [] ∨ Parted (trimEnd (settleFrom .empty ms)) := by
  have hlines := (presents_settleFrom .empty ms).lines hms
  have hchain : (Line.separator :: settleFrom .empty ms).IsChain Alternate :=
    isChain_settleFrom hms Ending.noConfusion
  rcases (settleFrom .empty ms).eq_nil_or_concat' with hls | ⟨front, l, hls⟩
  · rw [hls]
    exact .inl rfl
  · rw [hls] at hlines hchain ⊢
    rcases hlines l List.mem_concat_self with rfl | hl
    · -- the separator is dropped, and what stands before it is not one
      have hfront : Parted front := ⟨fun k hk => hlines k (List.mem_append_left _ hk), hchain⟩
      obtain ⟨front', l', hlast, hl'⟩ := hfront.exists_last
      rw [trimEnd_concat_separator (by simp [hlast]), hlast, trimEnd_concat_of_solid hl', ← hlast]
      exact .inr hfront
    · rw [trimEnd_concat_of_solid hl]
      refine .inr ⟨hlines, ?_⟩
      rw [List.append_assoc]
      exact List.isChain_cons_append_cons_cons.mpr ⟨hchain, .inl hl, .singleton _⟩

/-! ### Framed marks -/

inductive Framed : List Mark → Prop where
  | line (es : List Enclosure) (text : String) : Framed [.line es text]
  | around {x z : List Mark} (hx : Framed x) (y : List Mark) (hz : Framed z) : Framed (x ++ y ++ z)

/-- Where marks show the same lines behind every text, they do so behind other marks. -/
theorem settleFrom_append_of_forall {ms : List Mark} {ls : List Line}
    (h : ∀ e, settleFrom e ms = ls) (e : Ending) (before : List Mark) :
    settleFrom e (before ++ ms) = settleFrom e before ++ ls := by
  induction before generalizing e with
  | nil => exact h e
  | cons m before ih =>
    cases m with
    | line es text => rw [List.cons_append, settleFrom, settleFrom, ih, List.cons_append]
    | blank =>
      cases e with
      | empty => exact ih .empty
      | line => exact congrArg _ (ih .blankLine)
      | blankLine => exact ih .blankLine

namespace Framed

variable {x z : List Mark}

theorem append (hx : Framed x) (hz : Framed z) : Framed (x ++ z) := by
  have h := hx.around [] hz
  rwa [List.append_nil] at h

/-- Framed marks show the same lines behind every text, and then the text ends in a line. -/
theorem settleFrom_append (h : Framed x) (hx : SolidMarks x) (e : Ending) (after : List Mark) :
    settleFrom e (x ++ after) = settleFrom .empty x ++ settleFrom .line after := by
  induction h generalizing e after with
  | line es text =>
    rw [solidMarks_cons_line] at hx
    show _ :: settleFrom _ after = _ :: settleFrom .line after
    rw [ending_of_solid hx.1]
  | @around x z _ y _ ihx ihz =>
    rw [solidMarks_append, solidMarks_append] at hx
    -- a framed list starts and ends with a line, so what is around it does not change it
    have hsettle : ∀ e after, settleFrom e (x ++ y ++ z ++ after) = settleFrom .empty x ++
        (settleFrom .line y ++ (settleFrom .empty z ++ settleFrom .line after)) := by
      intro e after
      rw [List.append_assoc, List.append_assoc, ihx hx.1.1, settleFrom_append_of_forall fun e =>
        ihz hx.2 e after]
    have hself := hsettle .empty []
    rw [List.append_nil] at hself
    rw [hsettle, hself]
    simp [settleFrom]

theorem settleFrom_eq (h : Framed x) (hx : SolidMarks x) (e : Ending) :
    settleFrom e x = settleFrom .empty x := by
  have hsettle := h.settleFrom_append hx e []
  rwa [List.append_nil, settleFrom, List.append_nil] at hsettle

theorem parted (h : Framed x) (hx : SolidMarks x) : Parted (settleFrom .empty x) where
  lines := (presents_settleFrom .empty x).lines hx
  alternate := by
    have hblank := h.settleFrom_append hx .empty [.blank]
    rw [show settleFrom .line [.blank] = [.separator] from rfl] at hblank
    rw [← hblank]
    exact isChain_settleFrom (solidMarks_append.mpr ⟨hx, by simp [SolidMarks]⟩) Ending.noConfusion

end Framed

end HostBindings.Layout
