import HostBindings.Layout.File
import HostBindings.Proofs.Layout.Lines
import HostBindings.Proofs.Traversal

/-!
Depth in a file. What a declaration shows is defined over its tree: each line carries the enclosures
on the way to it. The events of a declaration lay out just that, because each level that they open
is closed by a closing of its own.
-/

namespace HostBindings.Layout

open HostBindings.Code

/-! ### Levels -/

namespace Output

theorem run_append (o : Output) (a b : List Event) : o.run (a ++ b) = (o.run a).run b :=
  List.foldl_append

theorem stack_blank (o : Output) : o.blank.stack = o.stack := by
  unfold blank
  split <;> rfl

theorem stack_push (o : Output) : o.push.stack = (o.current ++ o.unit) :: o.stack :=
  rfl

theorem stack_pop {o : Output} {level : String} {levels : List String}
    (h : o.stack = level :: levels) (hne : levels ≠ []) : o.pop.stack = levels := by
  have hlength : o.stack.length > 1 := by
    rw [h, List.length_cons]
    exact Nat.succ_lt_succ (List.length_pos_iff.mpr hne)
  rw [pop, if_pos hlength, h, List.tail_cons]

end Output

/-- Events that close each level they open, and no other. -/
inductive Nested : List Event → Prop where
  | nil : Nested []
  | line (text : String) : Nested [.line text]
  | blank : Nested [.blank]
  | append {a b : List Event} (ha : Nested a) (hb : Nested b) : Nested (a ++ b)
  | level {a : List Event} (ha : Nested a) : Nested ([.push] ++ a ++ [.pop])

theorem append_eq_append_cons {a b before after : List Event} {e : Event}
    (h : a ++ b = before ++ e :: after) :
    (∃ mid, a = before ++ e :: mid ∧ after = mid ++ b) ∨
      ∃ mid, b = mid ++ e :: after ∧ before = a ++ mid := by
  rcases List.append_eq_append_iff.mp h with ⟨mid, hbefore, hb⟩ | ⟨mid, ha, hcons⟩
  · exact Or.inr ⟨mid, hb, hbefore⟩
  · cases mid with
    | nil =>
      rw [List.append_nil] at ha
      exact Or.inr ⟨[], hcons.symm, by rw [List.append_nil, ha]⟩
    | cons e' mid =>
      obtain ⟨rfl, rfl⟩ : e = e' ∧ after = mid ++ b := by simpa using hcons
      exact Or.inl ⟨mid, ha, rfl⟩

namespace Nested

variable {events : List Event}

theorem stack_run (h : Nested events) (o : Output) (hne : o.stack ≠ []) :
    (o.run events).stack = o.stack := by
  induction h generalizing o with
  | nil => rfl
  | line text => rfl
  | blank => exact o.stack_blank
  | append ha hb iha ihb =>
    have ha := iha o hne
    rw [Output.run_append, ihb _ (ha ▸ hne), ha]
  | level ha ih =>
    rw [Output.run_append, Output.run_append]
    exact Output.stack_pop ((ih o.push (by simp [Output.stack_push])).trans o.stack_push) hne

/-- Each level that is opened is closed behind events that close their own levels. -/
theorem exists_pop (h : Nested events) {before rest : List Event}
    (hsplit : events = before ++ .push :: rest) :
    ∃ inner after, Nested inner ∧ rest = inner ++ .pop :: after := by
  induction h generalizing before rest with
  | nil => simp at hsplit
  | line text => simp [List.singleton_eq_append_iff] at hsplit
  | blank => simp [List.singleton_eq_append_iff] at hsplit
  | append ha hb iha ihb =>
    -- a push of the first part has its pop there too
    rcases append_eq_append_cons hsplit with ⟨mid, hmid, rfl⟩ | ⟨mid, hmid, _⟩
    · obtain ⟨inner, after, hinner, rfl⟩ := iha hmid
      exact ⟨inner, after ++ _, hinner, by rw [List.append_assoc, List.cons_append]⟩
    · exact ihb hmid
  | @level a ha ih =>
    cases before with
    | nil =>
      -- it is the push of this level
      obtain rfl : a ++ [.pop] = rest := by simpa using hsplit
      exact ⟨a, [], ha, rfl⟩
    | cons e before =>
      obtain ⟨rfl, htail⟩ : .push = e ∧ a ++ [.pop] = before ++ .push :: rest := by
        simpa using hsplit
      rcases append_eq_append_cons htail with ⟨mid, hmid, rfl⟩ | ⟨mid, hmid, _⟩
      · obtain ⟨inner, after, hinner, rfl⟩ := ih hmid
        exact ⟨inner, after ++ _, hinner, by rw [List.append_assoc, List.cons_append]⟩
      · simp [List.singleton_eq_append_iff] at hmid

/-- Each level that is closed was opened above those that were open at the start. -/
theorem lt_stack (h : Nested events) (o : Output) (hne : o.stack ≠ [])
    {before after : List Event} (hsplit : events = before ++ .pop :: after) :
    o.stack.length < (o.run before).stack.length := by
  -- a closing that is found in two events in a row is in one of them; in a level it is the one of
  -- the level or inside
  induction h generalizing o before after with
  | nil => simp at hsplit
  | line text => simp [List.singleton_eq_append_iff] at hsplit
  | blank => simp [List.singleton_eq_append_iff] at hsplit
  | append ha hb iha ihb =>
    rcases append_eq_append_cons hsplit with ⟨mid, hmid, _⟩ | ⟨mid, hmid, rfl⟩
    · exact iha o hne hmid
    · have hstack := ha.stack_run o hne
      rw [Output.run_append, ← hstack]
      exact ihb _ (hstack ▸ hne) hmid
  | @level a ha ih =>
    cases before with
    | nil => simp at hsplit
    | cons e before =>
      obtain ⟨rfl, htail⟩ : .push = e ∧ a ++ [.pop] = before ++ .pop :: after := by
        simpa using hsplit
      have hpush : o.push.stack ≠ [] := by simp [Output.stack_push]
      have hlength : o.push.stack.length = o.stack.length + 1 := rfl
      show o.stack.length < (o.push.run before).stack.length
      rcases append_eq_append_cons htail with ⟨mid, hmid, _⟩ | ⟨mid, hmid, rfl⟩
      · have hlt := ih o.push hpush hmid
        omega
      · obtain rfl : mid = [] := by
          cases mid with
          | nil => rfl
          | cons _ _ => simp at hmid
        rw [List.append_nil, ha.stack_run o.push hpush, hlength]
        exact Nat.lt_succ_self _

end Nested

/-- How events open and close levels behind what an output has taken. -/
structure Output.Levels (o : Output) (events : List Event) : Prop where
  /-- A level that is opened is closed by a closing of its own, which finds the levels that were
  open before. -/
  closed : ∀ before rest, events = before ++ .push :: rest →
    ∃ inner after, Nested inner ∧ rest = inner ++ .pop :: after ∧
      (o.run (before ++ ([.push] ++ inner ++ [.pop]))).stack = (o.run before).stack
  /-- No closing finds the outermost level only. -/
  closable : ∀ before after, events = before ++ .pop :: after →
    1 < (o.run before).stack.length

theorem Output.stack_run_ne_nil (events : List Event) {o : Output} (h : o.stack ≠ []) :
    (o.run events).stack ≠ [] := by
  induction events generalizing o with
  | nil => exact h
  | cons e events ih =>
    apply ih
    cases e with
    | line text => exact h
    | blank => exact o.stack_blank ▸ h
    | push => exact List.cons_ne_nil _ _
    | pop =>
      show o.pop.stack ≠ []
      unfold Output.pop
      -- a pop leaves the last level standing
      split
      · next hlength =>
        rw [← List.length_pos_iff, List.length_tail]
        exact Nat.sub_pos_of_lt hlength
      · exact h

theorem Nested.levels {events : List Event} (h : Nested events) {o : Output} (hne : o.stack ≠ []) :
    o.Levels events where
  closed := by
    intro before rest hsplit
    obtain ⟨inner, after, hinner, hrest⟩ := h.exists_pop hsplit
    refine ⟨inner, after, hinner, hrest, ?_⟩
    rw [Output.run_append]
    exact hinner.level.stack_run _ (Output.stack_run_ne_nil before hne)
  closable := fun _ _ hsplit =>
    Nat.lt_of_le_of_lt (List.length_pos_iff.mpr hne) (h.lt_stack o hne hsplit)

/-! ### Events that lay out marks -/

/-- Events that write these marks where these enclosures are open. -/
inductive Lays : List Enclosure → List Event → List Mark → Prop where
  | nil {es : List Enclosure} : Lays es [] []
  | line {es : List Enclosure} (text : String) : Lays es [.line text] [.line es text]
  | blank {es : List Enclosure} : Lays es [.blank] [.blank]
  | append {es : List Enclosure} {a b : List Event} {x y : List Mark} (ha : Lays es a x)
      (hb : Lays es b y) : Lays es (a ++ b) (x ++ y)
  | enclosed {es : List Enclosure} {a : List Event} {x : List Mark} (e : Enclosure)
      (ha : Lays (es ++ [e]) a x) : Lays es ([.push] ++ a ++ [.pop]) x

namespace Lays

variable {es : List Enclosure} {events : List Event} {marks : List Mark}

theorem nested (h : Lays es events marks) : Nested events := by
  induction h with
  | nil => exact .nil
  | line text => exact .line text
  | blank => exact .blank
  | append _ _ iha ihb => exact iha.append ihb
  | enclosed _ _ ih => exact ih.level

/-- An output that is as deep as there are enclosures writes the marks, and is then as deep. -/
theorem run {width : Nat} (h : Lays es events marks) (o : Output)
    (hunit : o.unit = indentation width 1) (hcurrent : o.current = indentation width es.length)
    (hne : o.stack ≠ []) :
    o.run events = { o with text := marks.foldl (Mark.write width) o.text } := by
  -- an enclosure is a level, so the output is as deep as there are enclosures at every event
  induction h generalizing o with
  | nil => rfl
  | line text =>
    show o.line text = _
    rw [Output.line, hcurrent, List.foldl_cons, List.foldl_nil, Mark.write, Line.render]
    simp only [String.append_assoc]
  | blank =>
    show o.blank = { o with text := Mark.write width o.text .blank }
    rw [Output.blank, Mark.write]
    split <;> rfl
  | append _ _ iha ihb =>
    rw [Output.run_append, iha o hunit hcurrent hne, List.foldl_append]
    exact ihb { o with text := _ } hunit hcurrent hne
  | @enclosed es a x e _ ih =>
    have hdeeper : o.push.current = indentation width (es ++ [e]).length := by
      show o.current ++ o.unit = _
      rw [hcurrent, hunit, indentation_add, List.length_append, List.length_singleton]
    rw [Output.run_append, Output.run_append]
    show (o.push.run _).pop = _
    rw [ih o.push hunit hdeeper (by simp [Output.stack_push]), Output.pop, if_pos]
    · rfl
    · exact Nat.succ_lt_succ (List.length_pos_iff.mpr hne)

end Lays

/-! ### What declarations show -/

mutual

def itemMarks (lang : Lang) (es : List Enclosure) : Item → List Mark
  | .line text => [.line es text]
  | .stmt s => [.line es (lang.stmtText s)]
  | .blank => [.blank]
  | .block header _ items =>
    [.line es (header ++ " \x7b")] ++ itemsMarks lang (es ++ [.block]) items ++ [.line es "\x7d"]

def itemsMarks (lang : Lang) (es : List Enclosure) : List Item → List Mark
  | [] => []
  | item :: items => itemMarks lang es item ++ itemsMarks lang es items

end

structure Shown where
  /-- Whether the member is a field on one line without documentation. -/
  isOneLine : Bool
  marks : List Mark

/-- What members show, with a place for a blank line between any two that do not take one line
each. -/
def separateMarks : List Shown → List Mark
  | [] => []
  | [p] => p.marks
  | p :: q :: ps =>
    p.marks ++ (if p.isOneLine && q.isOneLine then [] else [.blank]) ++ separateMarks (q :: ps)

def lineMarks (es : List Enclosure) (lines : List String) : List Mark :=
  lines.map (.line es)

def fieldShown (lang : Lang) (es : List Enclosure) (f : Field) : Shown where
  isOneLine := isOneLine f
  marks :=
    lineMarks es (lang.docLines f.docs) ++
      match f.initializer with
      | none => [.line es (lang.fieldText f)]
      | some (.expr e) => [.line es (lang.fieldText f ++ " = " ++ e)]
      | some (.closure params body) =>
        [.line es (lang.fieldText f ++ " = " ++ lang.closureOpen params)] ++
          itemsMarks lang (es ++ [.closure]) body.items ++ [.line es "\x7d"]

def funcShown (lang : Lang) (es : List Enclosure) (f : Func) : Shown where
  isOneLine := false
  marks :=
    lineMarks es (lang.docLines f.docs) ++ lineMarks es (lang.leadingLines f) ++
      match f.body with
      | none => [.line es (lang.signature f)]
      | some body =>
        [.line es (lang.signature f ++ " \x7b")] ++
          itemsMarks lang (es ++ [.funcBody]) body.items ++ [.line es "\x7d"]

/-- What the opening of a type shows; `brace` ends it. -/
def headMarks (lang : Lang) (es : List Enclosure) (h : TypeHead) (brace : String) : List Mark :=
  let header := lang.typeHeader h
  lineMarks es (lang.docLines h.docs) ++ lineMarks es (h.annotations.map lang.annotationText) ++
    if header.params.isEmpty then [.line es (header.lead ++ header.tail ++ brace)]
    else
      [.line es (header.lead ++ "(")] ++
        lineMarks (es ++ [.parameters]) (header.params.map (· ++ ",")) ++
        [.line es (")" ++ header.tail ++ brace)]

def impliedShown (lang : Lang) (es : List Enclosure) (h : TypeHead) : List Shown :=
  (lang.impliedFields h).map (fieldShown lang es) ++
    (lang.impliedConstructor? h).toList.map (funcShown lang es)

mutual

def memberShown (lang : Lang) (es : List Enclosure) : Member → Shown
  | .field f => fieldShown lang es f
  | .func f => funcShown lang es f
  | .type h members =>
    let inner := es ++ [.typeBody]
    let body := impliedShown lang inner h ++ membersShown lang inner members
    { isOneLine := false
      marks :=
        if body.isEmpty && lang.omitsBody h members then headMarks lang es h ""
        else headMarks lang es h " \x7b" ++ separateMarks body ++ [.line es "\x7d"] }

def membersShown (lang : Lang) (es : List Enclosure) : List Member → List Shown
  | [] => []
  | m :: ms => memberShown lang es m :: membersShown lang es ms

end

def paragraphMarks (lines : List String) : List Mark :=
  lineMarks [] lines ++ [.blank]

def frontMarks (lang : Lang) (f : SourceFile) : List Mark :=
  (f.header.elim [] fun header => paragraphMarks ((Text.lines header).map Lang.commentLine)) ++
    ((f.package.bind lang.packageLine?).elim [] fun line => paragraphMarks [line]) ++
    if f.allImports.isEmpty then [] else paragraphMarks (f.allImports.map Lang.importLine)

def fileMarks (lang : Lang) (f : SourceFile) : List Mark :=
  frontMarks lang f ++ separateMarks (membersShown lang [] f.members)

/-! ### Declarations lay out what they show -/

variable {lang : Lang} {es : List Enclosure}

theorem memberPieces_eq_map (ms : List Member) :
    memberPieces lang ms = ms.map (memberPiece lang) :=
  eq_map_of_cons rfl (fun _ _ => rfl) ms

theorem lays_lines (lines : List String) : Lays es (lines.map .line) (lineMarks es lines) := by
  induction lines with
  | nil => exact .nil
  | cons line lines ih => exact (Lays.line line).append ih

/-- Lines with a level between them. -/
theorem lays_block {a : List Event} {x : List Mark} (e : Enclosure) (opening closing : String)
    (ha : Lays (es ++ [e]) a x) :
    Lays es ([.line opening, .push] ++ a ++ [.pop, .line closing])
      ([.line es opening] ++ x ++ [.line es closing]) := by
  have h := ((Lays.line opening).append (ha.enclosed e)).append (Lays.line closing)
  simpa using h

mutual

theorem lays_item (lang : Lang) (es : List Enclosure) (item : Item) :
    Lays es (itemEvents lang item) (itemMarks lang es item) := by
  cases item with
  | line text => exact .line text
  | stmt s => exact .line (lang.stmtText s)
  | blank => exact .blank
  | block header imports items =>
    exact lays_block .block (header ++ " \x7b") "\x7d" (lays_items lang (es ++ [.block]) items)

theorem lays_items (lang : Lang) (es : List Enclosure) (items : List Item) :
    Lays es (itemsEvents lang items) (itemsMarks lang es items) := by
  cases items with
  | nil => exact .nil
  | cons item items => exact (lays_item lang es item).append (lays_items lang es items)

end

def Piece.Shows (es : List Enclosure) (p : Piece) (s : Shown) : Prop :=
  p.isOneLine = s.isOneLine ∧ Lays es p.events s.marks

theorem lays_separate {ps : List Piece} {ss : List Shown}
    (h : List.Forall₂ (Piece.Shows es) ps ss) : Lays es (separate ps) (separateMarks ss) := by
  induction h with
  | nil => exact .nil
  | @cons p s ps ss hp hps ih =>
    cases hps with
    | nil => exact hp.2
    | @cons q t ps ss hq hps =>
      have hgap : Lays es (if p.isOneLine && q.isOneLine then [] else [.blank])
          (if s.isOneLine && t.isOneLine then [] else [.blank]) := by
        rw [hp.1, hq.1]
        split
        · exact .nil
        · exact .blank
      exact (hp.2.append hgap).append ih

theorem shows_field (f : Field) : (fieldPiece lang f).Shows es (fieldShown lang es f) := by
  refine ⟨rfl, (lays_lines _).append ?_⟩
  cases f.initializer with
  | none => exact .line _
  | some i =>
    cases i with
    | expr e => exact .line _
    | closure params body =>
      exact lays_block .closure _ _ (lays_items lang (es ++ [.closure]) body.items)

theorem shows_func (f : Func) : (funcPiece lang f).Shows es (funcShown lang es f) := by
  refine ⟨rfl, ((lays_lines _).append (lays_lines _)).append ?_⟩
  cases f.body with
  | none => exact .line _
  | some body => exact lays_block .funcBody _ _ (lays_items lang (es ++ [.funcBody]) body.items)

theorem lays_head (h : TypeHead) (brace : String) :
    Lays es (headEvents lang h brace) (headMarks lang es h brace) := by
  refine ((lays_lines _).append ?_).append ?_
  · have hannotations : Lays es _ _ := lays_lines (h.annotations.map lang.annotationText)
    rw [List.map_map] at hannotations
    exact hannotations
  · split
    · exact .line _
    · have hparams : Lays (es ++ [.parameters]) _ _ :=
        lays_lines ((lang.typeHeader h).params.map (· ++ ","))
      rw [List.map_map] at hparams
      exact lays_block .parameters _ _ hparams

theorem forall₂_map_same {α β γ : Type} {r : β → γ → Prop} {f : α → β} {g : α → γ}
    (h : ∀ a, r (f a) (g a)) (as : List α) : List.Forall₂ r (as.map f) (as.map g) := by
  rw [List.forall₂_map_left_iff, List.forall₂_map_right_iff, List.forall₂_same]
  exact fun a _ => h a

theorem isEmpty_of_forall₂ {α β : Type} {r : α → β → Prop} {as : List α} {bs : List β}
    (h : List.Forall₂ r as bs) : as.isEmpty = bs.isEmpty := by
  cases h <;> rfl

theorem shows_implied (h : TypeHead) :
    List.Forall₂ (Piece.Shows es) (impliedPieces lang h) (impliedShown lang es h) :=
  List.rel_append (forall₂_map_same shows_field _) (forall₂_map_same shows_func _)

mutual

theorem shows_member (lang : Lang) (es : List Enclosure) (m : Member) :
    (memberPiece lang m).Shows es (memberShown lang es m) := by
  cases m with
  | field f => exact shows_field f
  | func f => exact shows_func f
  | type h members =>
    have hbody : List.Forall₂ (Piece.Shows (es ++ [.typeBody]))
        (impliedPieces lang h ++ memberPieces lang members)
        (impliedShown lang (es ++ [.typeBody]) h ++
          membersShown lang (es ++ [.typeBody]) members) :=
      List.rel_append (shows_implied h) (shows_members lang (es ++ [.typeBody]) members)
    refine ⟨rfl, ?_⟩
    simp only [memberPiece, memberShown, isEmpty_of_forall₂ hbody]
    split
    · exact lays_head h ""
    · have hhead : Lays es (headEvents lang h " \x7b") _ := lays_head h " \x7b"
      have hblock := (hhead.append ((lays_separate hbody).enclosed .typeBody)).append
        (Lays.line "\x7d")
      simpa using hblock

theorem shows_members (lang : Lang) (es : List Enclosure) (ms : List Member) :
    List.Forall₂ (Piece.Shows es) (memberPieces lang ms) (membersShown lang es ms) := by
  cases ms with
  | nil => exact .nil
  | cons m ms => exact .cons (shows_member lang es m) (shows_members lang es ms)

end

theorem lays_paragraph (lines : List String) : Lays [] (paragraph lines) (paragraphMarks lines) :=
  (lays_lines lines).append .blank

theorem lays_front (lang : Lang) (f : SourceFile) :
    Lays [] (frontEvents lang f) (frontMarks lang f) := by
  refine (Lays.append ?_ ?_).append ?_
  · cases f.header with
    | none => exact .nil
    | some header => exact lays_paragraph _
  · rw [packageEvents]
    cases f.package.bind lang.packageLine? with
    | none => exact .nil
    | some line => exact lays_paragraph _
  · rw [importEvents]
    split
    · exact .nil
    · exact lays_paragraph _

theorem lays_file (lang : Lang) (f : SourceFile) :
    Lays [] (fileEvents lang f) (fileMarks lang f) :=
  (lays_front lang f).append (lays_separate (shows_members lang [] f.members))

def upTo (lang : Lang) (f : SourceFile) (n : Nat) : List Event :=
  frontEvents lang f ++ separate ((memberPieces lang f.members).take n)

theorem separate_take (ps : List Piece) (n : Nat) : separate (ps.take n) <+: separate ps := by
  induction ps generalizing n with
  | nil => cases n <;> exact List.prefix_rfl
  | cons p ps ih =>
    cases n with
    | zero => exact List.nil_prefix
    | succ n =>
      cases ps with
      | nil => cases n <;> exact List.prefix_rfl
      | cons q ps =>
        cases n with
        | zero =>
          show p.events <+: _
          rw [separate, List.append_assoc]
          exact List.prefix_append _ _
        | succ n =>
          have htail := ih (n + 1)
          rw [List.take_succ_cons] at htail
          rw [List.take_succ_cons, List.take_succ_cons, separate, separate,
            List.prefix_append_right_inj]
          exact htail

theorem upTo_prefix (lang : Lang) (f : SourceFile) (n : Nat) :
    upTo lang f n <+: fileEvents lang f :=
  (List.prefix_append_right_inj _).mpr (separate_take _ n)

theorem nested_upTo (lang : Lang) (f : SourceFile) (n : Nat) : Nested (upTo lang f n) :=
  ((lays_front lang f).append
    (lays_separate (List.forall₂_take n (shows_members lang [] f.members)))).nested

/-! ### Whole files -/

theorem current_empty (width : Nat) : (Output.empty width).current = indentation width 0 := by
  rw [indentation, Nat.mul_zero]
  rfl

theorem unit_empty (width : Nat) : (Output.empty width).unit = indentation width 1 := by
  rw [indentation, Nat.mul_one]
  rfl

/-- A laid out file is the text of the settled lines that it shows. -/
theorem renderFile_eq_of_visible {width : Nat} {f : SourceFile}
    (hvisible : ∀ l ∈ settleFrom .empty (fileMarks lang f), l.Visible width)
    (h : f.unresolved? lang.isBuiltin = none) :
    renderFile lang width f =
      .ok (Line.renderAll width (trimEnd (settleFrom .empty (fileMarks lang f)))) := by
  have hrun := (lays_file lang f).run (Output.empty width) (unit_empty width) (current_empty width)
    (List.cons_ne_nil _ _)
  have htext : ((Output.empty width).run (fileEvents lang f)).text =
      Line.renderAll width (settleFrom .empty (fileMarks lang f)) := by
    rw [hrun]
    exact foldl_write_empty hvisible
  rw [renderFile, h]
  exact congrArg Except.ok (finish_renderAll hvisible _ htext)

theorem renderFile_eq {width : Nat} (hwidth : 1 ≤ width) {f : SourceFile}
    (h : f.unresolved? lang.isBuiltin = none) :
    renderFile lang width f =
      .ok (Line.renderAll width (trimEnd (settleFrom .empty (fileMarks lang f)))) :=
  renderFile_eq_of_visible (fun l _ => l.visible_of_pos hwidth) h

end HostBindings.Layout
