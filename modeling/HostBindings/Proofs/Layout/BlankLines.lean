import HostBindings.Proofs.Code.Uses
import HostBindings.Proofs.Layout.Imports
import HostBindings.Proofs.Layout.Parted

/-!
Blank lines in a laid out file. Where every line that is written is solid, the members of a file,
and those in the body of a type, follow each other with one blank line between any two, or with none
between two fields that take one line each. A member begins and ends in a line, and so it is written
alike behind any text: its text by itself is found in the file.
-/

namespace HostBindings.Layout

open HostBindings.Code

/-! ### Members by themselves -/

def lineTexts (events : List Event) : List String :=
  events.filterMap fun
    | .line text => some text
    | _ => none

/-- What events write at some depth where nothing has been written yet. -/
def textAt (width depth : Nat) (events : List Event) : String :=
  ((Output.empty width).run (List.replicate depth .push ++ events)).text

def memberText (lang : Lang) (width depth : Nat) (m : Member) : String :=
  textAt width depth (memberPiece lang m).events

/-- A field without documentation whose initializer, if it has one, is no closure. -/
def OnOneLine : Member → Prop
  | .field f => f.docs = [] ∧ ∀ params body, f.initializer ≠ some (.closure params body)
  | _ => False

theorem isOneLine_memberPiece (lang : Lang) {m : Member} :
    (memberPiece lang m).isOneLine = true ↔ OnOneLine m := by
  cases m with
  | field f =>
    show isOneLine f = true ↔ _
    rw [isOneLine, Bool.and_eq_true, List.isEmpty_iff, OnOneLine]
    rcases f.initializer with _ | _ | _ <;> simp
  | func f => exact iff_of_false Bool.false_ne_true id
  | type head members => exact iff_of_false Bool.false_ne_true id

instance (m : Member) : Decidable (OnOneLine m) :=
  decidable_of_iff _ (isOneLine_memberPiece .kotlin)

/-- What stands between two members: a blank line, unless each is a field on one line. -/
def gap (m n : Member) : String :=
  if OnOneLine m ∧ OnOneLine n then "" else "\n"

def spaced (lang : Lang) (width depth : Nat) : List Member → String
  | [] => ""
  | [m] => memberText lang width depth m
  | m :: n :: ms => memberText lang width depth m ++ gap m n ++ spaced lang width depth (n :: ms)

/-- All members of the file, or of the body of a type in it, with their depth. The properties of a
type come first in its body where the language declares them there. -/
inductive Siblings (lang : Lang) (f : SourceFile) : Nat → List Member → Prop where
  | file : Siblings lang f 0 f.members
  | body {depth : Nat} {ms : List Member} {head : TypeHead} {members : List Member}
      (h : Siblings lang f depth ms) (hm : .type head members ∈ ms) :
      Siblings lang f (depth + 1) (impliedMembers lang head ++ members)

/-! ### Lines that are handed out -/

theorem mem_lineTexts {events : List Event} {text : String} :
    text ∈ lineTexts events ↔ .line text ∈ events := by
  rw [lineTexts, List.mem_filterMap]
  refine ⟨?_, fun h => ⟨_, h, rfl⟩⟩
  rintro ⟨_ | _, he, htext⟩ <;> cases htext
  exact he

/-- Marks show no other lines than the events that lay them out. -/
theorem Lays.line_mem {es es' : List Enclosure} {events : List Event} {marks : List Mark}
    {text : String} (h : Lays es events marks) (htext : .line es' text ∈ marks) :
    .line text ∈ events := by
  induction h with
  | nil => exact absurd htext List.not_mem_nil
  | line content =>
    obtain ⟨-, rfl⟩ := Mark.line.inj (List.mem_singleton.mp htext)
    exact List.mem_singleton_self _
  | blank => exact absurd (List.mem_singleton.mp htext) Mark.noConfusion
  | append _ _ iha ihb =>
    exact List.mem_append.mpr ((List.mem_append.mp htext).imp iha ihb)
  | enclosed _ _ ih => exact List.mem_append_left _ (List.mem_append_right _ (ih htext))

theorem Lays.solidMarks {es : List Enclosure} {events : List Event} {marks : List Mark}
    (h : Lays es events marks) (hevents : ∀ line ∈ lineTexts events, Solid line) :
    SolidMarks marks :=
  fun _ _ ht => hevents _ (mem_lineTexts.mpr (h.line_mem ht))

/-! ### Members -/

section Members

variable {lang : Lang} {es : List Enclosure}

theorem Framed.behind_lines {x : List Mark} (hx : Framed x) (lines : List String) :
    Framed (lineMarks es lines ++ x) := by
  induction lines with
  | nil => exact hx
  | cons line lines ih => exact (Framed.line es line).append ih

theorem framed_field (f : Field) : Framed (fieldShown lang es f).marks := by
  refine Framed.behind_lines ?_ (lang.docLines f.docs)
  cases f.initializer with
  | none => exact .line es _
  | some i =>
    cases i with
    | expr e => exact .line es _
    | closure params body => exact (Framed.line es _).around _ (.line es "\x7d")

theorem framed_func (f : Func) : Framed (funcShown lang es f).marks := by
  rw [funcShown, List.append_assoc]
  refine Framed.behind_lines (Framed.behind_lines ?_ (lang.leadingLines f)) (lang.docLines f.docs)
  cases f.body with
  | none => exact .line es _
  | some body => exact (Framed.line es _).around _ (.line es "\x7d")

theorem framed_head (h : TypeHead) (brace : String) : Framed (headMarks lang es h brace) := by
  rw [headMarks, List.append_assoc]
  refine Framed.behind_lines (Framed.behind_lines ?_ _) (lang.docLines h.docs)
  split
  · exact .line es _
  · exact (Framed.line es _).around _ (.line es _)

theorem framed_member (m : Member) : Framed (memberShown lang es m).marks := by
  cases m with
  | field f => exact framed_field f
  | func f => exact framed_func f
  | type h members =>
    rw [memberShown]
    split
    · exact framed_head h ""
    · exact (framed_head h " \x7b").around _ (.line es "\x7d")

theorem framed_separate {ms : List Member} (hne : ms ≠ []) :
    Framed (separateMarks (membersShown lang es ms)) := by
  induction ms using spaced.induct with
  | case1 => exact absurd rfl hne
  | case2 m => exact framed_member m
  | case3 m n ms ih => exact (framed_member m).around _ (ih (List.cons_ne_nil n ms))

theorem membersShown_eq_map (ms : List Member) :
    membersShown lang es ms = ms.map (memberShown lang es) :=
  eq_map_of_cons rfl (fun _ _ => rfl) ms

theorem impliedShown_append (head : TypeHead) (members : List Member) :
    impliedShown lang es head ++ membersShown lang es members =
      membersShown lang es (impliedMembers lang head ++ members) := by
  simp only [membersShown_eq_map, impliedMembers, impliedShown, List.map_append, List.map_map]
  rfl

/-- What a type shows whose body has members. -/
theorem marks_type {head : TypeHead} {members : List Member}
    (hne : impliedMembers lang head ++ members ≠ []) :
    (memberShown lang es (.type head members)).marks =
      headMarks lang es head " \x7b" ++
        separateMarks (membersShown lang (es ++ [.typeBody])
          (impliedMembers lang head ++ members)) ++ [.line es "\x7d"] := by
  have hbody : (membersShown lang (es ++ [.typeBody])
      (impliedMembers lang head ++ members)).isEmpty = false := by
    rw [membersShown_eq_map, List.isEmpty_map]
    exact List.isEmpty_eq_false_iff.mpr hne
  simp only [memberShown, impliedShown_append, hbody, Bool.false_and, if_neg Bool.false_ne_true]

/-- An output behind the openings of levels. -/
theorem run_pushes (width depth : Nat) :
    ∃ o, (Output.empty width).run (List.replicate depth .push) = o ∧ o.text = "" ∧
      o.unit = indentation width 1 ∧ o.current = indentation width depth ∧ o.stack ≠ [] := by
  induction depth with
  | zero => exact ⟨_, rfl, rfl, unit_empty width, current_empty width, List.cons_ne_nil _ _⟩
  | succ depth ih =>
    obtain ⟨o, hrun, htext, hunit, hcurrent, -⟩ := ih
    refine ⟨o.push, ?_, htext, hunit, ?_, List.cons_ne_nil _ _⟩
    · rw [List.replicate_succ', Output.run_append, hrun]
      rfl
    · show o.current ++ o.unit = _
      rw [hcurrent, hunit, indentation_add]

/-- Events by themselves write the settled lines of what they show. -/
theorem textAt_eq {events : List Event} {marks : List Mark} (h : Lays es events marks)
    (hmarks : SolidMarks marks) (width : Nat) :
    textAt width es.length events = Line.renderAll width (settleFrom .empty marks) := by
  obtain ⟨o, hrun, htext, hunit, hcurrent, hne⟩ := run_pushes width es.length
  rw [textAt, Output.run_append, hrun, h.run o hunit hcurrent hne, htext]
  exact foldl_write_empty (visible_settleFrom hmarks width)

theorem memberText_eq {m : Member} (hm : SolidMarks (memberShown lang es m).marks) (width : Nat) :
    memberText lang width es.length m =
      Line.renderAll width (settleFrom .empty (memberShown lang es m).marks) :=
  textAt_eq (shows_member lang es m).2 hm width

theorem isOneLine_memberShown {m : Member} :
    (memberShown lang es m).isOneLine = true ↔ OnOneLine m := by
  rw [← (shows_member lang es m).1, isOneLine_memberPiece]

theorem renderAll_gap (width : Nat) (m n : Member) :
    Line.renderAll width (settleFrom .line
      (if (memberShown lang es m).isOneLine && (memberShown lang es n).isOneLine then []
        else [.blank])) = gap m n := by
  have hiff : ((memberShown lang es m).isOneLine && (memberShown lang es n).isOneLine) = true ↔
      OnOneLine m ∧ OnOneLine n := by
    rw [Bool.and_eq_true, isOneLine_memberShown, isOneLine_memberShown]
  unfold gap
  by_cases h : OnOneLine m ∧ OnOneLine n
  · rw [if_pos h, if_pos (hiff.mpr h)]
    rfl
  · rw [if_neg h, if_neg (mt hiff.mp h)]
    rfl

/-- Members that are separated have their own texts and the gaps between them. -/
theorem renderAll_separate {ms : List Member}
    (h : SolidMarks (separateMarks (membersShown lang es ms))) (width : Nat) :
    Line.renderAll width (settleFrom .empty (separateMarks (membersShown lang es ms))) =
      spaced lang width es.length ms := by
  induction ms using spaced.induct with
  | case1 => rfl
  | case2 m => exact (memberText_eq h width).symm
  | case3 m n ms ih =>
    rw [membersShown, membersShown, separateMarks, ← membersShown] at h ⊢
    rw [solidMarks_append, solidMarks_append] at h
    obtain ⟨⟨hm, -⟩, hrest⟩ := h
    have hframed : Framed (separateMarks (membersShown lang es (n :: ms))) :=
      framed_separate (List.cons_ne_nil n ms)
    rw [List.append_assoc, (framed_member m).settleFrom_append hm, Line.renderAll_append,
      settleFrom_append_of_forall (hframed.settleFrom_eq hrest), Line.renderAll_append,
      renderAll_gap, ih hrest, ← memberText_eq hm width, spaced, String.append_assoc]

/-- The text of a type whose body has members. -/
theorem memberText_type {head : TypeHead} {members : List Member}
    (hne : impliedMembers lang head ++ members ≠ [])
    (h : SolidMarks (memberShown lang es (.type head members)).marks) (width : Nat) :
    memberText lang width es.length (.type head members) =
      textAt width es.length (headEvents lang head " \x7b") ++
        spaced lang width (es.length + 1) (impliedMembers lang head ++ members) ++
        (indentation width es.length ++ "\x7d\n") := by
  have hmarks := h
  rw [marks_type hne, solidMarks_append, solidMarks_append] at hmarks
  obtain ⟨⟨hhead, hbody⟩, -⟩ := hmarks
  have hopening := textAt_eq (lays_head head " \x7b") hhead width
  have hspaced := renderAll_separate hbody width
  rw [List.length_append, List.length_singleton] at hspaced
  have hclosing : Line.renderAll width (settleFrom .line [.line es "\x7d"]) =
      indentation width es.length ++ "\x7d\n" := by
    rw [settleFrom, settleFrom, Line.renderAll_singleton, Line.render, String.append_assoc]
    rfl
  rw [memberText_eq h width, marks_type hne, List.append_assoc,
    (framed_head head " \x7b").settleFrom_append hhead,
    (framed_separate hne).settleFrom_append hbody, Line.renderAll_append, Line.renderAll_append,
    ← hopening, hspaced, hclosing, String.append_assoc]

theorem solidMarks_of_mem {m : Member} {ms : List Member} (hm : m ∈ ms)
    (h : SolidMarks (separateMarks (membersShown lang es ms))) :
    SolidMarks (memberShown lang es m).marks := by
  induction ms using spaced.induct with
  | case1 => exact absurd hm List.not_mem_nil
  | case2 n =>
    rw [List.mem_singleton.mp hm]
    exact h
  | case3 n k ms ih =>
    rw [membersShown, membersShown, separateMarks, ← membersShown, solidMarks_append,
      solidMarks_append] at h
    rcases List.mem_cons.mp hm with rfl | hm
    · exact h.1.1
    · exact ih hm h.2

theorem infix_spaced {width depth : Nat} {m : Member} {ms : List Member} (hm : m ∈ ms) :
    (memberText lang width depth m).toList <:+: (spaced lang width depth ms).toList := by
  induction ms using spaced.induct with
  | case1 => exact absurd hm List.not_mem_nil
  | case2 n =>
    rw [List.mem_singleton.mp hm]
    exact List.infix_rfl
  | case3 n k ms ih =>
    rw [spaced, String.toList_append, String.toList_append]
    rcases List.mem_cons.mp hm with rfl | hm
    · rw [List.append_assoc]
      exact List.infix_append_left
    · exact List.infix_append_of_infix_right (ih hm)

end Members

/-! ### Files -/

section Files

variable {lang : Lang} {width depth : Nat} {f : SourceFile} {text : String} {ms : List Member}

theorem Siblings.solidMarks (h : Siblings lang f depth ms) (hf : SolidMarks (fileMarks lang f)) :
    SolidMarks (separateMarks (membersShown lang (List.replicate depth .typeBody) ms)) := by
  induction h with
  | file => exact (solidMarks_append.mp hf).2
  | @body depth ms head members _ hm ih =>
    by_cases hne : impliedMembers lang head ++ members = []
    · rw [hne]
      exact fun _ _ ht => absurd ht List.not_mem_nil
    · have htype := solidMarks_of_mem hm ih
      rw [marks_type hne, solidMarks_append, solidMarks_append] at htype
      rw [List.replicate_succ']
      exact htype.1.2

theorem text_eq_lines (h : renderFile lang width f = .ok text)
    (hf : SolidMarks (fileMarks lang f)) :
    text = Line.renderAll width (trimEnd (settleFrom .empty (fileMarks lang f))) := by
  have hknown := exists_renderFile_eq_ok.mp ⟨text, h⟩
  exact Except.ok.inj
    (h.symm.trans (renderFile_eq_of_visible (visible_settleFrom hf width) hknown))

theorem tidy_text (h : renderFile lang width f = .ok text) (hf : SolidMarks (fileMarks lang f)) :
    Tidy text := by
  rw [text_eq_lines h hf]
  rcases parted_trimEnd hf with hnil | hparted
  · rw [hnil, Line.renderAll_nil]
    exact ⟨by decide, by decide, .inl rfl⟩
  · exact hparted.tidy width

/-- The text of a file with members is its front and then their texts. Its last line is the last
one of a member, and there is nothing to trim. -/
theorem text_eq_spaced (h : renderFile lang width f = .ok text)
    (hf : SolidMarks (fileMarks lang f)) (hne : f.members ≠ []) :
    text = textAt width 0 (frontEvents lang f) ++ spaced lang width 0 f.members := by
  obtain ⟨hfront, hmembers⟩ := solidMarks_append.mp hf
  have hframed : Framed (separateMarks (membersShown lang [] f.members)) := framed_separate hne
  obtain ⟨front, l, hlast, hl⟩ := (hframed.parted hmembers).exists_last
  have hlines : settleFrom .empty (fileMarks lang f) =
      settleFrom .empty (frontMarks lang f) ++
        settleFrom .empty (separateMarks (membersShown lang [] f.members)) :=
    settleFrom_append_of_forall (hframed.settleFrom_eq hmembers) .empty (frontMarks lang f)
  have htrim : trimEnd (settleFrom .empty (fileMarks lang f)) =
      settleFrom .empty (fileMarks lang f) := by
    rw [hlines, hlast, ← List.append_assoc, trimEnd_concat_of_solid hl]
  rw [text_eq_lines h hf, htrim, hlines, Line.renderAll_append, renderAll_separate hmembers width,
    ← textAt_eq (lays_front lang f) hfront width]
  rfl

theorem Siblings.infix_text (h : Siblings lang f depth ms)
    (htext : renderFile lang width f = .ok text) (hf : SolidMarks (fileMarks lang f)) :
    (spaced lang width depth ms).toList <:+: text.toList := by
  induction h with
  | file =>
    by_cases hne : f.members = []
    · rw [hne]
      exact List.nil_infix
    · rw [text_eq_spaced htext hf hne, String.toList_append]
      exact List.infix_append_right
  | @body depth ms head members hms hm ih =>
    by_cases hne : impliedMembers lang head ++ members = []
    · rw [hne]
      exact List.nil_infix
    · have htype := memberText_type hne (solidMarks_of_mem hm (hms.solidMarks hf)) width
      rw [List.length_replicate] at htype
      refine List.IsInfix.trans ?_ ((infix_spaced hm).trans ih)
      rw [htype, String.toList_append, String.toList_append]
      exact List.infix_append _ _ _

/-- If every line that is written is solid, a file has no blank line at its beginning or its end and
no two of them in a row. The texts of its members follow each other with one blank line between
any two, or none between two fields on one line each, and so do those in the body of any type in it.
No member has a blank line of its own at its beginning or its end. -/
theorem blank_lines_separate_members (h : renderFile lang width f = .ok text)
    (hlines : ∀ line ∈ lineTexts (fileEvents lang f), Solid line) :
    Tidy text ∧
    (f.members ≠ [] →
      text = textAt width 0 (frontEvents lang f) ++ spaced lang width 0 f.members) ∧
    ∀ depth ms, Siblings lang f depth ms →
      (spaced lang width depth ms).toList <:+: text.toList ∧
      ∀ m ∈ ms, memberText lang width depth m ≠ "" ∧ Tidy (memberText lang width depth m) ∧
        ∀ head members, m = .type head members → impliedMembers lang head ++ members ≠ [] →
          memberText lang width depth m =
            textAt width depth (headEvents lang head " \x7b") ++
              spaced lang width (depth + 1) (impliedMembers lang head ++ members) ++
              (indentation width depth ++ "\x7d\n") := by
  -- solid lines make solid marks, and these settle into lines that are parted
  have hf : SolidMarks (fileMarks lang f) := (lays_file lang f).solidMarks hlines
  refine ⟨tidy_text h hf, text_eq_spaced h hf, fun depth ms hms => ⟨hms.infix_text h hf, ?_⟩⟩
  intro m hm
  have hmember := solidMarks_of_mem hm (hms.solidMarks hf)
  have hparted := (framed_member m).parted hmember
  have htext := memberText_eq hmember width
  rw [List.length_replicate] at htext
  refine ⟨?_, ?_, ?_⟩
  · rw [htext]
    exact hparted.renderAll_ne_empty width
  · rw [htext]
    exact hparted.tidy width
  · rintro head members rfl hne
    have htype := memberText_type hne hmember width
    rwa [List.length_replicate] at htype

/-- Two fields on one line each, and a function whose code has a blank line. -/
def gaugeMembers : List Member :=
  [.field (.plain "low" (.plain "Int32")), .field (.plain "high" (.plain "Int32")),
   .func
    { Func.plain "reset" with body := some ⟨[.line "clear()", .blank, .line "start()"], []⟩ }]

def gaugeFile : SourceFile where
  name := "gauge.swift"
  header := none
  package := none
  imports := ["Foundation"]
  members :=
    [.field (.plain "scale" (.plain "Int32")), .type (TypeHead.plain .record "Gauge") gaugeMembers]

def gaugeLines : List Line :=
  [⟨0, "import Foundation"⟩, .separator, ⟨0, "let scale: Int32"⟩, .separator,
   ⟨0, "struct Gauge \x7b"⟩, ⟨1, "let low: Int32"⟩, ⟨1, "let high: Int32"⟩, .separator,
   ⟨1, "func reset() \x7b"⟩, ⟨2, "clear()"⟩, .separator, ⟨2, "start()"⟩, ⟨1, "\x7d"⟩,
   ⟨0, "\x7d"⟩]

theorem blank_lines_separate_members_gauge :
    renderFile .swift 0 gaugeFile = .ok (Line.renderAll 0 gaugeLines) ∧
      (∀ line ∈ lineTexts (fileEvents .swift gaugeFile), Solid line) ∧
      Tidy (Line.renderAll 0 gaugeLines) ∧ Siblings .swift gaugeFile 1 gaugeMembers ∧
      (spaced .swift 0 1 gaugeMembers).toList <:+: (Line.renderAll 0 gaugeLines).toList := by
  have hrender : renderFile .swift 0 gaugeFile = .ok (Line.renderAll 0 gaugeLines) := by
    decide +kernel
  have hlines : ∀ line ∈ lineTexts (fileEvents .swift gaugeFile), Solid line := by decide +kernel
  have hbody : Siblings .swift gaugeFile 1 gaugeMembers :=
    .body .file (show .type (TypeHead.plain .record "Gauge") gaugeMembers ∈ gaugeFile.members from
      List.mem_cons_of_mem _ List.mem_cons_self)
  obtain ⟨htidy, -, hsiblings⟩ := blank_lines_separate_members hrender hlines
  exact ⟨hrender, hlines, htidy, hbody, (hsiblings 1 gaugeMembers hbody).1⟩

example : spaced .swift 2 1 gaugeMembers =
    "  let low: Int32\n  let high: Int32\n" ++ "\n" ++
      "  func reset() \x7b\n    clear()\n\n    start()\n  \x7d\n" := by
  decide +kernel

end Files

end HostBindings.Layout
