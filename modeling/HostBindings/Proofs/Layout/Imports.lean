import HostBindings.Proofs.Code.Imports
import HostBindings.Proofs.Layout.Depth

/-!
The import lines of a laid out file. They stand behind its comment and package, and they are
collected apart from the members: `Layout.imports_collected` says that they are all that the file
is given, that its references carry and that its code records, except for code that only the
properties of a type imply, which is written but not searched.
-/

namespace HostBindings.Layout

open HostBindings.Code

variable {lang : Lang} {width : Nat} {f : SourceFile}

/-! ### Code that is written -/

def impliedMembers (lang : Lang) (head : TypeHead) : List Member :=
  (lang.impliedFields head).map .field ++ (lang.impliedConstructor? head).toList.map .func

/-- The properties of a type, at some depth in a member, imply a block of code. -/
inductive Implies (lang : Lang) : Member → Block → Prop where
  | property {head members m b} (hm : m ∈ impliedMembers lang head) (hb : m.Holds b) :
      Implies lang (.type head members) b
  | inside {head members m b} (hm : m ∈ members) (h : Implies lang m b) :
      Implies lang (.type head members) b

def Writes (lang : Lang) (f : SourceFile) (b : Block) : Prop :=
  ∃ m ∈ f.members, m.Holds b ∨ Implies lang m b

/-- What the file needs: what it is given, what its references carry, and what the code records
that is written. -/
def Needs (lang : Lang) (f : SourceFile) (x : String) : Prop :=
  x ∈ f.imports ∨ f.Carries x ∨ ∃ b, Writes lang f b ∧ b.Records x

theorem infix_separate {p : Piece} {ps : List Piece} (h : p ∈ ps) :
    p.events <:+: separate ps := by
  induction ps with
  | nil => exact absurd h List.not_mem_nil
  | cons q ps ih =>
    cases ps with
    | nil =>
      rw [List.mem_singleton.mp h]
      exact List.infix_rfl
    | cons r ps =>
      rw [separate]
      rcases List.mem_cons.mp h with rfl | h
      · rw [List.append_assoc]
        exact (List.prefix_append _ _).isInfix
      · exact (ih h).trans (List.suffix_append _ _).isInfix

theorem memberPiece_mem {m : Member} {members : List Member} (h : m ∈ members) :
    memberPiece lang m ∈ memberPieces lang members := by
  rw [memberPieces_eq_map]
  exact List.mem_map_of_mem h

theorem infix_type {p : Piece} {head : TypeHead} {members : List Member}
    (h : p ∈ impliedPieces lang head ++ memberPieces lang members) :
    p.events <:+: (memberPiece lang (.type head members)).events := by
  have hbody : (impliedPieces lang head ++ memberPieces lang members).isEmpty = false :=
    List.isEmpty_eq_false_iff.mpr (List.ne_nil_of_mem h)
  simp only [memberPiece, hbody, Bool.false_and, if_neg Bool.false_ne_true]
  exact (infix_separate h).trans (List.infix_append _ _ _)

theorem infix_of_holds {m : Member} {b : Block} (h : m.Holds b) :
    itemsEvents lang b.items <:+: (memberPiece lang m).events := by
  induction h with
  | body hb =>
    simp only [memberPiece, funcPiece, hb]
    exact (List.infix_append _ _ _).trans (List.suffix_append _ _).isInfix
  | closure hb =>
    simp only [memberPiece, fieldPiece, hb]
    exact (List.infix_append _ _ _).trans (List.suffix_append _ _).isInfix
  | inside hm _ ih =>
    exact ih.trans (infix_type (List.mem_append_right _ (memberPiece_mem hm)))

theorem infix_of_implies {m : Member} {b : Block} (h : Implies lang m b) :
    itemsEvents lang b.items <:+: (memberPiece lang m).events := by
  induction h with
  | @property head members m b hm hb =>
    have hpiece : memberPiece lang m ∈ impliedPieces lang head := by
      rw [impliedMembers, List.mem_append] at hm
      rw [impliedPieces, List.mem_append]
      rcases hm with hm | hm
      · obtain ⟨p, hp, rfl⟩ := List.mem_map.mp hm
        exact Or.inl (List.mem_map_of_mem hp)
      · obtain ⟨c, hc, rfl⟩ := List.mem_map.mp hm
        exact Or.inr (List.mem_map_of_mem hc)
    exact (infix_of_holds hb).trans (infix_type (List.mem_append_left _ hpiece))
  | inside hm _ ih =>
    exact ih.trans (infix_type (List.mem_append_right _ (memberPiece_mem hm)))

theorem infix_of_writes {b : Block} (h : Writes lang f b) :
    itemsEvents lang b.items <:+: fileEvents lang f := by
  obtain ⟨m, hm, h⟩ := h
  exact (h.elim infix_of_holds infix_of_implies).trans
    ((infix_separate (memberPiece_mem hm)).trans (List.suffix_append _ _).isInfix)

/-! ### Import lines -/

def frontText (lang : Lang) (width : Nat) (f : SourceFile) : String :=
  ((Output.empty width).run (headerEvents f.header ++ packageEvents lang f.package)).text

def importText (imports : List String) : String :=
  String.join (imports.map fun x => Lang.importLine x ++ "\n")

/-- The text of the file has a line for each of the imports, in this order, and no other import
lines. -/
structure HasImportLines (lang : Lang) (width : Nat) (f : SourceFile) (text : String)
    (imports : List String) : Prop where
  events : text = ((Output.empty width).run (headerEvents f.header ++
    packageEvents lang f.package ++ importEvents imports ++
      separate (memberPieces lang f.members))).finish
  /-- An empty line follows, if anything does. -/
  lines : imports ≠ [] → (∀ x ∈ imports, '\n' ∉ x.toList) →
    ∃ rest, text = frontText lang width f ++ importText imports ++ rest ∧
      (rest = "" ∨ ∃ members, rest = "\n" ++ members)

namespace Output

theorem exists_run (o : Output) (events : List Event) :
    ∃ more, (o.run events).text = o.text ++ more := by
  induction events generalizing o with
  | nil => exact ⟨"", String.append_empty.symm⟩
  | cons e events ih =>
    obtain ⟨more, hmore⟩ := ih (o.take e)
    -- an event only appends to the text
    have htake : ∃ own, (o.take e).text = o.text ++ own := by
      cases e with
      | line text => exact ⟨o.current ++ text ++ "\n", by simp [take, line, String.append_assoc]⟩
      | blank =>
        rw [take, blank]
        split
        · exact ⟨"", String.append_empty.symm⟩
        · exact ⟨"\n", rfl⟩
      | push => exact ⟨"", String.append_empty.symm⟩
      | pop =>
        rw [take, pop]
        split
        · exact ⟨"", String.append_empty.symm⟩
        · exact ⟨"", String.append_empty.symm⟩
    obtain ⟨own, hown⟩ := htake
    exact ⟨own ++ more, by rw [← String.append_assoc, ← hown]; exact hmore⟩

theorem run_lines {o : Output} (h : o.current = "") (lines : List String) :
    o.run (lines.map .line) = { o with text := o.text ++ String.join (lines.map (· ++ "\n")) } := by
  induction lines generalizing o with
  | nil => simp [run]
  | cons l lines ih =>
    rw [List.map_cons, run, List.foldl_cons]
    show (o.line l).run (lines.map .line) = _
    rw [ih (show (o.line l).current = "" from h), line, h]
    simp [String.append_assoc]

theorem text_blank {o : Output} (h : Ending.line.Of o.text.toList) :
    o.blank.text = o.text ++ "\n" := by
  have hwrite : Mark.write 0 o.text .blank = o.text ++ "\n" := Mark.write_blank h
  rw [← hwrite, blank, Mark.write]
  split <;> rfl

/-- Only line feeds behind the last line are dropped. -/
theorem exists_dropBlankLines {c : Char} (hc : c ≠ '\n') (back front : List Char) :
    ∃ kept, kept <:+ back ∧
      dropBlankLines (back ++ '\n' :: c :: front) = kept ++ '\n' :: c :: front := by
  induction back with
  | nil => exact ⟨[], List.suffix_rfl, by simp [dropBlankLines, hc]⟩
  | cons d back ih =>
    rw [List.cons_append, dropBlankLines]
    split
    · obtain ⟨kept, hkept, heq⟩ := ih
      exact ⟨kept, hkept.trans (List.suffix_cons d back), heq⟩
    · exact ⟨d :: back, List.suffix_rfl, rfl⟩

theorem exists_finish {o : Output} {front rest : List Char} {c : Char} (hc : c ≠ '\n')
    (h : o.text.toList = front ++ [c, '\n'] ++ rest) :
    ∃ kept, kept <+: rest ∧ o.finish.toList = front ++ [c, '\n'] ++ kept := by
  obtain ⟨kept, hkept, heq⟩ := exists_dropBlankLines hc rest.reverse front.reverse
  refine ⟨kept.reverse, ?_, ?_⟩
  · rw [← List.reverse_suffix, List.reverse_reverse]
    exact hkept
  · have hreverse : o.text.toList.reverse = rest.reverse ++ '\n' :: c :: front.reverse := by
      simp [h]
    rw [finish, hreverse, heq, String.toList_ofList]
    simp

end Output

theorem exists_last_importLine {x : String} (h : '\n' ∉ x.toList) :
    ∃ front c, c ≠ '\n' ∧ (Lang.importLine x).toList = front ++ [c] := by
  have hline : '\n' ∉ (Lang.importLine x).toList := by
    rw [Lang.importLine, String.toList_append, List.mem_append, not_or]
    exact ⟨by decide, h⟩
  rcases (Lang.importLine x).toList.eq_nil_or_concat' with hnil | ⟨front, c, hconcat⟩
  · rw [Lang.importLine, String.toList_append] at hnil
    exact absurd (List.append_eq_nil_iff.mp hnil).1 (by decide)
  · refine ⟨front, c, ?_, hconcat⟩
    rintro rfl
    exact hline (hconcat ▸ List.mem_append_right _ List.mem_cons_self)

theorem exists_last_importText {imports : List String} (hne : imports ≠ [])
    (h : ∀ x ∈ imports, '\n' ∉ x.toList) :
    ∃ front c, c ≠ '\n' ∧ (importText imports).toList = front ++ [c, '\n'] := by
  obtain ⟨before, x, rfl⟩ := List.eq_nil_or_concat' imports |>.resolve_left hne
  obtain ⟨front, c, hc, hline⟩ := exists_last_importLine (h x (by simp))
  refine ⟨(importText before).toList ++ front, c, hc, ?_⟩
  simp [importText, hline]

theorem nested_lines (lines : List String) : Nested (lines.map .line) := by
  induction lines with
  | nil => exact .nil
  | cons line lines ih => exact (Nested.line line).append ih

theorem current_front (lang : Lang) (width : Nat) (f : SourceFile) :
    ((Output.empty width).run (headerEvents f.header ++ packageEvents lang f.package)).current =
      "" := by
  have hheader : Nested (headerEvents f.header) := by
    cases f.header with
    | none => exact .nil
    | some header => exact (nested_lines _).append .blank
  have hpackage : Nested (packageEvents lang f.package) := by
    rw [packageEvents]
    cases f.package.bind lang.packageLine? with
    | none => exact .nil
    | some line => exact (nested_lines [line]).append .blank
  rw [Output.current, (hheader.append hpackage).stack_run _ (List.cons_ne_nil _ _)]
  rfl

/-- Imports are written outside of all levels, with an empty line behind them. -/
theorem text_run_imports {o : Output} (hcurrent : o.current = "") {imports : List String}
    (hne : imports ≠ []) (h : ∀ x ∈ imports, '\n' ∉ x.toList) :
    (o.run (importEvents imports)).text = o.text ++ importText imports ++ "\n" := by
  obtain ⟨front, c, hc, hlast⟩ := exists_last_importText hne h
  have hevents : importEvents imports = (imports.map Lang.importLine).map .line ++ [.blank] := by
    rw [importEvents, if_neg (by simpa using hne)]
    rfl
  have hjoin : String.join ((imports.map Lang.importLine).map (· ++ "\n")) =
      importText imports := by
    rw [importText, List.map_map]
    rfl
  -- the last import ends its line, so that the empty line is granted
  have hending : Ending.line.Of (o.text ++ importText imports).toList := by
    refine Or.inr ⟨o.text.toList ++ front, c, hc, ?_⟩
    rw [String.toList_append, hlast, List.append_assoc]
  rw [hevents, Output.run_append, Output.run_lines hcurrent, hjoin]
  exact Output.text_blank hending

theorem hasImportLines {text : String} (h : renderFile lang width f = .ok text) :
    HasImportLines lang width f text f.allImports := by
  have htext : text = ((Output.empty width).run (fileEvents lang f)).finish := by
    unfold renderFile at h
    split at h
    · cases h
    · exact (Except.ok.inj h).symm
  refine ⟨htext, fun hne hfeeds => ?_⟩
  obtain ⟨front, c, hc, hlast⟩ := exists_last_importText hne hfeeds
  -- the comment, the package and the imports
  generalize hfront : (Output.empty width).run
    (headerEvents f.header ++ packageEvents lang f.package) = o
  have himports := text_run_imports (hfront ▸ current_front lang width f) hne hfeeds
  -- the members, and what is dropped at the end
  obtain ⟨more, hmore⟩ :=
    (o.run (importEvents f.allImports)).exists_run (separate (memberPieces lang f.members))
  have hrun : ((Output.empty width).run (fileEvents lang f)).text =
      o.text ++ importText f.allImports ++ "\n" ++ more := by
    rw [fileEvents, frontEvents, Output.run_append, Output.run_append, hfront, hmore, himports]
  have hchars : ((Output.empty width).run (fileEvents lang f)).text.toList =
      (o.text.toList ++ front) ++ [c, '\n'] ++ ('\n' :: more.toList) := by
    rw [hrun]
    simp [hlast]
  obtain ⟨kept, hkept, hfinish⟩ := Output.exists_finish hc hchars
  refine ⟨String.ofList kept, ?_, ?_⟩
  · rw [htext, frontText, hfront, ← String.toList_inj, hfinish]
    simp [hlast]
  · cases kept with
    | nil => exact Or.inl rfl
    | cons d kept =>
      obtain ⟨rfl, -⟩ := List.cons_prefix_cons.mp hkept
      exact Or.inr ⟨String.ofList kept, by rw [← String.toList_inj]; simp⟩

/-- A character of a text stands in one of its lines, or it is indentation or ends a line. -/
theorem Line.exists_mem_text {c : Char} {ls : List Line} (hblank : c ≠ ' ') (hfeed : c ≠ '\n')
    (h : c ∈ (Line.renderAll width ls).toList) : ∃ l ∈ ls, c ∈ l.text.toList := by
  induction ls with
  | nil => exact absurd h (by simp [Line.renderAll])
  | cons l ls ih =>
    rw [Line.renderAll_cons, String.toList_append, List.mem_append, Line.toList_render,
      List.mem_append, List.mem_append, List.mem_singleton] at h
    rcases h with ((h | h) | h) | h
    · exact absurd (List.eq_of_mem_replicate h) hblank
    · exact ⟨l, List.mem_cons_self, h⟩
    · exact absurd h hfeed
    · obtain ⟨l', hl', h⟩ := ih h
      exact ⟨l', List.mem_cons_of_mem l hl', h⟩

/-! ### What is collected -/

theorem needs_of_mem {x : String} (h : x ∈ f.allImports) : Needs lang f x := by
  rcases SourceFile.mem_allImports.mp h with h | h | ⟨b, ⟨m, hm, hb⟩, h⟩
  · exact Or.inl h
  · exact Or.inr (Or.inl h)
  · exact Or.inr (Or.inr ⟨b, ⟨m, hm, Or.inl hb⟩, h⟩)

/-- All that is needed is collected exactly if what implied code records is. -/
theorem forall_mem_allImports_iff :
    (∀ x, x ∈ f.allImports ↔ Needs lang f x) ↔
      ∀ m ∈ f.members, ∀ b, Implies lang m b → ∀ x, b.Records x → x ∈ f.allImports := by
  constructor
  · intro h m hm b hb x hx
    exact (h x).mpr (Or.inr (Or.inr ⟨b, ⟨m, hm, Or.inr hb⟩, hx⟩))
  · intro h x
    refine ⟨needs_of_mem, ?_⟩
    rintro (hx | hx | ⟨b, ⟨m, hm, hb | hb⟩, hx⟩)
    · exact SourceFile.mem_allImports.mpr (Or.inl hx)
    · exact SourceFile.mem_allImports.mpr (Or.inr (Or.inl hx))
    · exact SourceFile.mem_allImports.mpr (Or.inr (Or.inr ⟨b, ⟨m, hm, hb⟩, hx⟩))
    · exact h m hm b hb x hx

/-- Kotlin writes properties into the constructor of a type and implies no code. -/
theorem not_implies_kotlin {m : Member} {b : Block} : ¬ Implies .kotlin m b := by
  intro h
  induction h with
  | property hm => exact absurd hm List.not_mem_nil
  | inside _ _ ih => exact ih

/-- The import lines of a file are, each once and in increasing order, what the file is given, what
its references carry and what the code in it records, at any depth. All code that is written has
its statements in the file; what the file needs is collected exactly if no code implied by
properties records anything else, and Kotlin implies none. -/
theorem imports_collected {text : String} (h : renderFile lang width f = .ok text) :
    ∃ imports, HasImportLines lang width f text imports ∧ imports.Pairwise (· < ·) ∧
      (∀ x, x ∈ imports ↔ x ∈ f.imports ∨ f.Carries x ∨ ∃ b, f.Holds b ∧ b.Records x) ∧
      (∀ b, Writes lang f b → itemsEvents lang b.items <:+: fileEvents lang f) ∧
      ((∀ x, x ∈ imports ↔ Needs lang f x) ↔
        ∀ m ∈ f.members, ∀ b, Implies lang m b → ∀ x, b.Records x → x ∈ imports) ∧
      (lang = .kotlin → ∀ x, x ∈ imports ↔ Needs lang f x) := by
  refine ⟨f.allImports, hasImportLines h, f.pairwise_allImports,
    fun _ => SourceFile.mem_allImports, fun _ => infix_of_writes, forall_mem_allImports_iff, ?_⟩
  rintro rfl
  exact forall_mem_allImports_iff.mpr fun m _ b hb => absurd hb not_implies_kotlin

def sealCode : Block :=
  ⟨[.line "seal(data)"], ["CryptoKit"]⟩

/-- A file with an import that it is given, one that a type carries, one that nested code records,
and one that the code of a property records. -/
def archiveFile : SourceFile where
  name := "archive.swift"
  header := none
  package := none
  imports := ["Foundation"]
  members := [.type
    { TypeHead.plain .record "Archive" with
      properties := [
        { Field.plain "seal" (.imported "Seal" "Wire") with
          initializer := some (.closure ["data"] sealCode) }] }
    [.func
      { Func.plain "open" with
        body := some ⟨[.block "if ok" ["OSLog"] [.line "log()"]], []⟩ }]]

def archiveLines : List Line :=
  [⟨0, "import Foundation"⟩, ⟨0, "import OSLog"⟩, ⟨0, "import Wire"⟩, .separator,
   ⟨0, "struct Archive \x7b"⟩, ⟨1, "let seal: Seal = \x7b data in"⟩, ⟨2, "seal(data)"⟩,
   ⟨1, "\x7d"⟩, .separator, ⟨1, "func open() \x7b"⟩, ⟨2, "if ok \x7b"⟩, ⟨3, "log()"⟩,
   ⟨2, "\x7d"⟩, ⟨1, "\x7d"⟩, ⟨0, "\x7d"⟩]

theorem renderFile_archive :
    renderFile .swift 4 archiveFile = .ok (Line.renderAll 4 archiveLines) := by
  have hlines : trimEnd (settleFrom .empty (fileMarks .swift archiveFile)) = archiveLines := by
    decide +kernel
  rw [renderFile_eq (by decide) (by decide +kernel), hlines]

theorem imports_collected_archive :
    renderFile .swift 4 archiveFile = .ok (Line.renderAll 4 archiveLines) ∧
      ∃ imports, HasImportLines .swift 4 archiveFile (Line.renderAll 4 archiveLines) imports ∧
        "Wire" ∈ imports ∧ "OSLog" ∈ imports := by
  obtain ⟨imports, hlines, -, hmem, -⟩ := imports_collected renderFile_archive
  have hall : "Wire" ∈ archiveFile.allImports ∧ "OSLog" ∈ archiveFile.allImports := by
    decide +kernel
  refine ⟨renderFile_archive, imports, hlines, ?_, ?_⟩
  · exact (hmem _).mpr (SourceFile.mem_allImports.mp hall.1)
  · exact (hmem _).mpr (SourceFile.mem_allImports.mp hall.2)

/-- The code of the property stands in the text, and its import does not. -/
theorem imports_miss_property :
    renderFile .swift 4 archiveFile = .ok (Line.renderAll 4 archiveLines) ∧
      Writes .swift archiveFile sealCode ∧ sealCode.Records "CryptoKit" ∧
      ∀ imports, (∀ x ∈ imports, '\n' ∉ x.toList) →
        HasImportLines .swift 4 archiveFile (Line.renderAll 4 archiveLines) imports →
          "CryptoKit" ∉ imports := by
  refine ⟨renderFile_archive, ?_, .own List.mem_cons_self, fun imports hfeeds hlines hmem => ?_⟩
  · exact ⟨_, List.mem_cons_self, Or.inr (.property List.mem_cons_self (.closure rfl))⟩
  · obtain ⟨rest, htext, -⟩ := hlines.lines (List.ne_nil_of_mem hmem) hfeeds
    obtain ⟨before, after, rfl⟩ := List.append_of_mem hmem
    -- the name has a letter that no line has
    have hletter : 'K' ∈ (Line.renderAll 4 archiveLines).toList := by
      rw [htext]
      simp [importText, Lang.importLine]
    obtain ⟨l, hl, hletter⟩ := Line.exists_mem_text (by decide) (by decide) hletter
    have hnone : ∀ l ∈ archiveLines, 'K' ∉ l.text.toList := by decide +kernel
    exact hnone l hl hletter

end HostBindings.Layout
