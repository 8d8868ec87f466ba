import HostBindings.Proofs.Generate.Outcome
import HostBindings.Proofs.Layout.Depth

/-!
Indentation of generated files. It shows how deep a line is enclosed, and nothing else depends on
its width: whatever is generated for two widths differs in leading blanks only.
-/

namespace HostBindings

open HostBindings.Code HostBindings.Layout

namespace Generate

/-! ### Generation does not read the width -/

theorem serviceTypes_indent (lang : Lang) (c : Catalog) (s : Settings) (width : Nat)
    (i : Interface) (proxies : List String) :
    serviceTypes lang (.ofInterface c { s with indent := width } i) i proxies =
      serviceTypes lang (.ofInterface c s i) i proxies := by
  cases lang <;> rfl

theorem services_indent (lang : Lang) (c : Catalog) (s : Settings) (width : Nat)
    (claimed : List String) (is : List Interface) :
    services lang c { s with indent := width } claimed is = services lang c s claimed is := by
  induction is generalizing claimed with
  | nil => rfl
  | cons i is ih => simp only [services, serviceTypes_indent, ih]

theorem file_indent (c : Catalog) (s : Settings) (width : Nat) :
    file c { s with indent := width } = file c s := by
  unfold file
  simp only [services_indent]
  cases s.lang <;> rfl

theorem check_indent {s : Settings} {width : Nat} (hs : 1 ≤ s.indent) (hwidth : 1 ≤ width) :
    Settings.check { s with indent := width } = s.check := by
  have hfault : Settings.fault? { s with indent := width } = s.fault? := by
    unfold Settings.fault?
    rw [if_neg (Nat.ne_of_gt hs), if_neg (Nat.ne_of_gt hwidth)]
  rw [Settings.check, Settings.check, hfault]

/-! ### Texts for two widths -/

def Artifact.unindented (a : Artifact) : Artifact :=
  { a with contents := unindent a.contents }

theorem renderFile_unindent (lang : Lang) (f : SourceFile) {width width' : Nat}
    (hwidth : 1 ≤ width) (hwidth' : 1 ≤ width') :
    (renderFile lang width f).map unindent = (renderFile lang width' f).map unindent := by
  cases h : f.unresolved? lang.isBuiltin with
  | some u =>
    unfold renderFile
    rw [h]
  | none =>
    rw [renderFile_eq hwidth h, renderFile_eq hwidth' h]
    exact congrArg Except.ok (unindent_renderAll width width' _)

/-- Generation has the same outcome for every width but for leading blanks. -/
theorem artifact_unindented (c : Catalog) {s : Settings} {width : Nat} (hs : 1 ≤ s.indent)
    (hwidth : 1 ≤ width) :
    (artifact c { s with indent := width }).map Artifact.unindented =
      (artifact c s).map Artifact.unindented := by
  -- no check tells positive widths apart, so both runs are refused for the same reason or none
  have hcheck := check_indent hs hwidth
  cases hsettings : s.check with
  | error e => rw [artifact_of_settings hsettings, artifact_of_settings (hcheck.trans hsettings)]
  | ok u =>
    cases hcatalog : c.check with
    | error e =>
      rw [artifact_of_catalog hsettings hcatalog,
        artifact_of_catalog (hcheck.trans hsettings) hcatalog]
    | ok u =>
      cases hclash : catalogCollision? s.lang c with
      | some k =>
        rw [artifact_of_collision hsettings hcatalog hclash,
          artifact_of_collision (hcheck.trans hsettings) hcatalog hclash]
      | none =>
        obtain ⟨f, contents, hf, hcontents, hok⟩ := artifact_of_checks hsettings hcatalog hclash
        obtain ⟨f', contents', hf', hcontents', hok'⟩ :=
          artifact_of_checks (hcheck.trans hsettings) hcatalog hclash
        rw [file_indent, hf] at hf'
        obtain rfl := Except.ok.inj hf'
        have htext : unindent contents' = unindent contents := by
          have h := renderFile_unindent s.lang f hwidth hs
          rw [hcontents, hcontents'] at h
          exact Except.ok.inj h
        rw [hok, hok']
        exact congrArg (fun text => (Except.ok ⟨f.name, text⟩ : Except Error Artifact)) htext

/-! ### Depth -/

/-- Indentation shows depth and nothing else. A file that is laid out at all has lines that do not
depend on the width: those that it shows, each as deep as the type bodies, constructor parameters,
function bodies, closures and blocks around it. For every width the text is these lines behind the
indentation of their depth. Each level that is opened is closed by a closing of its own, no closing
is refused, and only the outermost level is open behind each member at the top. So two widths give
texts that are equal but for leading blanks. -/
theorem indentation_is_depth {lang : Lang} {f : SourceFile} {width₀ : Nat} {text : String}
    (h : renderFile lang width₀ f = .ok text) :
    (∃ lines, Presents (fileMarks lang f) lines ∧ ∀ width, 1 ≤ width →
      renderFile lang width f = .ok (Line.renderAll width (trimEnd lines))) ∧
    (∀ width, (Output.empty width).Levels (fileEvents lang f)) ∧
    (∀ width n, upTo lang f n <+: fileEvents lang f ∧
      ((Output.empty width).run (upTo lang f n)).stack = (Output.empty width).stack) ∧
    ∀ (c : Catalog) (s : Settings) (width : Nat), 1 ≤ s.indent → 1 ≤ width →
      (artifact c { s with indent := width }).map Artifact.unindented =
        (artifact c s).map Artifact.unindented := by
  have hknown : f.unresolved? lang.isBuiltin = none := by
    cases hu : f.unresolved? lang.isBuiltin with
    | none => rfl
    | some u =>
      rw [renderFile, hu] at h
      cases h
  refine ⟨⟨_, presents_settleFrom .empty _, fun width hwidth => renderFile_eq hwidth hknown⟩,
    fun width => (lays_file lang f).nested.levels (List.cons_ne_nil _ _), fun width n => ⟨?_, ?_⟩,
    fun c s width hs hwidth => artifact_unindented c hs hwidth⟩
  · exact upTo_prefix lang f n
  · exact (nested_upTo lang f n).stack_run _ (List.cons_ne_nil _ _)

/-- A loader with a block in its body, behind a type with a constructor parameter and no braces. -/
def nestedFile : SourceFile where
  name := "Nested.kt"
  header := some "generated"
  package := some "demo"
  imports := []
  members :=
    [.type
      { TypeHead.plain .record "Point" with properties := [Field.plain "x" (.plain "Int")] } [],
     .type (TypeHead.plain .holder "Loader")
      [.func (.loader ⟨[.block "if (ready)" [] [.line "", .line "load()"]], []⟩)]]

/-- The lines of a file with nested code are those it shows, for every width. -/
theorem indentation_is_depth_nested :
    nestedFile.unresolved? Lang.kotlin.isBuiltin = none ∧
      ∃ lines, Presents (fileMarks .kotlin nestedFile) lines ∧ ∀ width, 1 ≤ width →
        renderFile .kotlin width nestedFile = .ok (Line.renderAll width (trimEnd lines)) := by
  have hknown : nestedFile.unresolved? Lang.kotlin.isBuiltin = none := by decide +kernel
  exact ⟨hknown, (indentation_is_depth (renderFile_eq (le_refl 1) hknown)).1⟩

example : trimEnd (settleFrom .empty (fileMarks .kotlin nestedFile)) =
    [⟨0, "// generated"⟩, .separator, ⟨0, "package demo"⟩, .separator, ⟨0, "data class Point("⟩,
     ⟨1, "val x: Int,"⟩, ⟨0, ")"⟩, .separator, ⟨0, "object Loader \x7b"⟩, ⟨1, "init \x7b"⟩,
     ⟨2, "if (ready) \x7b"⟩, ⟨3, ""⟩, ⟨3, "load()"⟩, ⟨2, "\x7d"⟩, ⟨1, "\x7d"⟩, ⟨0, "\x7d"⟩] := by
  decide +kernel

end Generate

end HostBindings
