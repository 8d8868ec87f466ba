import HostBindings.Proofs.Files.Paths
import HostBindings.Proofs.Naming.CamelCase
import HostBindings.Target

/-!
Names of generated files. A module name that passes the check of the settings consists of ASCII
identifiers with dots between them, so the file that is named after it is a plain entry of the
directory that it is put into: its name leads neither up nor down.
-/

namespace HostBindings

/-! ### Settings that pass -/

namespace Settings

open HostBindings.Text

def IsPathStart (c : Char) : Prop :=
  'A' ≤ c ∧ c ≤ 'Z' ∨ 'a' ≤ c ∧ c ≤ 'z' ∨ c = '_'

def IsPathChar (c : Char) : Prop :=
  IsPathStart c ∨ '0' ≤ c ∧ c ≤ '9'

instance : DecidablePred IsPathStart :=
  fun _ => inferInstanceAs (Decidable (_ ∨ _))

instance : DecidablePred IsPathChar :=
  fun _ => inferInstanceAs (Decidable (_ ∨ _))

def IsPathPart (part : String) : Prop :=
  ∃ c cs, part.toList = c :: cs ∧ IsPathStart c ∧ ∀ d ∈ cs, IsPathChar d

def IsModulePath (name : String) : Prop :=
  ∃ parts, parts ≠ [] ∧ (∀ part ∈ parts, IsPathPart part) ∧ name = ".".intercalate parts

theorem isIdentifierStart_iff {c : Char} : isIdentifierStart c = true ↔ IsPathStart c := by
  have hupper : c.isUpper = true ↔ 'A' ≤ c ∧ c ≤ 'Z' := decide_eq_true_iff
  have hlower : c.isLower = true ↔ 'a' ≤ c ∧ c ≤ 'z' := by
    refine Bool.and_eq_true_iff.trans ?_
    rw [decide_eq_true_eq, decide_eq_true_eq]
    rfl
  show ((c.isUpper || c.isLower) || c == '_') = true ↔ _
  rw [Bool.or_eq_true, Bool.or_eq_true, hupper, hlower, beq_iff_eq, or_assoc]
  rfl

theorem isIdentifierChar_iff {c : Char} : isIdentifierChar c = true ↔ IsPathChar c := by
  rw [IsPathChar, ← isIdentifierStart_iff]
  simp only [isIdentifierChar, isIdentifierStart, Char.isAlphanum, Char.isDigit, Bool.or_eq_true,
    Bool.and_eq_true, decide_eq_true_eq, beq_iff_eq]
  show (_ ∨ ('0' ≤ c ∧ c ≤ '9')) ∨ c = '_' ↔ _
  rw [or_assoc, or_assoc, or_comm (a := c = '_')]

theorem isIdentifier_iff {part : String} : isIdentifier part.toList = true ↔ IsPathPart part := by
  unfold IsPathPart
  cases part.toList with
  | nil => simp [isIdentifier]
  | cons c cs =>
    simp [isIdentifier, isIdentifierStart_iff, isIdentifierChar_iff]

theorem IsPathPart.isPathChar {part : String} (h : IsPathPart part) :
    ∀ c ∈ part.toList, IsPathChar c := by
  obtain ⟨c, cs, hpart, hstart, hcs⟩ := h
  rw [hpart, List.forall_mem_cons]
  exact ⟨Or.inl hstart, hcs⟩

/-- Between its dots a module path has its parts. -/
theorem isIdentifierPath_iff {name : String} : isIdentifierPath name = true ↔ IsModulePath name := by
  have hdot (part : String) (h : IsPathPart part) : '.' ∉ part.toList :=
    fun hmem => absurd (h.isPathChar _ hmem) (by decide)
  have hparts : isIdentifierPath name = true ↔
      ∀ part ∈ (splitAtChar (· == '.') name.toList).map String.ofList, IsPathPart part := by
    simp only [isIdentifierPath, List.all_eq_true, List.forall_mem_map, ← isIdentifier_iff,
      String.toList_ofList]
  rw [hparts]
  constructor
  · intro h
    obtain ⟨hne, _, heq⟩ := splitAtChar_eq_iff.mp (rfl :
      (splitAtChar (· == '.') name.toList).map String.ofList = _)
    exact ⟨_, hne, h, heq⟩
  · rintro ⟨parts, hne, hpart, heq⟩
    rw [splitAtChar_eq_iff.mpr ⟨hne, fun part hmem => hdot part (hpart part hmem), heq⟩]
    exact hpart

theorem IsPathChar.toNat_lt {c : Char} (h : IsPathChar c) : c.toNat < 128 := by
  have hle : c ≤ 'z' := by
    rcases h with (⟨_, h⟩ | ⟨_, h⟩ | rfl) | ⟨_, h⟩
    · exact h.trans (by decide)
    · exact h
    · decide
    · exact h.trans (by decide)
  have hz : c.toNat ≤ 122 := hle
  omega

theorem not_isBlank_of_isPathStart {c : Char} (h : IsPathStart c) : isBlank c = false :=
  Naming.forall_ascii (P := fun c => IsPathStart c → isBlank c = false) (by decide)
    (IsPathChar.toNat_lt (Or.inl h)) h

theorem IsPathChar.toUpper {c : Char} (h : IsPathChar c) : IsPathChar c.toUpper :=
  Naming.forall_ascii (P := fun c => IsPathChar c → IsPathChar c.toUpper) (by decide) h.toNat_lt h

theorem isBlankText_of_isModulePath {name : String} (h : IsModulePath name) :
    isBlankText name = false := by
  obtain ⟨parts, hne, hparts, rfl⟩ := h
  obtain ⟨part, others, rfl⟩ := List.exists_cons_of_ne_nil hne
  obtain ⟨c, cs, hpart, hstart, _⟩ := hparts part List.mem_cons_self
  -- the first character of the first part is the first one of the name
  have hmem : c ∈ (".".intercalate (part :: others)).toList := by
    cases others <;> simp [String.intercalate_cons_cons, hpart]
  rw [isBlankText, List.all_eq_false]
  exact ⟨c, hmem, by simp [not_isBlank_of_isPathStart hstart]⟩

/-- Settings pass if the module has a path for its name, lines are indented and the library, if one
is named, has a name. -/
theorem check_eq_ok {s : Settings} :
    s.check = .ok () ↔ IsModulePath s.moduleName ∧ 1 ≤ s.indent ∧
      ∀ library, s.libraryName = some library → ∃ c ∈ library.toList, isBlank c = false := by
  have hlibrary : s.libraryName.any isBlankText = false ↔
      ∀ library, s.libraryName = some library → ∃ c ∈ library.toList, isBlank c = false := by
    cases s.libraryName <;> simp [isBlankText]
  have hcheck : s.check = .ok () ↔ s.fault? = none := by
    unfold check
    cases s.fault? <;> simp
  rw [hcheck, ← hlibrary, ← isIdentifierPath_iff, fault?]
  by_cases hpath : isIdentifierPath s.moduleName = true
  · rw [isBlankText_of_isModulePath (isIdentifierPath_iff.mp hpath)]
    by_cases hindent : s.indent = 0
    · simp [hpath, hindent]
    · have hpos : 1 ≤ s.indent := Nat.one_le_iff_ne_zero.mpr hindent
      cases hname : s.libraryName.any isBlankText <;> simp [hpath, hindent, hpos]
  · -- a name that is no path is refused, whether it is blank or not
    by_cases hblank : isBlankText s.moduleName = true <;> simp [hpath, hblank]

end Settings

/-! ### File names -/

namespace Generate

open HostBindings.Settings HostBindings.Files

def IsFileChar (c : Char) : Prop :=
  IsPathChar c ∨ c = '.'

instance : DecidablePred IsFileChar :=
  fun _ => inferInstanceAs (Decidable (_ ∨ _))

theorem isPathChar_pascalCase {name : String} (h : ∀ c ∈ name.toList, IsPathChar c) :
    ∀ c ∈ (Naming.pascalCase name).toList, IsPathChar c := by
  intro c hc
  rw [Naming.pascalCase, String.toList_ofList] at hc
  obtain ⟨word, hword, hc⟩ := List.mem_flatMap.mp hc
  have hchars : ∀ d ∈ word, IsPathChar d := fun d hd => h d
    ((Text.mem_iff_splitAtChar (Text.notMem_of_mem_splitAtChar hword d hd)).mpr ⟨word, hword, hd⟩)
  cases word with
  | nil => exact absurd hc List.not_mem_nil
  | cons first others =>
    rw [List.forall_mem_cons] at hchars
    rw [Naming.capitalizeChars, Text.upper_ascii hchars.1.toNat_lt] at hc
    rcases List.mem_cons.mp hc with rfl | hc
    · exact hchars.1.toUpper
    · exact hchars.2 c hc

/-- The last part of a module path is one of its parts. -/
theorem isPathPart_lastSegment {module : String} (h : IsModulePath module) :
    IsPathPart (Lang.lastSegment module) := by
  have hparts := isIdentifierPath_iff.mpr h
  rw [isIdentifierPath, List.all_eq_true] at hparts
  rw [Lang.lastSegment, List.getLast?_eq_getLast_of_ne_nil (Text.splitAtChar_ne_nil _),
    Option.getD_some, ← isIdentifier_iff, String.toList_ofList]
  exact hparts _ (List.getLast_mem _)

theorem isFileChar_module {module : String} (h : IsModulePath module) :
    ∀ c ∈ module.toList, IsFileChar c := by
  intro c hc
  by_cases hdot : c = '.'
  · exact Or.inr hdot
  · -- any other character stands in one of the parts
    have hpart := (Text.mem_iff_splitAtChar (p := (· == '.')) (by simpa using hdot)).mp hc
    obtain ⟨part, hpart, hmem⟩ := hpart
    have hparts := isIdentifierPath_iff.mpr h
    rw [isIdentifierPath, List.all_eq_true] at hparts
    have hidentifier := hparts part hpart
    rw [← String.toList_ofList (l := part), isIdentifier_iff] at hidentifier
    exact Or.inl (hidentifier.isPathChar c (by simpa using hmem))

theorem isFileChar_of_all {s : String} (h : s.toList.all (fun c => decide (IsFileChar c)) = true) :
    ∀ c ∈ s.toList, IsFileChar c :=
  fun c hc => of_decide_eq_true (List.all_eq_true.mp h c hc)

theorem isFileChar_fileName (lang : Lang) {module : String} (h : IsModulePath module) :
    ∀ c ∈ (lang.fileName module).toList, IsFileChar c := by
  unfold Lang.fileName
  split
  · rw [String.toList_append, List.forall_mem_append]
    exact ⟨isFileChar_module h, isFileChar_of_all (by decide)⟩
  · rw [String.toList_append, List.forall_mem_append]
    have hsegment := isPathChar_pascalCase (isPathPart_lastSegment h).isPathChar
    exact ⟨fun c hc => Or.inl (hsegment c hc), isFileChar_of_all (by decide)⟩

/-- With its ending a file name is longer than the steps that stay or lead up. -/
theorem length_fileName (lang : Lang) (module : String) : 3 ≤ (lang.fileName module).length := by
  unfold Lang.fileName
  split
  · rw [String.length_append, show ".swift".length = 6 from rfl]
    omega
  · rw [String.length_append, show ".kt".length = 3 from rfl]
    omega

/-- Settings pass the check exactly if the module name is one or more ASCII identifiers with dots
between them, the indentation is positive and a library that is named is not blank. The generated
file of settings that pass is then put directly into the output directory, in both languages: its
name is a single step that leads to an entry, whatever the path of the directory is. -/
theorem fileName_confined :
    (∀ s : Settings, s.check = .ok () ↔ IsModulePath s.moduleName ∧ 1 ≤ s.indent ∧
      ∀ library, s.libraryName = some library → ∃ c ∈ library.toList, Text.isBlank c = false) ∧
    ∀ s : Settings, s.check = .ok () → ∀ lang : Lang,
      (∀ c ∈ (lang.fileName s.moduleName).toList, IsFileChar c) ∧
      lang.fileName s.moduleName ∉ ["", ".", ".."] ∧
      ∀ dir, Path.names (Path.join dir (lang.fileName s.moduleName)) =
          Path.names dir ++ [lang.fileName s.moduleName] ∧
        Path.isAbsolute (Path.join dir (lang.fileName s.moduleName)) = Path.isAbsolute dir := by
  refine ⟨fun s => check_eq_ok, fun s hs lang => ?_⟩
  have hchars := isFileChar_fileName lang (check_eq_ok.mp hs).1
  have hlength := length_fileName lang s.moduleName
  have hshort : lang.fileName s.moduleName ∉ ["", ".", ".."] := by
    intro hmem
    have hall : ∀ name ∈ ["", ".", ".."], name.length < 3 := by decide
    exact absurd (hall _ hmem) (Nat.not_lt.mpr hlength)
  have hname : Path.IsName (lang.fileName s.moduleName) :=
    ⟨fun hempty => hshort (hempty ▸ List.mem_cons_self), fun hslash =>
      absurd (hchars _ hslash) (by decide)⟩
  refine ⟨hchars, hshort, fun dir => ⟨Path.names_join dir hname, ?_⟩⟩
  exact Path.isAbsolute_join dir hname

/-- A package as deep as its directory is, with underscores at the ends of a part. -/
theorem fileName_confined_package :
    let s := { Settings.forModule "com._9.my__demo_2_" with lang := .kotlin, libraryName := "demo" }
    s.check = .ok () ∧ IsModulePath s.moduleName ∧
      Lang.kotlin.fileName s.moduleName = "MyDemo2.kt" ∧
      Path.names (Path.join "/com/../out//" "MyDemo2.kt") = ["com", "..", "out", "MyDemo2.kt"] := by
  intro s
  have hs : s.check = .ok () := by decide
  have hname : Lang.kotlin.fileName s.moduleName = "MyDemo2.kt" := by decide
  obtain ⟨hcheck, hconfined⟩ := fileName_confined
  obtain ⟨_, _, hjoin⟩ := hconfined s hs .kotlin
  rw [hname] at hjoin
  exact ⟨hs, ((hcheck s).mp hs).1, hname, (hjoin "/com/../out//").1⟩

end Generate

end HostBindings
