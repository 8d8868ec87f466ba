import HostBindings.Command.Run
import HostBindings.Proofs.Catalog.Loading
import HostBindings.Proofs.Document.Encoding
import HostBindings.Proofs.Generate.Directory
import HostBindings.Proofs.Generate.Outcome
import HostBindings.Proofs.Naming
import HostBindings.Proofs.Text.Utf8

/-!
Runs of a generation on a tree of files. All that can be refused is refused before anything is
written, and what is written then replaces the output directory. `generate_files` says what a run
leaves behind; a path that steps up may lead around what is removed.
-/

namespace HostBindings

open HostBindings.Files

/-! ### Names of generated files -/

theorem Naming.sign_mem_pascalCase {sign : Char} (hsign : Text.IsSign sign) {name : String}
    (h : sign ∈ (pascalCase name).toList) : sign ∈ name.toList := by
  rw [pascalCase, String.toList_ofList] at h
  obtain ⟨part, hpart, h⟩ := List.mem_flatMap.mp h
  have hmem : sign ∈ part := by
    cases part with
    | nil => exact h
    | cons c cs =>
      rcases List.mem_append.mp h with h | h
      · have hself : c = sign :=
          Decidable.by_contra fun hne => Text.sign_notMem_upper hsign hne h
        exact hself ▸ List.mem_cons_self
      · exact List.mem_cons_of_mem c h
  exact (Text.mem_iff_splitAtChar (Text.notMem_of_mem_splitAtChar hpart sign hmem)).mpr
    ⟨part, hpart, hmem⟩

theorem Lang.slash_mem_lastSegment {name : String} (h : '/' ∈ (lastSegment name).toList) :
    '/' ∈ name.toList := by
  rw [lastSegment, String.toList_ofList, List.getLast?_eq_getLast_of_ne_nil
    (Text.splitAtChar_ne_nil _), Option.getD_some] at h
  exact (Text.mem_iff_splitAtChar rfl).mpr ⟨_, List.getLast_mem _, h⟩

namespace Generate

theorem slash_notMem_fileName {s : Settings} (h : s.check = .ok ()) :
    '/' ∉ (s.lang.fileName s.moduleName).toList := by
  have hmodule := Settings.notMem_moduleName h (c := '/') (by decide) (by decide)
  unfold Lang.fileName
  split
  · rw [String.toList_append, List.mem_append, not_or]
    exact ⟨hmodule, by decide⟩
  · rw [String.toList_append, List.mem_append, not_or]
    refine ⟨fun hslash => hmodule (Lang.slash_mem_lastSegment ?_), by decide⟩
    exact Naming.sign_mem_pascalCase (by decide) hslash

theorem file_name {c : Catalog} {s : Settings} {f : Code.SourceFile} (h : file c s = .ok f) :
    f.name = s.lang.fileName s.moduleName := by
  obtain ⟨types, _, h⟩ := bind_eq_ok.mp h
  exact (pure_eq_ok.mp h) ▸ rfl

theorem artifact_fileName {c : Catalog} {s : Settings} {a : Artifact} (h : artifact c s = .ok a) :
    s.check = .ok () ∧ a.fileName = s.lang.fileName s.moduleName := by
  unfold artifact at h
  obtain ⟨_, hs, h⟩ := bind_eq_ok.mp h
  obtain ⟨_, _, h⟩ := bind_eq_ok.mp h
  dsimp only at h
  split at h
  · cases h
  · obtain ⟨f, hf, h⟩ := bind_eq_ok.mp h
    obtain ⟨contents, _, h⟩ := bind_eq_ok.mp h
    obtain rfl := pure_eq_ok.mp h
    exact ⟨mapError_eq_ok.mp hs, file_name (mapError_eq_ok.mp hf)⟩

/-- The name of a generated file can stand in a path. -/
theorem isName_fileName {c : Catalog} {s : Settings} {a : Artifact} (h : artifact c s = .ok a) :
    Path.IsName a.fileName := by
  obtain ⟨hs, hname⟩ := artifact_fileName h
  rw [hname]
  refine ⟨fun hempty => ?_, slash_notMem_fileName hs⟩
  have hsuffix : ∃ stem ending : String, ending ≠ "" ∧
      s.lang.fileName s.moduleName = stem ++ ending := by
    unfold Lang.fileName
    split
    · exact ⟨_, ".swift", by decide, rfl⟩
    · exact ⟨_, ".kt", by decide, rfl⟩
  obtain ⟨stem, ending, hending, heq⟩ := hsuffix
  rw [heq, String.append_eq_empty_iff] at hempty
  exact hending hempty.2

/-! ### Reading -/

def settingsIn (path : String) (t : Tree) : Except Error Settings :=
  (t.textOf path).mapError (.io path) >>= fun text =>
    (Settings.ofText text).mapError fun e => .settings (.inFile path e)

theorem reads_settingsOfFile (path : String) :
    Reads (settingsOfFile path : ExceptT Error (StateM Tree) Settings) (settingsIn path) := by
  have hread := readText_run .asStored path
  rw [Enumeration.fileSystem_asStored] at hread
  exact (Reads.attempt (Error.io path) hread).bind fun text => .ofExcept _

theorem reads_artifactOfDirectory (dir : String) (s : Settings) :
    Reads (artifactOfDirectory dir s : ExceptT Error (StateM Tree) Artifact) fun t =>
      (Catalog.inDirectory dir t).mapError .catalog >>= fun c => artifact c s := by
  have hload := Catalog.reads_ofDirectory .asStored dir
  rw [Enumeration.fileSystem_asStored] at hload
  exact (hload.adapt Error.catalog).bind fun c => .ofExcept (artifact c s)

end Generate

namespace Command

def Generation.settle (g : Generation) (base : Settings) : Settings :=
  let base := { base with moduleName := g.moduleName, lang := g.lang.getD base.lang }
  match g.libraries with
  | some list => base.addLibraries list
  | none => base

def Generation.baseIn (g : Generation) (t : Tree) : Except Failure Settings :=
  match g.settings with
  | some path => (Generate.settingsIn path t).mapError (.settingsFile path)
  | none => .ok Settings.default

def Generation.settingsIn (g : Generation) (t : Tree) : Except Failure Settings := do
  let base ← g.baseIn t
  (g.settle base).check.mapError .settings
  return g.settle base

theorem reads_settingsOf (g : Generation) :
    Reads (settingsOf g : ExceptT Failure (StateM Tree) Settings) g.settingsIn := by
  have hsettle (base : Settings) : Reads (σ := Tree) (do
      ofExcept ((g.settle base).check.mapError Failure.settings)
      return g.settle base) fun _ => (g.settle base).check.mapError Failure.settings >>= fun _ =>
        .ok (g.settle base) :=
    (Reads.ofExcept _).bind fun _ => .pure _
  cases hsettings : g.settings with
  | some path =>
    have hbase : g.baseIn = fun t => (Generate.settingsIn path t).mapError (.settingsFile path) := by
      funext t
      rw [Generation.baseIn, hsettings]
    unfold settingsOf Generation.settingsIn
    rw [hsettings, hbase]
    exact ((Generate.reads_settingsOfFile path).adapt (Failure.settingsFile path)).bind hsettle
  | none =>
    have hbase : g.baseIn = fun _ => .ok Settings.default := by
      funext t
      rw [Generation.baseIn, hsettings]
    unfold settingsOf Generation.settingsIn
    rw [hsettings, hbase]
    exact (Reads.pure Settings.default).bind hsettle

def Generation.artifactIn (g : Generation) (t : Tree) : Except Failure Generate.Artifact := do
  let s ← g.settingsIn t
  let catalog := (Catalog.inDirectory g.documents t).mapError .catalog
  (catalog >>= fun c => Generate.artifact c s).mapError (.generate g.documents)

/-- What a generation does before it writes: it takes its settings, loads the documents and
generates the file. -/
def preparation (g : Generation) : ExceptT Failure (StateM Tree) Generate.Artifact := do
  let s ← settingsOf g
  ExceptT.adapt (.generate g.documents) (Generate.artifactOfDirectory g.documents s)

theorem reads_preparation (g : Generation) : Reads (preparation g) g.artifactIn :=
  (reads_settingsOf g).bind fun s => (Generate.reads_artifactOfDirectory g.documents s).adapt _

theorem runOn_generate (g : Generation) (t : Tree) :
    runOn (generate g : ExceptT Failure (StateM Tree) String) t =
      match g.artifactIn t with
      | .error e => (.error e, t)
      | .ok a => runOn (ExceptT.adapt (.write g.output) (a.write g.output)) t := by
  have hgenerate : (generate g : ExceptT Failure (StateM Tree) String) =
      preparation g >>= fun a => ExceptT.adapt (.write g.output) (a.write g.output) := by
    unfold generate preparation
    rw [bind_assoc]
  rw [hgenerate, runOn_bind, reads_preparation g t]
  cases g.artifactIn t <;> rfl

theorem isName_of_artifactIn {g : Generation} {t : Tree} {a : Generate.Artifact}
    (h : g.artifactIn t = .ok a) : Path.IsName a.fileName := by
  obtain ⟨s, _, h⟩ := bind_eq_ok.mp h
  obtain ⟨c, _, hc⟩ := bind_eq_ok.mp (mapError_eq_ok.mp h)
  exact Generate.isName_fileName hc

/-- A generation that cannot be prepared is an error and leaves all files as they are. One that
succeeds leaves the generated file as the only entry of the output directory, and outside of it
makes only the missing directories that lead there, if the output path never steps up. -/
theorem generate_files (g : Generation) (t : Tree) :
    ∃ prepared, runOn (preparation g) t = (prepared, t) ∧
      match prepared with
      | .error e => runOn (generate g) t = (.error e, t)
      | .ok a => ∀ path t', runOn (generate g) t = (.ok path, t') →
          path = Path.join g.output a.fileName ∧
            (Path.Straight g.output →
              t'.at? (Path.place g.output) =
                  some (.directory [(a.fileName, .file (Text.encodeUtf8 a.contents))]) ∧
                Tree.Spares (Path.place g.output) t t') := by
  refine ⟨g.artifactIn t, reads_preparation g t, ?_⟩
  rw [runOn_generate]
  cases hprepared : g.artifactIn t with
  | error e => rfl
  | ok a =>
    intro path t' h
    have hwrite := runOn_adapt_eq_ok.mp h
    obtain ⟨_, _, _, _, _, hpath⟩ := Generate.write_eq_ok.mp hwrite
    exact ⟨hpath, fun hs =>
      (Generate.write_straight hs (isName_of_artifactIn hprepared) hwrite).2⟩

def itemRecord : Record :=
  ⟨"Item", "demo", "demo-lib", [⟨"id", .single (.numeric .int), "i32"⟩]⟩

def itemText : String :=
  (Document.encode (.record itemRecord)).write

/-- A settings file, a directory with one document, and whatever else there is. -/
def itemTree (document : String) (others : List (String × Tree)) : Tree :=
  .directory
    (("bind.toml", .file (Text.encodeUtf8 "indent = 2\n")) ::
      ("ast", .directory [("item.json", .file (Text.encodeUtf8 document))]) :: others)

def staleTree (document : String) : Tree :=
  itemTree document [("out", .directory [("stale.txt", .file [])])]

def itemGeneration (output : String) : Generation where
  documents := "ast"
  moduleName := "demo"
  output := output
  lang := none
  settings := some "bind.toml"
  libraries := none

def itemSettings : Settings :=
  { Settings.forModule "demo" with indent := 2 }

-- The document stays a variable as long as it can: what a run does with the tree is found by
-- computing, and the text that is written for the record is not to be computed along with it.
theorem settingsIn_item (document output : String) :
    (itemGeneration output).settingsIn (staleTree document) = .ok itemSettings := by
  let base : Settings := { Settings.default with indent := 2 }
  have hbase : (itemGeneration output).baseIn (staleTree document) = .ok base := by
    have htext : (staleTree document).textOf "bind.toml" = .ok "indent = 2\n" := by
      have hread : (staleTree document).read "bind.toml" =
          .ok (Text.encodeUtf8 "indent = 2\n") := rfl
      rw [Tree.textOf, hread, ok_bind, Text.decodeUtf8_eq_ok.mpr rfl]
      rfl
    have hread : Settings.ofText "indent = 2\n" = .ok base := by decide +kernel
    show Except.mapError _ (Generate.settingsIn "bind.toml" (staleTree document)) = _
    rw [Generate.settingsIn, htext]
    show Except.mapError _ (Except.mapError _ (Settings.ofText _)) = _
    rw [hread]
    rfl
  have hcheck : ((itemGeneration output).settle base).check = .ok () :=
    (by decide : itemSettings.check = .ok ())
  rw [Generation.settingsIn, hbase, ok_bind, hcheck]
  rfl

theorem inDirectory_item {document : String} {entity : Entity}
    (h : Document.ofText document = .ok entity) :
    Catalog.inDirectory "ast" (staleTree document) =
      (Catalog.ofEntities [entity]).check >>= fun _ => .ok (Catalog.ofEntities [entity]) := by
  have hpaths : Document.pathsIn "ast" (staleTree document) = .ok ["ast/item.json"] := by
    have hentries : (staleTree document).entries "ast" = .ok [⟨"item.json", true⟩] := rfl
    have hjoin : Path.join "ast" "item.json" = "ast/item.json" := by decide
    have hextension : Path.hasExtension "json" "item.json" = true := by decide
    rw [Document.pathsIn, hentries]
    simp [Except.mapError, Except.map, Document.paths, hextension, hjoin]
  have hentity : Document.entityIn "ast/item.json" (staleTree document) = .ok entity := by
    have hread : (staleTree document).read "ast/item.json" = .ok (Text.encodeUtf8 document) := rfl
    rw [Document.entityIn_eq_bind, Tree.textOf, hread, ok_bind, Text.decodeUtf8_eq_ok.mpr rfl]
    exact mapError_eq_ok.mpr h
  rw [Catalog.inDirectory, hpaths, ok_bind, Catalog.ofPaths, List.mapM_cons, hentity, ok_bind,
    List.mapM_nil]
  rfl

theorem artifactIn_item (output : String) :
    ∃ contents, (itemGeneration output).artifactIn (staleTree itemText) =
      .ok ⟨"demo.swift", contents⟩ := by
  have hload : Catalog.inDirectory "ast" (staleTree itemText) = .ok ⟨[], [itemRecord]⟩ := by
    have hagrees : (Entity.record itemRecord).Agrees := by
      simp [itemRecord, Entity.Agrees, Slot.Agrees, BoundaryType.Agrees]
    exact inDirectory_item (Document.ofText_encode hagrees)
  obtain ⟨f, contents, hf, _, ha⟩ := Generate.artifact_of_checks
    (c := ⟨[], [itemRecord]⟩) (s := itemSettings) (by decide) rfl (by decide)
  rw [Generate.file_name hf] at ha
  refine ⟨contents, ?_⟩
  rw [Generation.artifactIn, settingsIn_item, ok_bind]
  show (Except.mapError _ (Catalog.inDirectory "ast" (staleTree itemText)) >>= _).mapError _ = _
  rw [hload]
  exact congrArg (Except.mapError _) ha

theorem generate_item {output : String} {t₁ t₂ : Tree} {left : List UInt8 → Tree}
    (hremoved : if (staleTree itemText).exists? output then
        (staleTree itemText).removeDirectory output = (.ok (), t₁)
      else t₁ = staleTree itemText)
    (hmade : ((makeDirectories output : StateM Tree _).run t₁).run = (.ok (), t₂))
    (hwrite : ∀ octets,
      t₂.write (Path.join output "demo.swift") octets = (.ok (), left octets)) :
    ∃ contents,
      (itemGeneration output).artifactIn (staleTree itemText) = .ok ⟨"demo.swift", contents⟩ ∧
      runOn (generate (itemGeneration output)) (staleTree itemText) =
        (.ok (Path.join output "demo.swift"), left (Text.encodeUtf8 contents)) := by
  obtain ⟨contents, ha⟩ := artifactIn_item output
  refine ⟨contents, ha, ?_⟩
  rw [runOn_generate, ha]
  exact runOn_adapt_eq_ok.mpr
    (Generate.write_eq_ok.mpr ⟨t₁, t₂, hremoved, hmade, hwrite _, rfl⟩)

/-- What stood in the output directory is gone, and the document is as it was. -/
theorem generate_files_replaced : ∃ octets t',
    runOn (generate (itemGeneration "./out/")) (staleTree itemText) =
        (.ok "./out/demo.swift", t') ∧
      t'.at? ["out"] = some (.directory [("demo.swift", .file octets)]) ∧
      t'.kindAt ["ast", "item.json"] = .file (Text.encodeUtf8 itemText) := by
  have hremoved (document : String) :
      if (staleTree document).exists? "./out/" then
        (staleTree document).removeDirectory "./out/" = (.ok (), itemTree document [])
      else itemTree document [] = staleTree document := by
    have hfound : (staleTree document).exists? "./out/" = true := rfl
    rw [if_pos hfound]
    rfl
  have hmade (document : String) :
      ((makeDirectories "./out/" : StateM Tree _).run (itemTree document [])).run =
        (.ok (), itemTree document [("out", .directory [])]) := rfl
  have hwrite (document : String) (octets : List UInt8) :
      (itemTree document [("out", .directory [])]).write (Path.join "./out/" "demo.swift") octets =
        (.ok (), itemTree document [("out", .directory [("demo.swift", .file octets)])]) := rfl
  have hkind (document : String) :
      (staleTree document).kindAt ["ast", "item.json"] = .file (Text.encodeUtf8 document) := rfl
  obtain ⟨contents, ha, hrun⟩ := generate_item (hremoved _) (hmade _) (hwrite _)
  obtain ⟨prepared, hprepared, hfiles⟩ :=
    generate_files (itemGeneration "./out/") (staleTree itemText)
  obtain rfl : Except.ok _ = prepared := by
    rw [reads_preparation, ha] at hprepared
    exact (Prod.mk.inj hprepared).1
  obtain ⟨_, hstraight⟩ := hfiles _ _ hrun
  obtain ⟨hout, hspares⟩ := hstraight (by decide)
  refine ⟨_, _, hrun, hout, ?_⟩
  -- outside of the directory nothing has changed
  rcases hspares ["ast", "item.json"] (by decide) with hsame | ⟨hstart, _⟩
  · exact hsame.trans (hkind _)
  · exact absurd hstart (by decide)

/-- A path that steps up out of a missing directory leads around the removal: the directory it is
about to reach is not found, so what stands in it stays next to the generated file. -/
theorem generate_files_around : ∃ octets t',
    runOn (generate (itemGeneration "new/../out")) (staleTree itemText) =
        (.ok "new/../out/demo.swift", t') ∧
      t'.find "new/../out" = .ok ["out"] ∧
      t'.at? ["out"] =
        some (.directory [("stale.txt", .file []), ("demo.swift", .file octets)]) := by
  -- `new` is missing, so the directory behind it is not found and keeps what it holds
  have hremoved (document : String) :
      if (staleTree document).exists? "new/../out" then
        (staleTree document).removeDirectory "new/../out" = (.ok (), staleTree document)
      else staleTree document = staleTree document := by
    have hmissing : ¬ (staleTree document).exists? "new/../out" = true := Bool.false_ne_true
    rw [if_neg hmissing]
  let made (document : String) (entries : List (String × Tree)) : Tree :=
    itemTree document
      [("out", .directory (("stale.txt", .file []) :: entries)), ("new", .directory [])]
  have hmade (document : String) :
      ((makeDirectories "new/../out" : StateM Tree _).run (staleTree document)).run =
        (.ok (), made document []) := rfl
  have hwrite (document : String) (octets : List UInt8) :
      (made document []).write (Path.join "new/../out" "demo.swift") octets =
        (.ok (), made document [("demo.swift", .file octets)]) := rfl
  have hfind (document : String) (octets : List UInt8) :
      (made document [("demo.swift", .file octets)]).find "new/../out" = .ok ["out"] := rfl
  obtain ⟨contents, _, hrun⟩ := generate_item (hremoved _) (hmade _) (hwrite _)
  exact ⟨Text.encodeUtf8 contents, _, hrun, hfind _ _, rfl⟩

end Command

end HostBindings
