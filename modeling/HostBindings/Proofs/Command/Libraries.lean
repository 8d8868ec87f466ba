import HostBindings.Proofs.Command.Run
import Mathlib.Data.List.DropRight

/-!
Libraries on their way from the settings file and the command line into the generated loaders. What
is blank is dropped and the rest trimmed, once where a list is appended and once where the libraries
are read; the second time changes nothing for those that have been through the first.
-/

namespace HostBindings

/-! ### Trimming -/

namespace Text

theorem trimChars_eq_nil {cs : List Char} : trimChars cs = [] ↔ ∀ c ∈ cs, isBlank c = true := by
  show List.rdropWhile isBlank (cs.dropWhile isBlank) = [] ↔ _
  rw [List.rdropWhile_eq_nil_iff]
  constructor
  · intro h
    by_contra hsome
    -- the first character that is left is not blank
    have hne : cs.dropWhile isBlank ≠ [] := fun hnil => hsome (List.dropWhile_eq_nil_iff.mp hnil)
    have hhead := List.head_dropWhile_not isBlank hne
    rw [h _ (List.head_mem hne)] at hhead
    cases hhead
  · exact fun h c hc => h c ((List.dropWhile_sublist isBlank).subset hc)

theorem trim_eq_empty {s : String} : trim s = "" ↔ isBlankText s = true := by
  rw [← String.toList_eq_nil_iff, trim, String.toList_ofList, trimChars_eq_nil, isBlankText,
    List.all_eq_true]

theorem trimChars_trimChars (cs : List Char) : trimChars (trimChars cs) = trimChars cs := by
  -- what is left begins as the text without the white space before it
  have hfront : (trimChars cs).dropWhile isBlank = trimChars cs := by
    rw [List.dropWhile_eq_self_iff]
    intro hlength
    have hrest := List.dropWhile_eq_self_iff.mp (List.dropWhile_idempotent isBlank cs)
    have hpre : trimChars cs <+: cs.dropWhile isBlank := List.rdropWhile_prefix isBlank _
    rw [hpre.getElem hlength]
    exact hrest (hlength.trans_le hpre.length_le)
  show List.rdropWhile isBlank ((trimChars cs).dropWhile isBlank) = trimChars cs
  rw [hfront]
  exact List.rdropWhile_idempotent isBlank _

theorem trim_trim (s : String) : trim (trim s) = trim s := by
  rw [trim, trim, String.toList_ofList, trimChars_trimChars]

end Text

/-! ### Lists of libraries -/

namespace Settings

open HostBindings.Text

def kept (entries : List String) : List String :=
  (entries.filter fun e => !isBlankText e).map trim

theorem trimmed_eq_kept (entries : List String) : trimmed entries = kept entries := by
  rw [trimmed, kept, List.filter_map]
  congr 1
  apply List.filter_congr
  intro e _
  rw [Bool.eq_iff_iff]
  simp [trim_eq_empty]

theorem kept_append (before after : List String) :
    kept (before ++ after) = kept before ++ kept after := by
  rw [kept, List.filter_append, List.map_append, kept, kept]

/-- Entries that have been kept are kept as they are. -/
theorem kept_kept (entries : List String) : kept (kept entries) = kept entries := by
  have hfilter : (kept entries).filter (fun e => !isBlankText e) = kept entries := by
    rw [List.filter_eq_self]
    intro e he
    obtain ⟨entry, hentry, rfl⟩ := List.mem_map.mp he
    have hblank := (List.mem_filter.mp hentry).2
    rw [Bool.not_eq_true', ← Bool.not_eq_true, ← trim_eq_empty] at hblank ⊢
    rwa [trim_trim]
  have hmap : (kept entries).map trim = kept entries := by
    rw [kept, List.map_map]
    exact List.map_congr_left fun e _ => trim_trim e
  rw [kept, hfilter, hmap]

/-- A text lists its entries with commas between them. Without a text there are none. -/
def Lists : Option String → List String → Prop
  | none, entries => entries = []
  | some text, entries =>
    entries ≠ [] ∧ (∀ e ∈ entries, ',' ∉ e.toList) ∧ text = ",".intercalate entries

theorem addLibraries_eq {text : String} {entries : List String} (h : Lists (some text) entries)
    (s : Settings) :
    s.addLibraries text = { s with extraLibraries := s.extraLibraries ++ kept entries } := by
  rw [addLibraries, splitAtChar_eq_iff.mpr h, trimmed_eq_kept]

theorem exists_lists (text : String) : ∃ entries, Lists (some text) entries :=
  ⟨_, splitAtChar_eq_iff.mp rfl⟩

/-- Two lists with a comma between them list the entries of both. -/
theorem Lists.append {a b : String} {before after : List String} (ha : Lists (some a) before)
    (hb : Lists (some b) after) : Lists (some (a ++ "," ++ b)) (before ++ after) := by
  have hparts : (splitAtChar (· == ',') (a ++ "," ++ b).toList).map String.ofList =
      before ++ after := by
    have htext : (a ++ "," ++ b).toList = a.toList ++ ',' :: b.toList := by simp
    rw [htext, splitAtChar_append _ _ (c := ',') rfl, List.map_append, splitAtChar_eq_iff.mpr ha,
      splitAtChar_eq_iff.mpr hb]
  exact splitAtChar_eq_iff.mp hparts

theorem addLibraries_addLibraries (s : Settings) (a b : String) :
    (s.addLibraries a).addLibraries b = s.addLibraries (a ++ "," ++ b) := by
  obtain ⟨before, ha⟩ := exists_lists a
  obtain ⟨after, hb⟩ := exists_lists b
  rw [addLibraries_eq ha, addLibraries_eq hb, addLibraries_eq (ha.append hb), kept_append,
    List.append_assoc]

theorem mainLibrary_eq (s : Settings) (package : String) :
    s.mainLibrary package =
      s.libraryName.getD (package.map fun c => if c = '-' ∨ c = '.' then '_' else c) := by
  have hsymbol : Naming.toSymbol package =
      package.map fun c => if c = '-' ∨ c = '.' then '_' else c := by
    rw [← String.toList_inj]
    simp [Naming.toSymbol]
  rw [mainLibrary, hsymbol]

end Settings

/-! ### Loaders -/

namespace Generate

open HostBindings.Code

def isLoader : Member → Bool
  | .func fn => fn.kind = .loader
  | _ => false

section Service

variable {lang : Lang} {ctx : Context} {i : Interface} {callback : String}

theorem isLoader_trampoline (name : String) (params : List Param) (returns : Option TypeRef)
    (body : Block) : isLoader (lang.trampoline name params returns body) = false := by
  cases lang <;> rfl

theorem isLoader_nativeDeclaration {name : String} {visibility : Modifier} {params : List Param}
    {returns : Option TypeRef} {fn : Func}
    (h : lang.nativeDeclaration? name visibility params returns = some fn) :
    isLoader (.func fn) = false := by
  cases lang with
  | swift => cases h
  | kotlin =>
    cases h
    rfl

theorem isLoader_trampolines {ts : List Member} (h : trampolines lang ctx callback = .ok ts) :
    ∀ d ∈ ts, isLoader d = false := by
  obtain ⟨j, _, hmembers⟩ := trampolines_cases h
  intro d hd
  cases hmembers d hd with
  | method _ _ _ => exact isLoader_trampoline ..
  | release => exact isLoader_trampoline ..

/-- The only code that runs when a service is loaded is what the language has for it. -/
theorem filter_isLoader {proxies : List String} {funcs : List (Func × Option Func)}
    {taken : List (List Member)} {made : List (TypeDecl × List Func)}
    (hs : ServiceParts lang ctx i proxies funcs taken made) :
    (serviceMembers lang ctx funcs taken made).filter isLoader =
      (lang.loader? ctx).toList.map .func := by
  have hloader : ((lang.loader? ctx).toList.map Member.func).filter isLoader =
      (lang.loader? ctx).toList.map .func := by
    cases lang <;> rfl
  have hmethods : (funcs.map (Member.func ·.1)).filter isLoader = [] := by
    rw [List.filter_eq_nil_iff, List.forall_mem_map]
    intro r hr
    obtain ⟨m, _, hok⟩ := forall₂_exists_left hs.methods hr
    obtain ⟨p, body, _, _, rfl⟩ := serviceMethod_eq_ok.mp hok
    rw [Bool.not_eq_true]
    rfl
  have htaken : taken.flatten.filter isLoader = [] := by
    rw [List.filter_eq_nil_iff]
    intro d hd
    obtain ⟨ts, hts, hd⟩ := List.mem_flatten.mp hd
    obtain ⟨cb, _, hok⟩ := forall₂_exists_left hs.taken hts
    simp [isLoader_trampolines hok d hd]
  have hnatives : ((funcs.filterMap (·.2) ++ made.flatMap (·.2)).map Member.func).filter isLoader =
      [] := by
    rw [List.filter_eq_nil_iff, List.forall_mem_map]
    intro fn hfn
    obtain ⟨_, _, _, _, h⟩ := (hs.native_of_mem hfn).declaration
    simp [isLoader_nativeDeclaration h]
  -- of the four parts of the members only the first one is left
  rw [serviceMembers, List.filter_append, List.filter_append, List.filter_append, hloader,
    hmethods, htaken, hnatives, List.append_nil, List.append_nil, List.append_nil]

end Service

def loadingLines (libraries : List String) : List Layout.Event :=
  [.line "init \x7b", .push] ++
    libraries.map (fun library => .line ("System.loadLibrary(\"" ++ library ++ "\")")) ++
      [.pop, .line "\x7d"]

theorem events_loader (c : Catalog) (s : Settings) (i : Interface) :
    (Layout.memberPiece .kotlin (.func (Kotlin.loader (.ofInterface c s i)))).events =
      loadingLines (s.mainLibrary i.package :: s.furtherLibraries) := by
  have hitems (libraries : List String) :
      Layout.itemsEvents .kotlin (libraries.map fun l => .stmt (.loadLibrary l)) =
        libraries.map fun library => .line ("System.loadLibrary(\"" ++ library ++ "\")") := by
    induction libraries with
    | nil => rfl
    | cons l libraries ih => exact congrArg (List.cons _) ih
  show [Layout.Event.line _, .push] ++ Layout.itemsEvents .kotlin _ ++ _ = _
  rw [hitems]
  rfl

/-- The types that hold static members are the services. -/
theorem holder_mem_members {c : Catalog} {s : Settings} {f : SourceFile} (h : file c s = .ok f)
    {head : TypeHead} {members : List Member} (hmem : .type head members ∈ f.members)
    (hkind : head.kind = .holder) : ∃ i proxies funcs taken made,
      HasService c s i proxies funcs taken made ∧ head = serviceHead i ∧
        members = serviceMembers s.lang (.ofInterface c s i) funcs taken made := by
  rcases (mem_members h).mp hmem with hd | ⟨r, _, hd⟩ | ⟨i, _, hd⟩ |
    ⟨i, proxies, funcs, taken, made, hs, hd | ⟨r, hr, hd⟩⟩
  · obtain ⟨_, hd | ⟨i, _, hd⟩⟩ := mem_registries.mp hd
    · cases hl : s.lang <;> rw [hl] at hd <;> cases hd <;> cases hkind
    · cases hd
  · cases hl : s.lang <;> rw [hl] at hd <;> cases hd <;> cases hkind
  · cases hd
    cases hkind
  · cases hd
    exact ⟨i, proxies, funcs, taken, made, hs, rfl, rfl⟩
  · obtain ⟨cb, _, hok⟩ := forall₂_exists_left hs.parts.made hr
    obtain ⟨j, fs, _, _, rfl⟩ := proxy_eq_ok.mp hok
    cases hd
    cases hkind

end Generate

/-! ### Runs -/

namespace Command

open HostBindings.Code HostBindings.Settings HostBindings.Files

/-- The settings of a run are those of its base with what the command line sets. -/
theorem settingsOf_eq_ok {g : Generation} {t : Tree} {s : Settings}
    (h : runOn (settingsOf g : ExceptT Failure (StateM Tree) Settings) t = (.ok s, t)) :
    ∃ base, g.baseIn t = .ok base ∧ s = g.settle base := by
  rw [reads_settingsOf g t] at h
  obtain ⟨base, hbase, h⟩ := bind_eq_ok.mp (Prod.mk.inj h).1
  obtain ⟨_, _, h⟩ := bind_eq_ok.mp h
  exact ⟨base, hbase, (pure_eq_ok.mp h).symm⟩

theorem settle_libraries {g : Generation} {entries : List String}
    (h : Lists g.libraries entries) (base : Settings) :
    (g.settle base).libraryName = base.libraryName ∧
      (g.settle base).furtherLibraries = kept base.extraLibraries ++ kept entries := by
  unfold Generation.settle
  cases hlist : g.libraries with
  | none =>
    rw [hlist] at h
    obtain rfl : entries = [] := h
    refine ⟨rfl, ?_⟩
    show trimmed base.extraLibraries = _ ++ []
    rw [trimmed_eq_kept, List.append_nil]
  | some text =>
    rw [hlist] at h
    refine ⟨rfl, ?_⟩
    show (Settings.addLibraries _ text).furtherLibraries = _
    rw [addLibraries_eq h, furtherLibraries, trimmed_eq_kept, kept_append, kept_kept]

/-- Appending one list of libraries and then another appends both with a comma between them. In the
file that a run generates for Kotlin, the only code of a service that runs on loading is one block.
It loads the library that is configured, or else the one that the package exports, then each entry
of the settings file that is not blank, and then each such entry of the command line, all in their
order and trimmed. -/
theorem libraries_loaded :
    (∀ (s : Settings) (a b : String),
      (s.addLibraries a).addLibraries b = s.addLibraries (a ++ "," ++ b)) ∧
    ∀ (g : Generation) (entries : List String) (t : Tree) (s : Settings) (c : Catalog)
      (a : Generate.Artifact), Lists g.libraries entries →
      runOn (settingsOf g : ExceptT Failure (StateM Tree) Settings) t = (.ok s, t) →
      s.lang = .kotlin → Generate.artifact c s = .ok a →
      ∃ base f, g.baseIn t = .ok base ∧ Generate.file c s = .ok f ∧
        Layout.renderFile .kotlin s.indent f = .ok a.contents ∧
        (∀ i ∈ c.services, ∃ members, .type (Generate.serviceHead i) members ∈ f.members) ∧
        ∀ head members, .type head members ∈ f.members → head.kind = .holder →
          ∃ i ∈ c.services, head = Generate.serviceHead i ∧
            (members.filter Generate.isLoader).map (fun d => (Layout.memberPiece .kotlin d).events) =
              [Generate.loadingLines
                ((base.libraryName.getD
                    (i.package.map fun c => if c = '-' ∨ c = '.' then '_' else c)) ::
                  kept base.extraLibraries ++ kept entries)] := by
  refine ⟨addLibraries_addLibraries, fun g entries t s c a hentries hs hlang ha => ?_⟩
  obtain ⟨base, hbase, rfl⟩ := settingsOf_eq_ok hs
  obtain ⟨_, _, f, hf, hcontents⟩ := Generate.artifact_eq_ok ha
  obtain ⟨hmain, hfurther⟩ := settle_libraries hentries base
  rw [hlang] at hcontents
  refine ⟨base, f, hbase, hf, hcontents, fun i hi => ?_, fun head members hmem hkind => ?_⟩
  · obtain ⟨proxies, funcs, taken, made, hservice⟩ := Generate.exists_hasService hf hi
    exact ⟨_, Generate.service_mem_members hf hservice⟩
  · obtain ⟨i, proxies, funcs, taken, made, hservice, rfl, rfl⟩ :=
      Generate.holder_mem_members hf hmem hkind
    refine ⟨i, (Generate.mem_proxyClaims hservice.claim).1, rfl, ?_⟩
    rw [Generate.filter_isLoader hservice.parts, hlang]
    show [(Layout.memberPiece .kotlin (.func (Kotlin.loader _))).events] = _
    rw [Generate.events_loader, hfurther, mainLibrary_eq, hmain]
    rfl

/-- A settings file with a blank library, and one whose name has a comma in it. -/
def settingsTree : Tree :=
  .directory [("bind.toml", .file (Text.encodeUtf8
    "lang = 'kotlin'\nextra_libraries = [' ssl', '\t', 'a,b']\n"))]

def listGeneration : Generation where
  documents := "ast"
  moduleName := "demo"
  output := "out"
  lang := none
  settings := some "bind.toml"
  libraries := some "z ,,\u2003ssl,z"

def storeCatalog : Catalog where
  interfaces :=
    [{ name := "Store", module := "demo", package := "demo-lib.x", isCallback := false,
       methods := [] }]
  records := []

theorem libraries_loaded_settings : ∃ s f head members,
    runOn (settingsOf listGeneration : ExceptT Failure (StateM Tree) Settings) settingsTree =
        (.ok s, settingsTree) ∧
      Generate.file storeCatalog s = .ok f ∧ .type head members ∈ f.members ∧
      head.name = "Store" ∧
      (members.filter Generate.isLoader).map (fun d => (Layout.memberPiece .kotlin d).events) =
        [Generate.loadingLines ["demo_lib_x", "ssl", "a,b", "z", "ssl", "z"]] := by
  let base : Settings :=
    { Settings.default with lang := .kotlin, extraLibraries := [" ssl", "\t", "a,b"] }
  have hbase : listGeneration.baseIn settingsTree = .ok base := by
    have htext : settingsTree.textOf "bind.toml" =
        .ok "lang = 'kotlin'\nextra_libraries = [' ssl', '\t', 'a,b']\n" := by
      decide +kernel
    have hread : Settings.ofText "lang = 'kotlin'\nextra_libraries = [' ssl', '\t', 'a,b']\n" =
        .ok base := by
      decide +kernel
    show (Except.mapError _ (Generate.settingsIn "bind.toml" settingsTree)) = _
    rw [Generate.settingsIn, htext]
    show Except.mapError _ (Except.mapError _ (Settings.ofText _)) = _
    rw [hread]
    rfl
  have hcheck : (listGeneration.settle base).check = .ok () := by decide +kernel
  have hs : runOn (settingsOf listGeneration : ExceptT Failure (StateM Tree) Settings)
      settingsTree = (.ok (listGeneration.settle base), settingsTree) := by
    rw [reads_settingsOf, Generation.settingsIn, hbase, ok_bind, hcheck]
    rfl
  have hentries : Lists listGeneration.libraries ["z ", "", "\u2003ssl", "z"] :=
    ⟨by decide, by decide, by decide +kernel⟩
  obtain ⟨_, contents, _, _, ha⟩ := Generate.artifact_of_checks (c := storeCatalog) hcheck
    (by decide) (by decide +kernel)
  -- from here on it is the general statement that says what the file loads
  obtain ⟨base', f, hbase', hf, _, hservices, hloaders⟩ :=
    libraries_loaded.2 _ _ _ _ _ _ hentries hs (by decide +kernel) ha
  obtain rfl : base = base' := Except.ok.inj (hbase.symm.trans hbase')
  obtain ⟨members, hmembers⟩ := hservices _ List.mem_cons_self
  obtain ⟨i, hi, _, hlines⟩ := hloaders _ members hmembers rfl
  obtain rfl := List.mem_singleton.mp hi
  refine ⟨_, f, _, members, hs, hf, hmembers, rfl, hlines.trans ?_⟩
  decide +kernel

end Command

end HostBindings
