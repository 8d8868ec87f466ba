import HostBindings.Proofs.Generate.Carried
import HostBindings.Proofs.Generate.Closed
import HostBindings.Proofs.Generate.Json
import HostBindings.Proofs.Generate.Made
import HostBindings.Proofs.Generate.Ownership
import HostBindings.Proofs.Generate.Sides
import HostBindings.Proofs.Layout.Imports

/-!
The imports of generated files. In Swift they are the same for all catalogs. In Kotlin each of them
is there for something that the file has: statements that encode or decode JSON, records, registries
and proxies.
-/

namespace HostBindings

open HostBindings.Code

/-! ### What statements need -/

namespace Kotlin

def jsonImports : Direction → List String
  | .entry => [jsonObject, "kotlinx.serialization.encodeToString"]
  | .exit => [jsonObject, "kotlinx.serialization.decodeFromString"]

/-- What deals with no raw memory needs imports for JSON and for nothing else. -/
theorem mem_stmtImports {st : Stmt} {x : String} (h : st.isRaw = false) :
    x ∈ stmtImports st ↔ ∃ d, st.json? = some d ∧ x ∈ jsonImports d := by
  have hexpr : ∀ e : Expr, e.isRaw = false →
      (x ∈ exprImports e ↔ ∃ d, e.json? = some d ∧ x ∈ jsonImports d) := by
    intro e he
    cases e with
    | duplicate => cases he
    | _ => simp [exprImports, jsonImports]
  cases st with
  | bind y e => exact hexpr e h
  | run e => exact hexpr e h
  | _ => simp [stmtImports]

end Kotlin

namespace Generate

variable {lang : Lang} {c : Catalog} {s : Settings} {f : SourceFile} {d : Member} {x : String}

/-! ### What code records -/

def Faithful (lang : Lang) (d : Member) : Prop :=
  ∀ x, (∃ b, d.Holds b ∧ b.Records x) ↔ ∃ st, .stmt st ∈ d.leaves ∧ x ∈ lang.stmtImports st

theorem records_block {stmts : List Stmt} :
    (lang.block stmts).Records x ↔ ∃ st, .stmt st ∈ (lang.block stmts).leaves ∧
      x ∈ lang.stmtImports st := by
  rw [← Block.mem_allImports, Block.allImports, Block.leaves_block]
  show x ∈ stmts.flatMap lang.stmtImports ++ Item.importsOfList (stmts.map .stmt) ↔ _
  rw [Item.importsOfList_stmts, List.append_nil, List.mem_flatMap]
  simp

theorem faithful_block {stmts : List Stmt} (hholds : ∀ b, d.Holds b ↔ b = lang.block stmts)
    (hleaves : d.leaves = stmts.map .stmt) : Faithful lang d := by
  intro x
  simp only [hholds, exists_eq_left]
  rw [records_block, Block.leaves_block, hleaves]

theorem faithful_func {fn : Func} {stmts : List Stmt} (h : fn.body = some (lang.block stmts)) :
    Faithful lang (.func fn) := by
  have hleaves : (Member.func fn).leaves = stmts.map .stmt := by
    rw [Member.leaves, Func.leaves, h]
    exact Block.leaves_block lang stmts
  refine faithful_block (fun b => ⟨fun hb => ?_, fun hb => hb ▸ .body h⟩) hleaves
  cases hb with
  | body hb => exact Option.some.inj (hb.symm.trans h)

theorem faithful_trampoline (name : String) (params : List Param) (returns : Option TypeRef)
    (stmts : List Stmt) :
    Faithful lang (lang.trampoline name params returns (lang.block stmts)) := by
  refine faithful_block (fun b => ?_) (leaves_trampoline name params returns stmts)
  cases lang with
  | swift =>
    refine ⟨fun hb => ?_, fun hb => hb ▸ .closure rfl⟩
    cases hb with
    | closure hb => cases hb; rfl
  | kotlin =>
    refine ⟨fun hb => ?_, fun hb => hb ▸ .body rfl⟩
    cases hb with
    | body hb => cases hb; rfl

/-- Code that records nothing, and whose statements need nothing. -/
theorem faithful_plain (hholds : ∀ b, d.Holds b → b.allImports = [])
    (hleaves : ∀ st, .stmt st ∈ d.leaves → lang.stmtImports st = []) : Faithful lang d := by
  intro x
  constructor
  · rintro ⟨b, hb, hx⟩
    rw [← Block.mem_allImports, hholds b hb] at hx
    cases hx
  · rintro ⟨st, hst, hx⟩
    rw [hleaves st hst] at hx
    cases hx

theorem faithful_bare {fn : Func} (h : fn.body = none) : Faithful lang (.func fn) := by
  refine faithful_plain (fun b hb => ?_) fun st hst => ?_
  · cases hb with
    | body hb => rw [h] at hb; cases hb
  · rw [Member.leaves, Func.leaves, h] at hst
    cases hst

theorem faithful_type {head : TypeHead} {members : List Member}
    (h : ∀ d ∈ members, Faithful lang d) : Faithful lang (.type head members) := by
  intro x
  rw [Member.holds_type]
  simp only [Member.mem_leaves_type]
  constructor
  · rintro ⟨d, hd, hx⟩
    obtain ⟨st, hst, hx⟩ := (h d hd x).mp hx
    exact ⟨st, ⟨d, hd, hst⟩, hx⟩
  · rintro ⟨st, ⟨d, hd, hst⟩, hx⟩
    exact ⟨d, hd, (h d hd x).mpr ⟨st, hst, hx⟩⟩

/-- Code of statements that need nothing. -/
theorem faithful_runs (hholds : ∀ b, d.Holds b → b.allImports = [])
    (hruns : d.Runs fun st => lang.stmtImports st = []) : Faithful lang d := by
  refine faithful_plain hholds fun st hst => ?_
  obtain ⟨_, hitem, hnone⟩ := hruns _ hst
  cases hitem
  exact hnone

theorem faithful_registryType : Faithful lang lang.registryType := by
  have hholds : ∀ b, lang.registryType.Holds b → b.allImports = [] := by
    intro b hb
    cases lang with
    | swift =>
      cases hb with
      | inside hm hb =>
        simp only [List.mem_cons, List.not_mem_nil, or_false] at hm
        rcases hm with rfl | rfl | rfl | rfl | rfl | rfl
        all_goals
          cases hb with
          | _ hb => cases hb <;> rfl
    | kotlin =>
      cases hb with
      | inside hm hb =>
        simp only [List.mem_cons, List.not_mem_nil, or_false] at hm
        rcases hm with rfl | rfl | rfl | rfl | rfl
        all_goals
          cases hb with
          | _ hb => cases hb <;> rfl
  exact faithful_plain hholds fun st hst => absurd hst (stmt_notMem_registryType lang st)

theorem faithful_registryField (callback : String) :
    Faithful lang (.field (lang.registryField callback)) := by
  refine faithful_plain (fun b hb => ?_) fun st hst => ?_
  · cases hb with
    | closure hb => cases lang <;> cases hb
  · cases lang <;> cases hst

theorem faithful_loader {ctx : Context} {fn : Func} (h : lang.loader? ctx = some fn) :
    Faithful lang (.func fn) := by
  cases lang with
  | swift => cases h
  | kotlin =>
    refine faithful_runs (fun b hb => ?_) (runs_loader h fun _ => rfl)
    cases h
    cases hb with
    | body hb =>
      cases hb
      have hnone := Item.importsOfList_stmts
        ((ctx.settings.mainLibrary ctx.package :: ctx.settings.furtherLibraries).map .loadLibrary)
      rw [List.map_map] at hnone
      exact hnone

theorem faithful_nativeDeclaration {name : String} {visibility : Modifier} {params : List Param}
    {returns : Option TypeRef} {fn : Func}
    (h : lang.nativeDeclaration? name visibility params returns = some fn) :
    Faithful lang (.func fn) := by
  cases lang with
  | swift => cases h
  | kotlin =>
    cases h
    exact faithful_bare rfl

theorem faithful_proxyRelease {ctx : Context} {callback : String}
    (h : d ∈ lang.proxyRelease (.stmt (releaseCall ctx callback))) : Faithful lang d := by
  have hcall : lang.stmtImports (releaseCall ctx callback) = [] := by cases lang <;> rfl
  refine faithful_runs (fun b hb => ?_) (runs_proxyRelease hcall d h)
  cases lang with
  | swift =>
    rw [List.mem_singleton.mp h] at hb
    cases hb with
    | body hb => cases hb; rfl
  | kotlin =>
    rcases List.mem_cons.mp h with rfl | h
    · cases hb with
      | closure hb => cases hb
    · rw [List.mem_singleton.mp h] at hb
      cases hb with
      | body hb => cases hb; rfl

theorem Made.faithful (h : Made c s d) : Faithful s.lang d := by
  induction h with
  | registryType => exact faithful_registryType
  | registry => exact faithful_registryField _
  | declared => exact faithful_bare rfl
  | called => exact faithful_func rfl
  | trampoline => exact faithful_trampoline _ _ _ _
  | releaseTrampoline => exact faithful_trampoline _ _ _ _
  | loader _ h => exact faithful_loader h
  | native _ _ _ _ _ _ h => exact faithful_nativeDeclaration h
  | releaseDecl _ _ h => exact faithful_nativeDeclaration h
  | proxyRelease _ _ h => exact faithful_proxyRelease h
  | type _ _ ih => exact faithful_type ih

/-- A generated file imports what it is given, what its references carry and what its statements
need. -/
theorem mem_imports_file (hf : file c s = .ok f) :
    x ∈ f.allImports ↔
      x ∈ s.lang.fileImports s ∨ f.Carries x ∨ ∃ st, f.HasStmt st ∧ x ∈ s.lang.stmtImports st := by
  have himports : f.imports = s.lang.fileImports s := by
    obtain ⟨types, _, rfl⟩ := file_eq_ok.mp hf
    rfl
  rw [SourceFile.mem_allImports, himports]
  refine or_congr_right (or_congr_right ?_)
  constructor
  · rintro ⟨b, ⟨d, hd, hb⟩, hx⟩
    obtain ⟨st, hst, hx⟩ := ((made_members hf d hd).faithful x).mp ⟨b, hb, hx⟩
    exact ⟨st, ⟨d, hd, hst⟩, hx⟩
  · rintro ⟨st, ⟨d, hd, hst⟩, hx⟩
    obtain ⟨b, hb, hx⟩ := ((made_members hf d hd).faithful x).mpr ⟨st, hst, hx⟩
    exact ⟨b, ⟨d, hd, hb⟩, hx⟩

/-! ### Files -/

/-- What a Kotlin file of a catalog imports: each import is there for something in the file. -/
inductive KotlinNeeds (c : Catalog) (f : SourceFile) : String → Prop where
  | json {st d} (hst : f.HasStmt st) (h : st.json? = some d) :
      KotlinNeeds c f "kotlinx.serialization.json.Json"
  | encode {st} (hst : f.HasStmt st) (h : st.json? = some .entry) :
      KotlinNeeds c f "kotlinx.serialization.encodeToString"
  | decode {st} (hst : f.HasStmt st) (h : st.json? = some .exit) :
      KotlinNeeds c f "kotlinx.serialization.decodeFromString"
  | record (h : c.records ≠ []) : KotlinNeeds c f "kotlinx.serialization.Serializable"
  | handles (h : c.callbacks ≠ []) : KotlinNeeds c f "java.util.concurrent.atomic.AtomicLong"
  | entries (h : c.callbacks ≠ []) : KotlinNeeds c f "java.util.concurrent.ConcurrentHashMap"
  | proxy {callback} (h : f.HasType .object (Naming.proxyName callback) fun _ => True) :
      KotlinNeeds c f "java.util.concurrent.atomic.AtomicBoolean"

section File

variable (hf : file c s = .ok f)

include hf

/-- A type that is declared as a proxy is made by some service. -/
theorem exists_proxy_of_hasType {callback : String}
    (h : f.HasType .object (Naming.proxyName callback) fun _ => True) :
    ∃ i ∈ c.services, ∃ cb ∈ i.callbackReturns, ∃ r,
      proxy s.lang (.ofInterface c s i) cb = .ok r ∧ r.1.member ∈ f.members := by
  obtain ⟨head, members, hmem, hkind, hname, -⟩ := h
  rcases object_of_mem_members hf hmem hkind with hregistry |
    ⟨i, proxies, funcs, taken, made, hs, cb, hcb, r, hr, hproxy, rfl, rfl⟩
  · rw [hname] at hregistry
    exact absurd hregistry (Naming.proxyName_ne_registryType callback)
  · obtain ⟨hi, hproxies⟩ := mem_proxyClaims hs.claim
    exact ⟨i, hi, cb, hproxies hcb, r, hproxy, proxy_mem_members hf hs hr⟩

theorem hasType_proxy_iff :
    (∃ callback, f.HasType .object (Naming.proxyName callback) fun _ => True) ↔
      ∃ i ∈ c.services, i.callbackReturns ≠ [] := by
  constructor
  · rintro ⟨callback, h⟩
    obtain ⟨i, hi, cb, hcb, _⟩ := exists_proxy_of_hasType hf h
    exact ⟨i, hi, List.ne_nil_of_mem hcb⟩
  · rintro ⟨i, hi, hne⟩
    obtain ⟨cb, hcb⟩ := List.exists_mem_of_ne_nil _ hne
    exact ⟨cb, returned_declared hf hi hcb⟩

/-- What the references of a file carry is given to it in Swift, and needed in Kotlin. -/
theorem carries_file (hx : f.Carries x) :
    (s.lang = .swift ∧ x ∈ s.lang.fileImports s) ∨ (s.lang = .kotlin ∧ KotlinNeeds c f x) := by
  obtain ⟨d, hd, hx⟩ := hx
  -- registries, records, callback interfaces, services and proxies
  rcases (mem_members hf).mp hd with hd | ⟨r, hr, rfl⟩ | ⟨i, hi, rfl⟩ |
    ⟨i, proxies, funcs, taken, made, hs, rfl | ⟨r, hr, rfl⟩⟩
  · obtain ⟨hne, rfl | ⟨i, _, rfl⟩⟩ := mem_registries.mp hd
    · rcases carries_registryType.mp hx with ⟨hl, rfl⟩ | ⟨hl, rfl | rfl⟩
      · exact Or.inl ⟨hl, hl ▸ List.mem_cons_self⟩
      · exact Or.inr ⟨hl, .handles hne⟩
      · exact Or.inr ⟨hl, .entries hne⟩
    · exact absurd hx (not_carries_registryField i.name)
  · obtain ⟨hl, rfl⟩ := carries_record.mp hx
    exact Or.inr ⟨hl, .record (List.ne_nil_of_mem hr)⟩
  · exact absurd hx (not_carries_callbackType i)
  · rcases Member.carries_type.mp hx with hx | ⟨d, hd, hx⟩
    · cases hx
    · obtain ⟨hl, rfl⟩ := quiet_service hs.parts d hd x hx
      exact Or.inl ⟨hl, hl ▸ List.mem_cons_of_mem _ List.mem_cons_self⟩
  · obtain ⟨callback, _, hok⟩ := forall₂_exists_left hs.parts.made hr
    obtain ⟨hl, rfl⟩ := (carries_proxy hok).mp hx
    obtain ⟨j, fs, _, _, rfl⟩ := proxy_eq_ok.mp hok
    exact Or.inr ⟨hl, .proxy ⟨_, _, hd, rfl, rfl, trivial⟩⟩

/-- In Swift all that is used comes from the library and the native module. -/
theorem mem_imports_swift (hl : s.lang = .swift) :
    x ∈ f.allImports ↔ x = "Foundation" ∨ x = s.moduleName := by
  have hgiven : x ∈ s.lang.fileImports s ↔ x = "Foundation" ∨ x = s.moduleName := by
    rw [hl]
    exact List.mem_cons.trans (or_congr_right List.mem_singleton)
  rw [mem_imports_file hf, ← hgiven]
  refine ⟨?_, Or.inl⟩
  rintro (hx | hx | ⟨st, _, hx⟩)
  · exact hx
  · rcases carries_file hf hx with ⟨_, hx⟩ | ⟨hk, _⟩
    · exact hx
    · rw [hl] at hk
      cases hk
  · rw [hl] at hx
    cases hx

theorem mem_imports_kotlin (hl : s.lang = .kotlin) : x ∈ f.allImports ↔ KotlinNeeds c f x := by
  -- Kotlin deals with no raw memory, so only JSON makes its statements import anything
  have hraw : ∀ {st}, f.HasStmt st → st.isRaw = false := fun ⟨d, hd, hst⟩ =>
    of_stmt_mem_leaves (P := fun st => st.isRaw = false) (kotlin_members hf hl hd) hst
  rw [mem_imports_file hf, hl]
  constructor
  · rintro (hx | hx | ⟨st, hst, hx⟩)
    · cases hx
    · rcases carries_file hf hx with ⟨hk, _⟩ | ⟨_, hx⟩
      · rw [hl] at hk
        cases hk
      · exact hx
    · obtain ⟨d, hd, hx⟩ := (Kotlin.mem_stmtImports (hraw hst)).mp hx
      rcases d with _ | _ <;> rcases List.mem_cons.mp hx with rfl | hx
      · exact .json hst hd
      · exact List.mem_singleton.mp hx ▸ .encode hst hd
      · exact .json hst hd
      · exact List.mem_singleton.mp hx ▸ .decode hst hd
  · have hstmt : ∀ {st d}, f.HasStmt st → st.json? = some d → x ∈ Kotlin.jsonImports d →
        ∃ st, f.HasStmt st ∧ x ∈ Lang.kotlin.stmtImports st := fun hst hd hx =>
      ⟨_, hst, (Kotlin.mem_stmtImports (hraw hst)).mpr ⟨_, hd, hx⟩⟩
    have hregistry : c.callbacks ≠ [] → (x = "java.util.concurrent.atomic.AtomicLong" ∨
        x = "java.util.concurrent.ConcurrentHashMap") → f.Carries x := fun hne hx =>
      ⟨_, registryType_mem_members hf hne, carries_registryType.mpr (Or.inr ⟨hl, hx⟩)⟩
    intro h
    cases h with
    | @json _ d hst hd =>
      have hmem : "kotlinx.serialization.json.Json" ∈ Kotlin.jsonImports d := by
        cases d <;> exact List.mem_cons_self
      exact Or.inr (Or.inr (hstmt hst hd hmem))
    | encode hst hd =>
      exact Or.inr (Or.inr (hstmt hst hd (List.mem_cons_of_mem _ List.mem_cons_self)))
    | decode hst hd =>
      exact Or.inr (Or.inr (hstmt hst hd (List.mem_cons_of_mem _ List.mem_cons_self)))
    | record h =>
      obtain ⟨r, hr⟩ := List.exists_mem_of_ne_nil _ h
      exact Or.inr (Or.inl ⟨_, (mem_members hf).mpr (Or.inr (Or.inl ⟨r, hr, rfl⟩)),
        carries_record.mpr ⟨hl, rfl⟩⟩)
    | handles h => exact Or.inr (Or.inl (hregistry h (Or.inl rfl)))
    | entries h => exact Or.inr (Or.inl (hregistry h (Or.inr rfl)))
    | proxy h =>
      obtain ⟨i, _, cb, _, r, hproxy, hmem⟩ := exists_proxy_of_hasType hf h
      exact Or.inr (Or.inl ⟨_, hmem, (carries_proxy hproxy).mpr ⟨hl, rfl⟩⟩)

end File

/-- A generated file imports what it uses. Its import lines increase, so that each stands once. In
Swift they are those of the library and of the native module; in Kotlin each import is there exactly
if something in the file needs it. JSON is encoded, or decoded, if some method whose body is
generated passes such a value that way, and proxies are declared if some service returns a
callback. -/
theorem imports_exact {a : Artifact} (h : artifact c s = .ok a) :
    ∃ f imports, file c s = .ok f ∧
      Layout.HasImportLines s.lang s.indent f a.contents imports ∧
      imports.Pairwise (· < ·) ∧ (∀ x ∈ imports, '\n' ∉ x.toList) ∧
      (s.lang = .swift → ∀ x, x ∈ imports ↔ x = "Foundation" ∨ x = s.moduleName) ∧
      (s.lang = .kotlin → ∀ x, x ∈ imports ↔ KotlinNeeds c f x) ∧
      (∀ d, (∃ st, f.HasStmt st ∧ st.json? = some d) ↔ ∃ m a r, Emits c m a r ∧ m.Json a r d) ∧
      ((∃ callback, f.HasType .object (Naming.proxyName callback) fun _ => True) ↔
        ∃ i ∈ c.services, i.callbackReturns ≠ []) := by
  obtain ⟨_, _, f, hf, hcontents⟩ := artifact_eq_ok h
  refine ⟨f, f.allImports, hf, Layout.hasImportLines hcontents, f.pairwise_allImports, ?_,
    fun hl x => mem_imports_swift hf hl, fun hl x => mem_imports_kotlin hf hl,
    fun d => json_iff_emits hf, hasType_proxy_iff hf⟩
  intro x hx
  cases hl : s.lang with
  | swift =>
    rcases (mem_imports_swift hf hl).mp hx with rfl | rfl
    · decide
    · exact Settings.notMem_moduleName (check_of_artifact h) (by decide) (by decide)
  | kotlin =>
    cases (mem_imports_kotlin hf hl).mp hx <;> decide

theorem imports_exact_store :
    ∃ a f imports, artifact storeCatalog { Settings.forModule "demo" with lang := .kotlin } = .ok a ∧
      Layout.HasImportLines .kotlin 4 f a.contents imports ∧
      "kotlinx.serialization.encodeToString" ∈ imports ∧
      "kotlinx.serialization.decodeFromString" ∉ imports ∧
      "java.util.concurrent.atomic.AtomicBoolean" ∈ imports := by
  have hs : { Settings.forModule "demo" with lang := .kotlin }.check = .ok () := by decide
  have hc : storeCatalog.check = .ok () := by decide
  have hn : catalogCollision? .kotlin storeCatalog = none := by decide
  obtain ⟨_, _, _, _, ha⟩ := artifact_of_checks hs hc hn
  obtain ⟨f, imports, _, hlines, _, _, _, hkotlin, hjson, hproxy⟩ := imports_exact ha
  have hi : storeService ∈ storeCatalog.services := by decide
  refine ⟨_, f, imports, ha, hlines, ?_, ?_, ?_⟩
  · -- `swap` takes a record
    obtain ⟨st, hst, hd⟩ := (hjson .entry).mpr
      ⟨_, _, _, .service hi List.mem_cons_self, by decide⟩
    exact (hkotlin rfl _).mpr (.encode hst hd)
  · -- nothing comes back as JSON, neither from native code nor in arguments of the callback
    have hservices : ∀ i ∈ storeCatalog.services, ∀ m ∈ i.methods,
        ¬ m.Json .argument .result .exit := by decide
    have hcallbacks : ∀ j ∈ storeCatalog.callbacks, ∀ m ∈ j.methods,
        ¬ m.Json .argument .result .exit ∧ ¬ m.Json .callbackArgument .callbackResult .exit := by
      decide
    have hdecode : ¬ ∃ st, f.HasStmt st ∧ st.json? = some .exit := by
      rw [hjson]
      rintro ⟨m, a, r, he, hm⟩
      cases he with
      | service hi hmem => exact hservices _ hi m hmem hm
      | taken _ _ hj hmem => exact (hcallbacks _ (Catalog.callback?_eq_some hj).1 m hmem).2 hm
      | returned _ _ hj hmem => exact (hcallbacks _ (Catalog.callback?_eq_some hj).1 m hmem).1 hm
    rw [hkotlin rfl]
    intro h
    generalize hx : "kotlinx.serialization.decodeFromString" = x at h
    cases h with
    | decode hst hd => exact hdecode ⟨_, hst, hd⟩
    | _ => exact absurd hx (by decide)
  · obtain ⟨callback, h⟩ := hproxy.mpr ⟨_, hi, by decide⟩
    exact (hkotlin rfl _).mpr (.proxy h)

end Generate

end HostBindings
