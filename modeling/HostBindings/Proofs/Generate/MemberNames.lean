import HostBindings.Proofs.Generate.ModelLabels
import HostBindings.Proofs.Generate.Outcome
import Mathlib.Data.List.Perm.Basic

/-!
Names of the members of generated types. Trampolines and native functions are named by joining the
names of a callback and a method with an underscore, next to fixed names, while the check of host
names looks at one interface at a time. What it leaves open is stated here as `NamesApart`, and
that is exactly what it takes for the members of each type, and for the labels of each model, to
have distinct names.
-/

namespace HostBindings

open HostBindings.Code HostBindings.Target

/-! ### Names of members -/

/-- The name that a member declares. The code that runs when a type is loaded declares none. -/
def Code.Member.ownName? : Member → Option String
  | .field f => some f.name
  | .func f => if f.kind = .loader then none else some f.name
  | .type head _ => some head.name

def Code.TypeHead.memberNames (head : TypeHead) (members : List Member) : List String :=
  head.properties.map (·.name) ++ members.filterMap Member.ownName?

def Catalog.callbackMethods (c : Catalog) (callback : String) : List Method :=
  match c.callback? callback with
  | some j => j.methods
  | none => []

/-- The names of a callback's methods, each behind that of the callback. -/
def Catalog.callbackWords (c : Catalog) (callback : String) : List String :=
  (c.callbackMethods callback).map fun m => callback ++ "_" ++ m.name

/-- What follows `invoke_` in the names of the trampolines of a service. -/
def Catalog.trampolineWords (c : Catalog) (i : Interface) : List String :=
  i.callbackParams.flatMap c.callbackWords

/-- What follows `native_` in the names of the native functions of a service and of the proxies
that it makes. -/
def Catalog.nativeWords (c : Catalog) (i : Interface) (proxies : List String) : List String :=
  i.methods.map (·.name) ++ proxies.flatMap fun cb => c.callbackWords cb ++ [cb ++ "_free"]

def Catalog.trampolineNames (c : Catalog) (i : Interface) : List String :=
  i.callbackParams.flatMap fun cb =>
    (c.callbackWords cb).map ("invoke_" ++ ·) ++ ["free_" ++ cb]

def Lang.nativeName? (lang : Lang) (word : String) : Option String :=
  match lang with
  | .swift => none
  | .kotlin => some ("native_" ++ word)

def Catalog.nativeNames (c : Catalog) (lang : Lang) (i : Interface) (proxies : List String) :
    List String :=
  (c.nativeWords i proxies).filterMap lang.nativeName?

def Lang.releaseNames : Lang → List String
  | .swift => ["deinit"]
  | .kotlin => ["is_released", "close"]

theorem Catalog.callbackMethods_eq {c : Catalog} {callback : String} {j : Interface}
    (hj : c.callback? callback = some j) : c.callbackMethods callback = j.methods := by
  rw [callbackMethods, hj]

namespace Generate

variable {lang : Lang} {ctx : Context} {callback : String} {i j : Interface}
  {ms : List Method} {rs : List (Func × Option Func)}

theorem ownName_trampoline (name : String) (params : List Param) (returns : Option TypeRef)
    (body : Block) : (lang.trampoline name params returns body).ownName? = some name := by
  cases lang <;> rfl

theorem ownName_nativeDeclaration {symbol : Symbol} {word : String}
    (h : Kotlin.symbolName symbol = "native_" ++ word) (visibility : Modifier)
    (params : List Param) (returns : Option TypeRef) :
    ((lang.nativeDeclaration? (lang.symbolName ctx.scope symbol) visibility params returns).bind
      fun fn => (Member.func fn).ownName?) = lang.nativeName? word := by
  cases lang with
  | swift => rfl
  | kotlin => exact congrArg some h

/-- The names of functions that are made one for each method. -/
theorem ownNames_funcs
    (h : List.Forall₂ (fun m r => (Member.func r.1).ownName? = some (lang.hostName m.name)) ms rs) :
    (rs.map (.func ·.1)).filterMap Member.ownName? = ms.map fun m => lang.hostName m.name := by
  rw [List.filterMap_map, ← List.filterMap_eq_map]
  exact filterMap_congr_of_forall₂ h

/-- The names of the native declarations that come with the functions, if any do. -/
theorem ownNames_natives {word : Method → String}
    (h : List.Forall₂
      (fun m r => (r.2.bind fun fn => (Member.func fn).ownName?) = lang.nativeName? (word m)) ms rs) :
    ((rs.filterMap (·.2)).map .func).filterMap Member.ownName? =
      (ms.map word).filterMap lang.nativeName? := by
  rw [List.filterMap_map, List.filterMap_filterMap, List.filterMap_map]
  exact filterMap_congr_of_forall₂ h

theorem ownNames_trampolines {ts : List Member} (h : trampolines lang ctx callback = .ok ts) :
    ts.filterMap Member.ownName? =
      (ctx.catalog.callbackWords callback).map ("invoke_" ++ ·) ++ ["free_" ++ callback] := by
  obtain ⟨j, ms, hj, hms, rfl⟩ := trampolines_eq_ok.mp h
  have hmethods : ms.filterMap Member.ownName? =
      j.methods.map fun m => Naming.trampolineName callback m.name := by
    rw [← List.filterMap_eq_map]
    refine filterMap_congr_of_forall₂ (hms.imp fun m t hok => ?_)
    obtain ⟨p, body, _, _, rfl⟩ := methodTrampoline_eq_ok.mp hok
    exact ownName_trampoline ..
  have hrelease : [releaseTrampoline lang callback].filterMap Member.ownName? =
      ["free_" ++ callback] := by
    rw [List.filterMap_cons, releaseTrampoline, ownName_trampoline]
    rfl
  have hname : ∀ m : Method,
      Naming.trampolineName callback m.name = "invoke_" ++ (callback ++ "_" ++ m.name) := by
    intro m
    simp only [Naming.trampolineName, String.append_assoc]
  rw [List.filterMap_append, hmethods, hrelease, Catalog.callbackWords,
    Catalog.callbackMethods_eq hj, List.map_map]
  simp only [hname, Function.comp_def]

theorem ownNames_proxyNatives {r : TypeDecl × List Func} (h : proxy lang ctx callback = .ok r) :
    (r.2.map .func).filterMap Member.ownName? =
      (ctx.catalog.callbackWords callback ++ [callback ++ "_free"]).filterMap lang.nativeName? := by
  obtain ⟨j, fs, hj, hfs, rfl⟩ := proxy_eq_ok.mp h
  -- one declaration for each method, and one that releases
  have hmethods : ((fs.filterMap (·.2)).map .func).filterMap Member.ownName? =
      (ctx.catalog.callbackWords callback).filterMap lang.nativeName? := by
    rw [Catalog.callbackWords, Catalog.callbackMethods_eq hj]
    refine ownNames_natives (hfs.imp fun m r hok => ?_)
    obtain ⟨p, body, _, _, rfl⟩ := proxyFunc_eq_ok.mp hok
    exact ownName_nativeDeclaration (by simp only [Kotlin.symbolName, String.append_assoc]) ..
  have hrelease : ((releaseDecl? lang ctx callback).toList.map .func).filterMap Member.ownName? =
      [callback ++ "_free"].filterMap lang.nativeName? := by
    cases lang with
    | swift => rfl
    | kotlin =>
      show ["native_" ++ callback ++ "_free"] = ["native_" ++ (callback ++ "_free")]
      rw [String.append_assoc]
  rw [List.map_append, List.filterMap_append, hmethods, hrelease, List.filterMap_append]

section Service

variable {proxies : List String} {taken : List (List Member)} {made : List (TypeDecl × List Func)}
  (hs : ServiceParts lang ctx i proxies rs taken made)

include hs

/-- A service declares its methods under their host names, the trampolines of the callbacks that
it takes, and the native functions. -/
theorem memberNames_service :
    (serviceHead i).memberNames (serviceMembers lang ctx rs taken made) =
      (i.methods.map fun m => lang.hostName m.name) ++ ctx.catalog.trampolineNames i ++
        ctx.catalog.nativeNames lang i proxies := by
  -- part by part: each part of the members declares one part of the names
  have hloader : ((lang.loader? ctx).toList.map .func).filterMap Member.ownName? = [] := by
    cases lang <;> rfl
  have hfuncs : (rs.map (.func ·.1)).filterMap Member.ownName? =
      i.methods.map fun m => lang.hostName m.name := by
    refine ownNames_funcs (hs.methods.imp fun m r hok => ?_)
    obtain ⟨p, body, _, _, rfl⟩ := serviceMethod_eq_ok.mp hok
    rfl
  have htaken : taken.flatten.filterMap Member.ownName? = ctx.catalog.trampolineNames i := by
    rw [List.filterMap_flatten, ← List.flatMap_def]
    exact flatMap_congr_of_forall₂ (hs.taken.imp fun cb ts => ownNames_trampolines)
  have hnatives : ((rs.filterMap (·.2)).map .func).filterMap Member.ownName? =
      (i.methods.map (·.name)).filterMap lang.nativeName? := by
    refine ownNames_natives (hs.methods.imp fun m r hok => ?_)
    obtain ⟨p, body, _, _, rfl⟩ := serviceMethod_eq_ok.mp hok
    exact ownName_nativeDeclaration rfl ..
  have hmade : ((made.flatMap (·.2)).map .func).filterMap Member.ownName? =
      (proxies.flatMap fun cb => ctx.catalog.callbackWords cb ++ [cb ++ "_free"]).filterMap
        lang.nativeName? := by
    rw [List.map_flatMap, List.filterMap_flatMap, List.filterMap_flatMap]
    exact flatMap_congr_of_forall₂ (hs.made.imp fun cb r => ownNames_proxyNatives)
  show (serviceMembers lang ctx rs taken made).filterMap Member.ownName? = _
  simp only [serviceMembers, Catalog.nativeNames, Catalog.nativeWords, List.map_append,
    List.filterMap_append, hloader, hfuncs, htaken, hnatives, hmade, List.nil_append]

end Service

/-- A proxy declares its handle, the methods of its interface, and what releases it. -/
theorem memberNames_proxy {r : TypeDecl × List Func} (h : proxy lang ctx callback = .ok r)
    (hj : ctx.catalog.callback? callback = some j) :
    r.1.head.memberNames r.1.members =
      nativeHandle :: (j.methods.map (fun m => lang.hostName m.name) ++ lang.releaseNames) := by
  obtain ⟨j', fs, hj', hfs, rfl⟩ := proxy_eq_ok.mp h
  obtain rfl : j' = j := Option.some.inj (hj'.symm.trans hj)
  have hmethods : (fs.map (.func ·.1)).filterMap Member.ownName? =
      j'.methods.map fun m => lang.hostName m.name := by
    refine ownNames_funcs (hfs.imp fun m r hok => ?_)
    obtain ⟨p, body, _, _, rfl⟩ := proxyFunc_eq_ok.mp hok
    rfl
  have hrelease : (lang.proxyRelease (.stmt (releaseCall ctx callback))).filterMap
      Member.ownName? = lang.releaseNames := by
    cases lang <;> rfl
  show nativeHandle :: List.filterMap _ (_ ++ _) = _
  rw [List.filterMap_append, hmethods, hrelease]

/-! ### Distinct names -/

section Lists

variable {c : Catalog}

theorem underscore_notMem_hostNames {n : String}
    (h : n ∈ ms.map fun m => lang.hostName m.name) : '_' ∉ n.toList := by
  obtain ⟨m, _, rfl⟩ := List.mem_map.mp h
  exact underscore_notMem_hostName lang m.name

/-- Trampolines are told apart from native functions by the first letter. -/
theorem trampolineNames_front {n : String} (h : n ∈ c.trampolineNames i) :
    '_' ∈ n.toList ∧ n.toList.head? ≠ some 'n' := by
  obtain ⟨cb, _, h⟩ := List.mem_flatMap.mp h
  rcases List.mem_append.mp h with h | h
  · obtain ⟨w, _, rfl⟩ := List.mem_map.mp h
    rw [Naming.head?_append "invoke_" w (c := 'i') rfl]
    exact ⟨Naming.underscore_mem_append _ _ (by decide), by decide⟩
  · rw [List.mem_singleton.mp h, Naming.head?_append "free_" cb (c := 'f') rfl]
    exact ⟨Naming.underscore_mem_append _ _ (by decide), by decide⟩

theorem nativeNames_front {proxies : List String} {n : String}
    (h : n ∈ c.nativeNames lang i proxies) : '_' ∈ n.toList ∧ n.toList.head? = some 'n' := by
  obtain ⟨w, _, hw⟩ := List.mem_filterMap.mp h
  cases lang with
  | swift => cases hw
  | kotlin =>
    rw [← Option.some.inj hw]
    exact ⟨Naming.underscore_mem_append _ _ (by decide), Naming.head?_append "native_" w rfl⟩

/-- The names of trampolines stay apart if the words behind `invoke_` do. -/
theorem nodup_trampolineNames : (c.trampolineNames i).Nodup ↔ (c.trampolineWords i).Nodup := by
  have hmethods : (i.callbackParams.flatMap fun cb => (c.callbackWords cb).map ("invoke_" ++ ·)) =
      (c.trampolineWords i).map ("invoke_" ++ ·) := by
    rw [Catalog.trampolineWords, List.map_flatMap]
  have hreleases : (i.callbackParams.flatMap fun cb => ["free_" ++ cb]) =
      i.callbackParams.map ("free_" ++ ·) := by
    rw [List.map_eq_flatMap]
  -- no callback is taken twice, and what releases it begins with another letter
  have hfree : (i.callbackParams.map ("free_" ++ ·)).Nodup :=
    i.nodup_callbackParams.map (Naming.append_injective _)
  have hdisjoint : ((c.trampolineWords i).map ("invoke_" ++ ·)).Disjoint
      (i.callbackParams.map ("free_" ++ ·)) := by
    intro n hn hn'
    obtain ⟨w, _, rfl⟩ := List.mem_map.mp hn
    obtain ⟨cb, _, heq⟩ := List.mem_map.mp hn'
    have hinvoke := Naming.head?_append "invoke_" w (c := 'i') rfl
    have hrelease := Naming.head?_append "free_" cb (c := 'f') rfl
    rw [← heq, hrelease] at hinvoke
    cases hinvoke
  rw [Catalog.trampolineNames, ← (List.flatMap_append_perm ..).nodup_iff, hmethods, hreleases,
    List.nodup_append', List.nodup_map_iff (Naming.append_injective _)]
  exact ⟨fun h => h.1, fun h => ⟨h, hfree, hdisjoint⟩⟩

theorem nodup_nativeNames {proxies : List String} :
    (c.nativeNames lang i proxies).Nodup ↔ (lang = .kotlin → (c.nativeWords i proxies).Nodup) := by
  cases lang with
  | swift =>
    have hnames : c.nativeNames .swift i proxies = [] :=
      List.filterMap_eq_nil_iff.mpr fun _ _ => rfl
    rw [hnames]
    exact ⟨fun _ hl => (by cases hl), fun _ => List.nodup_nil⟩
  | kotlin =>
    have hnames : c.nativeNames .kotlin i proxies = (c.nativeWords i proxies).map ("native_" ++ ·) :=
      congrFun List.filterMap_eq_map _
    rw [hnames, List.nodup_map_iff (Naming.append_injective _)]
    exact ⟨fun h _ => h, fun h => h rfl⟩

end Lists

/-- The members of a service have distinct names if the words of its trampolines and, in Kotlin,
those of its native functions are distinct. Host names have no underscore, all other names do. -/
theorem nodup_service {proxies : List String} {taken : List (List Member)}
    {made : List (TypeDecl × List Func)} (hs : ServiceParts lang ctx i proxies rs taken made)
    (hnames : (i.methods.map fun m => lang.hostName m.name).Nodup) :
    ((serviceHead i).memberNames (serviceMembers lang ctx rs taken made)).Nodup ↔
      (ctx.catalog.trampolineWords i).Nodup ∧
        (lang = .kotlin → (ctx.catalog.nativeWords i proxies).Nodup) := by
  have hhost : (i.methods.map fun m => lang.hostName m.name).Disjoint
      (ctx.catalog.trampolineNames i) :=
    fun n hn hn' => underscore_notMem_hostNames hn (trampolineNames_front hn').1
  have hnative : ((i.methods.map fun m => lang.hostName m.name) ++
      ctx.catalog.trampolineNames i).Disjoint (ctx.catalog.nativeNames lang i proxies) := by
    intro n hn hn'
    rcases List.mem_append.mp hn with hn | hn
    · exact underscore_notMem_hostNames hn (nativeNames_front hn').1
    · exact (trampolineNames_front hn).2 (nativeNames_front hn').2
  -- the three groups never meet, so it is a matter of each of them
  rw [memberNames_service hs, List.nodup_append', List.nodup_append', nodup_trampolineNames,
    nodup_nativeNames]
  exact ⟨fun h => ⟨h.1.2.1, h.2.1⟩, fun h => ⟨⟨hnames, h.1, hhost⟩, h.2, hnative⟩⟩

/-- Host names meet the names of what releases a proxy only in Kotlin's `close`. The name that
Swift has for it is a keyword, which no host name is. -/
theorem disjoint_releaseNames {ms : List Method} :
    (ms.map fun m => lang.hostName m.name).Disjoint lang.releaseNames ↔
      (lang = .kotlin → ∀ m ∈ ms, lang.hostName m.name ≠ "close") := by
  constructor
  · rintro h rfl m hm hclose
    exact h (List.mem_map_of_mem hm) (hclose ▸ List.mem_cons_of_mem _ List.mem_cons_self)
  · intro h n hn hrelease
    have hplain := underscore_notMem_hostNames hn
    obtain ⟨m, hm, rfl⟩ := List.mem_map.mp hn
    cases lang with
    | swift =>
      -- `deinit` is a keyword, and host names are escaped
      have hdeinit : Lang.swift.hostName m.name = "deinit" := List.mem_singleton.mp hrelease
      apply hostName_notMem_keywords .swift m.name
      rw [hdeinit]
      decide
    | kotlin =>
      rcases List.mem_cons.mp hrelease with hreleased | hclose
      · -- the name of the field has an underscore, which no host name has
        rw [hreleased] at hplain
        exact absurd (by decide) hplain
      · exact h rfl m hm (List.mem_singleton.mp hclose)

/-- The members of a proxy have distinct names unless, in Kotlin, a method is called as what
releases the proxy. -/
theorem nodup_proxy {r : TypeDecl × List Func} (h : proxy lang ctx callback = .ok r)
    (hj : ctx.catalog.callback? callback = some j)
    (hnames : (j.methods.map fun m => lang.hostName m.name).Nodup) :
    (r.1.head.memberNames r.1.members).Nodup ↔
      (lang = .kotlin → ∀ m ∈ j.methods, lang.hostName m.name ≠ "close") := by
  have hhandle : nativeHandle ∉
      j.methods.map (fun m => lang.hostName m.name) ++ lang.releaseNames := by
    intro hn
    rcases List.mem_append.mp hn with hn | hn
    · exact underscore_notMem_hostNames hn (by decide)
    · cases lang <;> exact absurd hn (by decide)
  have hrelease : lang.releaseNames.Nodup := by
    cases lang <;> decide
  rw [memberNames_proxy h hj, List.nodup_cons, List.nodup_append', ← disjoint_releaseNames]
  exact ⟨fun h => h.2.2.2, fun h => ⟨hhandle, hnames, hrelease, h⟩⟩

/-! ### Files -/

/-- The callbacks that a service takes, each joined to its methods, give distinct words. -/
def TrampolinesApart (c : Catalog) : Prop :=
  ∀ i ∈ c.services, (c.trampolineWords i).Nodup

/-- The methods of a service are distinct from those of the proxies that it makes, each behind the
name of its callback, and from what releases these proxies. -/
def NativesApart (c : Catalog) : Prop :=
  ∀ claim ∈ proxyClaims [] c.services, (c.nativeWords claim.1 claim.2).Nodup

def ReleasesApart (c : Catalog) : Prop :=
  ∀ i ∈ c.services, ∀ callback ∈ i.callbackReturns, ∀ m ∈ c.callbackMethods callback,
    Lang.kotlin.hostName m.name ≠ "close"

/-- No callback that a service takes has a method that is called as one of the two labels that a
Swift model has besides. -/
def ModelsApart (c : Catalog) : Prop :=
  ∀ i ∈ c.services, ∀ callback ∈ i.callbackParams, ∀ m ∈ c.callbackMethods callback,
    m.name ≠ "free_callback" ∧ m.name ≠ "index"

/-- What keeps generated names apart, beyond the host names of each interface. Only Kotlin declares
native functions and releases proxies by name, and only Swift has models. -/
def NamesApart (c : Catalog) : Lang → Prop
  | .swift => TrampolinesApart c ∧ ModelsApart c
  | .kotlin => TrampolinesApart c ∧ NativesApart c ∧ ReleasesApart c

instance : DecidablePred TrampolinesApart :=
  fun c => inferInstanceAs (Decidable (∀ i ∈ c.services, (c.trampolineWords i).Nodup))

instance : DecidablePred NativesApart :=
  fun c => inferInstanceAs (Decidable (∀ claim ∈ proxyClaims [] c.services,
    (c.nativeWords claim.1 claim.2).Nodup))

instance : DecidablePred ReleasesApart :=
  fun c => inferInstanceAs (Decidable (∀ i ∈ c.services, ∀ callback ∈ i.callbackReturns,
    ∀ m ∈ c.callbackMethods callback, Lang.kotlin.hostName m.name ≠ "close"))

instance : DecidablePred ModelsApart :=
  fun c => inferInstanceAs (Decidable (∀ i ∈ c.services, ∀ callback ∈ i.callbackParams,
    ∀ m ∈ c.callbackMethods callback, m.name ≠ "free_callback" ∧ m.name ≠ "index"))

instance (c : Catalog) : DecidablePred (NamesApart c)
  | .swift => inferInstanceAs (Decidable (TrampolinesApart c ∧ ModelsApart c))
  | .kotlin => inferInstanceAs (Decidable (TrampolinesApart c ∧ NativesApart c ∧ ReleasesApart c))

section File

variable {c : Catalog} {s : Settings} {f : SourceFile}

theorem nodup_registries {head : TypeHead} {members : List Member}
    (h : .type head members ∈ registries lang c) : (head.memberNames members).Nodup := by
  obtain ⟨_, h | ⟨i, _, hfield⟩⟩ := mem_registries.mp h
  · cases lang <;> cases h <;> decide
  · cases hfield

theorem nodup_recordType {r : Record} (h : (r.fields.map (·.name)).Nodup) :
    ((recordType lang r).head.memberNames (recordType lang r).members).Nodup := by
  have hnames : (recordType lang r).head.memberNames (recordType lang r).members =
      (r.fields.filter fun f => !f.type.isVoid).map (·.name) := by
    cases lang <;> simp [recordType, Lang.serializable, TypeHead.memberNames, Field.plain]
  rw [hnames]
  exact h.sublist (List.filter_sublist.map _)

theorem nodup_callbackType (h : (j.methods.map fun m => lang.hostName m.name).Nodup) :
    ((callbackType lang j).head.memberNames (callbackType lang j).members).Nodup := by
  have hnames : (callbackType lang j).head.memberNames (callbackType lang j).members =
      j.methods.map fun m => lang.hostName m.name := by
    show List.filterMap _ (j.methods.map _) = _
    rw [List.filterMap_map, ← List.filterMap_eq_map]
    rfl
  rw [hnames]
  exact h

/-- The callback that a service takes or returns is an interface of the catalog, with distinct host
names. -/
theorem DistinctNames.of_callback (hn : DistinctNames lang c) (hj : c.callback? callback = some j) :
    (j.methods.map fun m => lang.hostName m.name).Nodup :=
  hn.methods j (Catalog.mem_callbacks.mp (Catalog.callback?_eq_some hj).1).1

variable (hn : DistinctNames s.lang c) (hf : file c s = .ok f)

include hn hf

/-- The members of each type of a file have distinct names exactly if the names of its trampolines,
of its native functions and of what releases its proxies stay apart. -/
theorem nodup_types :
    (∀ head members, .type head members ∈ f.members → (head.memberNames members).Nodup) ↔
      TrampolinesApart c ∧ (s.lang = .kotlin → NativesApart c ∧ ReleasesApart c) := by
  have hservices : ∀ i ∈ c.services, (i.methods.map fun m => s.lang.hostName m.name).Nodup :=
    fun i hi => hn.methods i (Catalog.mem_services.mp hi).1
  constructor
  · -- each service, each claim of proxies and each returned callback has its type in the file
    intro h
    refine ⟨fun i hi => ?_, fun hl => ⟨fun claim hclaim => ?_, fun i hi callback hcb => ?_⟩⟩
    · obtain ⟨proxies, funcs, taken, made, hs⟩ := exists_hasService hf hi
      have hnodup := h _ _ (service_mem_members hf hs)
      exact ((nodup_service hs.parts (hservices i hi)).mp hnodup).1
    · obtain ⟨funcs, taken, made, hs⟩ := exists_hasService_of_claim hf hclaim
      have hnodup := h _ _ (service_mem_members hf hs)
      have hi := (mem_proxyClaims hclaim).1
      exact ((nodup_service hs.parts (hservices _ hi)).mp hnodup).2 hl
    · obtain ⟨k, _, r, hproxy, hmem⟩ := exists_returnedProxy hf hi hcb
      obtain ⟨j, _, hj, _, _⟩ := proxy_eq_ok.mp hproxy
      have hnodup := h _ _ hmem
      have hclose := (nodup_proxy hproxy hj (hn.of_callback hj)).mp hnodup hl
      rwa [c.callbackMethods_eq hj, ← hl]
  · rintro ⟨htrampolines, hkotlin⟩ head members hmem
    rcases (mem_members hf).mp hmem with hd | ⟨r, hr, hd⟩ | ⟨i, hi, hd⟩ |
      ⟨i, proxies, funcs, taken, made, hs, hd | ⟨r, hr, hd⟩⟩
    · exact nodup_registries hd
    · obtain ⟨rfl, rfl⟩ := Member.type.inj hd
      exact nodup_recordType (hn.fields r hr)
    · obtain ⟨rfl, rfl⟩ := Member.type.inj hd
      exact nodup_callbackType (hn.methods i (Catalog.mem_callbacks.mp hi).1)
    · obtain ⟨rfl, rfl⟩ := Member.type.inj hd
      have hi := (mem_proxyClaims hs.claim).1
      exact (nodup_service hs.parts (hservices i hi)).mpr
        ⟨htrampolines i hi, fun hl => (hkotlin hl).1 _ hs.claim⟩
    · obtain ⟨rfl, rfl⟩ := Member.type.inj hd
      obtain ⟨cb, hcb, hproxy⟩ := forall₂_exists_left hs.parts.made hr
      obtain ⟨hi, hreturns⟩ := mem_proxyClaims hs.claim
      obtain ⟨j, _, hj, _, _⟩ := proxy_eq_ok.mp hproxy
      refine (nodup_proxy hproxy hj (hn.of_callback hj)).mpr fun hl => ?_
      rw [← Catalog.callbackMethods_eq hj, hl]
      exact (hkotlin hl).2 i hi cb (hreturns hcb)

/-- The labels of each model in a Swift file are distinct exactly if no callback that a service
takes has a method of one of the two fixed names. -/
theorem nodup_labels (hc : c.Valid) (hl : s.lang = .swift) :
    (∀ d ∈ f.members, ∀ st, .stmt st ∈ d.leaves → ∀ scope callback methods handle,
      .model scope callback methods handle ∈ st.references →
        ((Swift.modelArgs scope.owner callback methods handle).map (·.label)).Nodup) ↔
      ModelsApart c := by
  simp only [Swift.modelArgs_nodup]
  constructor
  · intro h i hi callback hcb m hm
    have hmodels : TakenCallbacks c LabelsApart := by
      refine taken_of_onModel hf hl fun d hd st hst r hr => ?_
      cases r with
      | model scope callback methods handle => exact h d hd st hst scope callback methods handle hr
      | _ => trivial
    obtain ⟨j, hj⟩ :=
      Catalog.exists_callback? (hc.of_mem_callbackParams (Catalog.mem_services.mp hi).1 hcb).2
    rw [Catalog.callbackMethods_eq hj] at hm
    exact (hmodels i hi callback hcb j hj).2 _ (List.mem_map_of_mem hm)
  · intro h d hd st hst scope callback methods handle href
    have hmodels : TakenCallbacks c LabelsApart := by
      intro i hi callback hcb j hj
      have hmethods := h i hi callback hcb
      rw [Catalog.callbackMethods_eq hj] at hmethods
      refine ⟨?_, List.forall_mem_map.mpr hmethods⟩
      -- names that are equal have equal host names
      refine List.Nodup.of_map s.lang.hostName ?_
      rw [List.map_map]
      exact hn.of_callback hj
    exact onModel_of_taken hc hf hmodels hd hst _ href

end File

/-- The check of host names accepts a catalog without looking at names across interfaces. In the
file generated for it the members of each type, and the labels of each Swift model, have distinct
names exactly if the names are apart in the sense of `NamesApart`. -/
theorem memberNames_distinct {c : Catalog} {s : Settings} {a : Artifact}
    (h : artifact c s = .ok a) :
    ∃ f, file c s = .ok f ∧ Layout.renderFile s.lang s.indent f = .ok a.contents ∧
      (((∀ head members, .type head members ∈ f.members → (head.memberNames members).Nodup) ∧
          (s.lang = .swift → ∀ d ∈ f.members, ∀ st, .stmt st ∈ d.leaves →
            ∀ scope callback methods handle,
              .model scope callback methods handle ∈ st.references →
                ((Swift.modelArgs scope.owner callback methods handle).map (·.label)).Nodup)) ↔
        NamesApart c s.lang) := by
  obtain ⟨hc, hn, f, hf, hcontents⟩ := artifact_eq_ok h
  refine ⟨f, hf, hcontents, ?_⟩
  rw [nodup_types hn hf]
  cases hl : s.lang with
  | swift =>
    have hmodels := nodup_labels hn hf hc hl
    constructor
    · exact fun ⟨⟨htrampolines, _⟩, hlabels⟩ => ⟨htrampolines, hmodels.mp (hlabels rfl)⟩
    · exact fun ⟨htrampolines, hapart⟩ =>
        ⟨⟨htrampolines, fun hk => by cases hk⟩, fun _ => hmodels.mpr hapart⟩
  | kotlin =>
    constructor
    · exact fun ⟨⟨htrampolines, hkotlin⟩, _⟩ => ⟨htrampolines, hkotlin rfl⟩
    · exact fun ⟨htrampolines, hkotlin⟩ =>
        ⟨⟨htrampolines, fun _ => hkotlin⟩, fun hk => by cases hk⟩

def loanCatalog (method : String) : Catalog where
  interfaces :=
    [⟨"Listener", "lib", "lib", true, [⟨method, .void, "()", []⟩]⟩,
     ⟨"Store", "lib", "lib", false,
      [⟨"lend", .callback "Listener", "Box<dyn Listener>",
        [⟨"to", .callback "Listener", "Box<dyn Listener>"⟩]⟩]⟩]
  records := []

def loanSettings (lang : Lang) : Settings :=
  { Settings.forModule "demo" with lang := lang }

theorem memberNames_distinct_loan :
    ∃ a f, artifact (loanCatalog "on_data") (loanSettings .kotlin) = .ok a ∧
      file (loanCatalog "on_data") (loanSettings .kotlin) = .ok f ∧
      ∀ head members, .type head members ∈ f.members → (head.memberNames members).Nodup := by
  have hs : (loanSettings .kotlin).check = .ok () := by decide
  have hc : (loanCatalog "on_data").check = .ok () := by decide
  have hn : catalogCollision? (loanSettings .kotlin).lang (loanCatalog "on_data") = none := by
    decide
  obtain ⟨_, _, _, _, ha⟩ := artifact_of_checks hs hc hn
  obtain ⟨f, hf, _, hiff⟩ := memberNames_distinct ha
  have hapart : NamesApart (loanCatalog "on_data") .kotlin := by decide
  exact ⟨_, f, ha, hf, (hiff.mpr hapart).1⟩

/-- A method called `close` passes the check of host names, and the Kotlin proxy of its interface
declares `close` once more. -/
theorem memberNames_clash_close :
    ∃ a f head members, artifact (loanCatalog "close") (loanSettings .kotlin) = .ok a ∧
      file (loanCatalog "close") (loanSettings .kotlin) = .ok f ∧
      .type head members ∈ f.members ∧ head.name = "ListenerProxy" ∧
      ¬ (head.memberNames members).Nodup := by
  have hs : (loanSettings .kotlin).check = .ok () := by decide
  have hc : (loanCatalog "close").check = .ok () := by decide
  have hn : catalogCollision? (loanSettings .kotlin).lang (loanCatalog "close") = none := by decide
  obtain ⟨f, _, hf, _, ha⟩ := artifact_of_checks hs hc hn
  -- the service returns the callback, so its proxy is in the file
  have hreturns : "Listener" ∈ ((loanCatalog "close").services.head (by decide)).callbackReturns :=
    List.mem_cons_self
  obtain ⟨k, _, r, hproxy, hmem⟩ := exists_returnedProxy hf List.mem_cons_self hreturns
  have hname : r.1.head.name = "ListenerProxy" := by
    obtain ⟨_, _, _, _, rfl⟩ := proxy_eq_ok.mp hproxy
    rfl
  refine ⟨_, f, _, _, ha, hf, hmem, hname, fun hnodup => ?_⟩
  have hclose := (nodup_proxy hproxy rfl (by decide)).mp hnodup rfl ⟨"close", .void, "()", []⟩
    List.mem_cons_self
  exact hclose (by decide)

/-- Each fixed name is in the way of a method that the check of host names lets through. -/
example :
    ¬ NamesApart (loanCatalog "close") .kotlin ∧ ¬ NamesApart (loanCatalog "free") .kotlin ∧
      ¬ NamesApart (loanCatalog "index") .swift ∧
      ¬ NamesApart (loanCatalog "free_callback") .swift := by
  decide

end Generate

end HostBindings
