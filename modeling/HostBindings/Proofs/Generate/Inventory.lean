import HostBindings.Generate.Artifact
import HostBindings.Proofs.Generate.Body

/-!
What a generated file holds. Each generator function is characterised by the parts that it puts
together: a service by its methods, the trampolines of the callbacks that it takes and the proxies
that it makes, a file by the services with the proxies that each of them claims.
-/

namespace HostBindings.Generate

open HostBindings.Code

variable {lang : Lang} {ctx : Context} {m : Method} {callback : String}

theorem declared_eq_ok {j : Interface} :
    declared ctx callback = .ok j ↔ ctx.catalog.callback? callback = some j := by
  unfold declared
  cases ctx.catalog.callback? callback <;> simp

/-! ### Methods and trampolines -/

theorem serviceMethod_eq_ok {r : Func × Option Func} :
    serviceMethod lang ctx m = .ok r ↔
      ∃ p body, Marshal.nativeCall lang.ownership m = .ok p ∧
        nativeCallBody lang ctx p (.method m.name) [] = .ok body ∧
        r = ({ hostFunc lang m with
                modifiers := [.exposed, .static], body := some (lang.block body) },
             nativeDecl? lang ctx (.method m.name) .hidden [] p) := by
  simp only [serviceMethod, serviceFunc, bind_eq_ok, pure_eq_ok, map_eq_ok]
  constructor
  · rintro ⟨p, hp, _, ⟨body, hbody, rfl⟩, rfl⟩
    -- the plan holds the method that it was made for
    have hm := Marshal.planMethod_method hp
    rw [hm] at hbody
    exact ⟨p, body, hp, hbody, by rw [hm]⟩
  · rintro ⟨p, body, hp, hbody, rfl⟩
    have hm := Marshal.planMethod_method hp
    rw [← hm] at hbody
    exact ⟨p, hp, _, ⟨body, hbody, rfl⟩, by rw [hm]⟩

theorem methodTrampoline_eq_ok {t : Member} :
    methodTrampoline lang ctx callback m = .ok t ↔
      ∃ p body, Marshal.trampoline lang.ownership m = .ok p ∧
        trampolineBody lang ctx p callback = .ok body ∧
        t = lang.trampoline (Naming.trampolineName callback m.name)
          (handleParam lang callbackHandle :: wireParams lang ctx p)
          (lang.wireType ctx p.result) (lang.block body) := by
  simp only [methodTrampoline, bind_eq_ok, pure_eq_ok]
  constructor
  · rintro ⟨p, hp, body, hbody, rfl⟩
    exact ⟨p, body, hp, hbody, rfl⟩
  · rintro ⟨p, body, hp, hbody, rfl⟩
    exact ⟨p, hp, body, hbody, rfl⟩

theorem trampolines_eq_ok {ts : List Member} :
    trampolines lang ctx callback = .ok ts ↔
      ∃ j ms, ctx.catalog.callback? callback = some j ∧
        List.Forall₂ (fun m t => methodTrampoline lang ctx callback m = .ok t) j.methods ms ∧
        ts = ms ++ [releaseTrampoline lang callback] := by
  simp only [trampolines, bind_eq_ok, pure_eq_ok, declared_eq_ok, mapM_eq_ok]
  constructor
  · rintro ⟨j, hj, ms, hms, rfl⟩
    exact ⟨j, ms, hj, hms, rfl⟩
  · rintro ⟨j, ms, hj, hms, rfl⟩
    exact ⟨j, hj, ms, hms, rfl⟩

/-- A function of a service that native code calls for a callback that it takes. -/
inductive TrampolineMember (lang : Lang) (ctx : Context) (callback : String) (j : Interface) :
    Member → Prop where
  | method {m p body} (hm : m ∈ j.methods) (hplan : Marshal.trampoline lang.ownership m = .ok p)
      (hbody : trampolineBody lang ctx p callback = .ok body) :
      TrampolineMember lang ctx callback j
        (lang.trampoline (Naming.trampolineName callback m.name)
          (handleParam lang callbackHandle :: wireParams lang ctx p)
          (lang.wireType ctx p.result) (lang.block body))
  | release : TrampolineMember lang ctx callback j (releaseTrampoline lang callback)

theorem trampolines_cases {ts : List Member} (h : trampolines lang ctx callback = .ok ts) :
    ∃ j, ctx.catalog.callback? callback = some j ∧
      ∀ d ∈ ts, TrampolineMember lang ctx callback j d := by
  obtain ⟨j, ms, hj, hms, rfl⟩ := trampolines_eq_ok.mp h
  refine ⟨j, hj, ?_⟩
  rw [List.forall_mem_append, List.forall_mem_singleton]
  refine ⟨fun d hd => ?_, .release⟩
  obtain ⟨m, hm, hok⟩ := forall₂_exists_left hms hd
  obtain ⟨p, body, hplan, hbody, rfl⟩ := methodTrampoline_eq_ok.mp hok
  exact .method hm hplan hbody

/-! ### Proxies -/

theorem proxyFunc_eq_ok {r : Func × Option Func} :
    proxyFunc lang ctx callback m = .ok r ↔
      ∃ p body, Marshal.nativeCall lang.ownership m = .ok p ∧
        nativeCallBody lang ctx p (.callbackMethod callback m.name) [nativeHandle] = .ok body ∧
        r = ({ hostFunc lang m with
                modifiers := [.exposed, .override], body := some (lang.block body) },
             nativeDecl? lang ctx (.callbackMethod callback m.name) .exposed
               [handleParam lang "handle"] p) := by
  simp only [proxyFunc, bind_eq_ok, pure_eq_ok]
  constructor
  · rintro ⟨p, hp, body, hbody, rfl⟩
    exact ⟨p, body, hp, hbody, rfl⟩
  · rintro ⟨p, body, hp, hbody, rfl⟩
    exact ⟨p, hp, body, hbody, rfl⟩

def releaseCall (ctx : Context) (callback : String) : Stmt :=
  .run (.native ctx.scope (.callbackRelease callback) [nativeHandle])

def releaseDecl? (lang : Lang) (ctx : Context) (callback : String) : Option Func :=
  lang.nativeDeclaration? (lang.symbolName ctx.scope (.callbackRelease callback)) .exposed
    [handleParam lang "handle"] none

theorem proxy_eq_ok {r : TypeDecl × List Func} :
    proxy lang ctx callback = .ok r ↔
      ∃ j funcs, ctx.catalog.callback? callback = some j ∧
        List.Forall₂ (fun m f => proxyFunc lang ctx callback m = .ok f) j.methods funcs ∧
        r = (⟨proxyHead lang callback,
                funcs.map (.func ·.1) ++ lang.proxyRelease (.stmt (releaseCall ctx callback))⟩,
             funcs.filterMap (·.2) ++ (releaseDecl? lang ctx callback).toList) := by
  simp only [proxy, bind_eq_ok, pure_eq_ok, declared_eq_ok, mapM_eq_ok]
  constructor
  · rintro ⟨j, hj, funcs, hfuncs, rfl⟩
    exact ⟨j, funcs, hj, hfuncs, rfl⟩
  · rintro ⟨j, funcs, hj, hfuncs, rfl⟩
    exact ⟨j, hj, funcs, hfuncs, rfl⟩

/-- A member of a proxy: a method that calls native code, or a part of what releases it. -/
inductive ProxyMember (lang : Lang) (ctx : Context) (callback : String) (j : Interface) :
    Member → Prop where
  | method {m p body} (hm : m ∈ j.methods) (hplan : Marshal.nativeCall lang.ownership m = .ok p)
      (hbody : nativeCallBody lang ctx p (.callbackMethod callback m.name) [nativeHandle] =
        .ok body) :
      ProxyMember lang ctx callback j (.func { hostFunc lang m with
        modifiers := [.exposed, .override], body := some (lang.block body) })
  | release {d} (h : d ∈ lang.proxyRelease (.stmt (releaseCall ctx callback))) :
      ProxyMember lang ctx callback j d

inductive ProxyNative (lang : Lang) (ctx : Context) (callback : String) (j : Interface) :
    Func → Prop where
  | method {m p fn} (hm : m ∈ j.methods) (hplan : Marshal.nativeCall lang.ownership m = .ok p)
      (h : nativeDecl? lang ctx (.callbackMethod callback m.name) .exposed
        [handleParam lang "handle"] p = some fn) : ProxyNative lang ctx callback j fn
  | release {fn} (h : releaseDecl? lang ctx callback = some fn) :
      ProxyNative lang ctx callback j fn

theorem proxy_cases {r : TypeDecl × List Func} (h : proxy lang ctx callback = .ok r) :
    ∃ j members, ctx.catalog.callback? callback = some j ∧
      r.1 = ⟨proxyHead lang callback, members⟩ ∧
      (∀ d ∈ members, ProxyMember lang ctx callback j d) ∧
      ∀ fn ∈ r.2, ProxyNative lang ctx callback j fn := by
  obtain ⟨j, funcs, hj, hfuncs, rfl⟩ := proxy_eq_ok.mp h
  refine ⟨j, _, hj, rfl, List.forall_mem_append.mpr ⟨fun d hd => ?_, fun d hd => .release hd⟩,
    List.forall_mem_append.mpr
      ⟨fun fn hfn => ?_, fun fn hfn => .release (Option.mem_toList.mp hfn)⟩⟩
  · obtain ⟨r, hr, rfl⟩ := List.mem_map.mp hd
    obtain ⟨m, hm, hok⟩ := forall₂_exists_left hfuncs hr
    obtain ⟨p, body, hplan, hbody, rfl⟩ := proxyFunc_eq_ok.mp hok
    exact .method hm hplan hbody
  · obtain ⟨r, hr, hrf⟩ := List.mem_filterMap.mp hfn
    obtain ⟨m, hm, hok⟩ := forall₂_exists_left hfuncs hr
    obtain ⟨p, body, hplan, _, rfl⟩ := proxyFunc_eq_ok.mp hok
    exact .method hm hplan hrf

/-! ### Services -/

variable {i : Interface} {proxies : List String}

/-- The parts of a service: its methods, the trampolines of the callbacks that it takes, and the
proxies that it makes. -/
structure ServiceParts (lang : Lang) (ctx : Context) (i : Interface) (proxies : List String)
    (funcs : List (Func × Option Func)) (taken : List (List Member))
    (made : List (TypeDecl × List Func)) : Prop where
  methods : List.Forall₂ (fun m f => serviceMethod lang ctx m = .ok f) i.methods funcs
  taken : List.Forall₂ (fun cb ts => trampolines lang ctx cb = .ok ts) i.callbackParams taken
  made : List.Forall₂ (fun cb r => proxy lang ctx cb = .ok r) proxies made

theorem serviceTypes_eq_ok {types : List TypeDecl} :
    serviceTypes lang ctx i proxies = .ok types ↔
      ∃ funcs taken made, ServiceParts lang ctx i proxies funcs taken made ∧
        types = ⟨serviceHead i, serviceMembers lang ctx funcs taken made⟩ :: made.map (·.1) := by
  simp only [serviceTypes, bind_eq_ok, pure_eq_ok, mapM_eq_ok]
  constructor
  · rintro ⟨funcs, hfuncs, taken, htaken, made, hmade, rfl⟩
    exact ⟨funcs, taken, made, ⟨hfuncs, htaken, hmade⟩, rfl⟩
  · rintro ⟨funcs, taken, made, ⟨hfuncs, htaken, hmade⟩, rfl⟩
    exact ⟨funcs, hfuncs, taken, htaken, made, hmade, rfl⟩

section Members

variable {funcs : List (Func × Option Func)} {taken : List (List Member)}
  {made : List (TypeDecl × List Func)}

theorem mem_natives {fn : Func} :
    fn ∈ funcs.filterMap (·.2) ++ made.flatMap (·.2) ↔
      (∃ r ∈ funcs, r.2 = some fn) ∨ ∃ r ∈ made, fn ∈ r.2 := by
  rw [List.mem_append, List.mem_filterMap, List.mem_flatMap]

/-- The loader, the methods, the trampolines, and the native declarations of the service and of its
proxies. -/
theorem mem_serviceMembers {d : Member} :
    d ∈ serviceMembers lang ctx funcs taken made ↔
      (∃ fn, lang.loader? ctx = some fn ∧ d = .func fn) ∨ (∃ r ∈ funcs, d = .func r.1) ∨
        (∃ ts ∈ taken, d ∈ ts) ∨
          ∃ fn, ((∃ r ∈ funcs, r.2 = some fn) ∨ ∃ r ∈ made, fn ∈ r.2) ∧ d = .func fn := by
  simp only [serviceMembers, List.mem_append, List.mem_map, Option.mem_toList,
    List.mem_filterMap, List.mem_flatMap, List.mem_flatten, or_assoc, eq_comm (b := d)]

theorem mem_serviceMembers_of_method {r : Func × Option Func} (hr : r ∈ funcs) :
    .func r.1 ∈ serviceMembers lang ctx funcs taken made :=
  mem_serviceMembers.mpr (Or.inr (Or.inl ⟨r, hr, rfl⟩))

theorem subset_serviceMembers {ts : List Member} (hts : ts ∈ taken) :
    ts ⊆ serviceMembers lang ctx funcs taken made :=
  fun _ hd => mem_serviceMembers.mpr (Or.inr (Or.inr (Or.inl ⟨ts, hts, hd⟩)))

theorem mem_serviceMembers_of_native {fn : Func}
    (hfn : (∃ r ∈ funcs, r.2 = some fn) ∨ ∃ r ∈ made, fn ∈ r.2) :
    .func fn ∈ serviceMembers lang ctx funcs taken made :=
  mem_serviceMembers.mpr (Or.inr (Or.inr (Or.inr ⟨fn, hfn, rfl⟩)))

end Members

inductive ServiceNative (lang : Lang) (ctx : Context) (i : Interface) (proxies : List String) :
    Func → Prop where
  | method {m p fn} (hm : m ∈ i.methods) (hplan : Marshal.nativeCall lang.ownership m = .ok p)
      (h : nativeDecl? lang ctx (.method m.name) .hidden [] p = some fn) :
      ServiceNative lang ctx i proxies fn
  | proxy {callback j fn} (hcb : callback ∈ proxies) (hj : ctx.catalog.callback? callback = some j)
      (h : ProxyNative lang ctx callback j fn) : ServiceNative lang ctx i proxies fn

/-- All of them are native declarations of the language. -/
theorem ServiceNative.declaration {fn : Func} (h : ServiceNative lang ctx i proxies fn) :
    ∃ name visibility params returns,
      lang.nativeDeclaration? name visibility params returns = some fn := by
  cases h with
  | method _ _ h => exact ⟨_, _, _, _, h⟩
  | proxy _ _ h =>
    cases h with
    | method _ _ h => exact ⟨_, _, _, _, h⟩
    | release h => exact ⟨_, _, _, _, h⟩

inductive ServiceMember (lang : Lang) (ctx : Context) (i : Interface) (proxies : List String) :
    Member → Prop where
  | loader {fn} (h : lang.loader? ctx = some fn) : ServiceMember lang ctx i proxies (.func fn)
  | method {m p body} (hm : m ∈ i.methods) (hplan : Marshal.nativeCall lang.ownership m = .ok p)
      (hbody : nativeCallBody lang ctx p (.method m.name) [] = .ok body) :
      ServiceMember lang ctx i proxies (.func { hostFunc lang m with
        modifiers := [.exposed, .static], body := some (lang.block body) })
  | trampoline {callback j d} (hcb : callback ∈ i.callbackParams)
      (hj : ctx.catalog.callback? callback = some j) (h : TrampolineMember lang ctx callback j d) :
      ServiceMember lang ctx i proxies d
  | native {fn} (h : ServiceNative lang ctx i proxies fn) :
      ServiceMember lang ctx i proxies (.func fn)

namespace ServiceParts

variable {funcs : List (Func × Option Func)} {taken : List (List Member)}
  {made : List (TypeDecl × List Func)} (hs : ServiceParts lang ctx i proxies funcs taken made)

include hs

theorem native_of_mem {fn : Func} (hfn : fn ∈ funcs.filterMap (·.2) ++ made.flatMap (·.2)) :
    ServiceNative lang ctx i proxies fn := by
  rcases mem_natives.mp hfn with ⟨r, hr, hrf⟩ | ⟨r, hr, hfn⟩
  · obtain ⟨m, hm, hok⟩ := forall₂_exists_left hs.methods hr
    obtain ⟨p, body, hplan, _, rfl⟩ := serviceMethod_eq_ok.mp hok
    exact .method hm hplan hrf
  · obtain ⟨callback, hcb, hok⟩ := forall₂_exists_left hs.made hr
    obtain ⟨j, members, hj, _, _, hnatives⟩ := proxy_cases hok
    exact .proxy hcb hj (hnatives fn hfn)

theorem member_of_mem {d : Member} (hd : d ∈ serviceMembers lang ctx funcs taken made) :
    ServiceMember lang ctx i proxies d := by
  rcases mem_serviceMembers.mp hd with ⟨fn, hfn, rfl⟩ | ⟨r, hr, rfl⟩ | ⟨ts, hts, hd⟩ |
    ⟨fn, hfn, rfl⟩
  · exact .loader hfn
  · obtain ⟨m, hm, hok⟩ := forall₂_exists_left hs.methods hr
    obtain ⟨p, body, hplan, hbody, rfl⟩ := serviceMethod_eq_ok.mp hok
    exact .method hm hplan hbody
  · obtain ⟨callback, hcb, hok⟩ := forall₂_exists_left hs.taken hts
    obtain ⟨j, hj, hmembers⟩ := trampolines_cases hok
    exact .trampoline hcb hj (hmembers d hd)
  · exact .native (hs.native_of_mem (mem_natives.mpr hfn))

end ServiceParts

/-- Each service with the proxies that it makes: those of the callbacks that it returns which no
earlier service has made. -/
def proxyClaims (claimed : List String) : List Interface → List (Interface × List String)
  | [] => []
  | i :: is =>
    let proxies := i.callbackReturns.filter fun name => !claimed.contains name
    (i, proxies) :: proxyClaims (claimed ++ proxies) is

theorem mem_proxyClaims {claimed : List String} {is : List Interface}
    (h : (i, proxies) ∈ proxyClaims claimed is) : i ∈ is ∧ proxies ⊆ i.callbackReturns := by
  induction is generalizing claimed with
  | nil => exact absurd h List.not_mem_nil
  | cons j is ih =>
    rcases List.mem_cons.mp h with heq | h
    · cases heq
      exact ⟨List.mem_cons_self, List.filter_subset_self _⟩
    · exact (ih h).imp_left (List.mem_cons_of_mem j)

theorem exists_proxyClaims {is : List Interface} (h : i ∈ is) (claimed : List String) :
    ∃ proxies, (i, proxies) ∈ proxyClaims claimed is := by
  induction is generalizing claimed with
  | nil => exact absurd h List.not_mem_nil
  | cons j is ih =>
    rcases List.mem_cons.mp h with rfl | h
    · exact ⟨_, List.mem_cons_self⟩
    · obtain ⟨proxies, hp⟩ := ih h _
      exact ⟨proxies, List.mem_cons_of_mem _ hp⟩

/-- The proxy of every callback that a service returns is claimed by some service. -/
theorem claimed_or_mem_proxyClaims {is : List Interface} (h : i ∈ is)
    (hcb : callback ∈ i.callbackReturns) (claimed : List String) :
    callback ∈ claimed ∨
      ∃ j proxies, (j, proxies) ∈ proxyClaims claimed is ∧ callback ∈ proxies := by
  -- the callbacks claimed so far grow from service to service
  induction is generalizing claimed with
  | nil => exact absurd h List.not_mem_nil
  | cons j is ih =>
    rcases List.mem_cons.mp h with rfl | h
    · by_cases hc : callback ∈ claimed
      · -- claimed before this service
        exact Or.inl hc
      · exact Or.inr ⟨i, _, List.mem_cons_self, List.mem_filter.mpr ⟨hcb, by simpa using hc⟩⟩
    · rcases ih h _ with hc | ⟨k, proxies, hk, hmem⟩
      · rcases List.mem_append.mp hc with hc | hc
        · exact Or.inl hc
        · exact Or.inr ⟨j, _, List.mem_cons_self, hc⟩
      · exact Or.inr ⟨k, proxies, List.mem_cons_of_mem _ hk, hmem⟩

/-! ### Files -/

variable {c : Catalog} {s : Settings}

theorem services_eq_ok {claimed : List String} {is : List Interface} {types : List TypeDecl} :
    services lang c s claimed is = .ok types ↔
      ∃ groups, List.Forall₂
        (fun claim g => serviceTypes lang (.ofInterface c s claim.1) claim.1 claim.2 = .ok g)
        (proxyClaims claimed is) groups ∧ types = groups.flatten := by
  -- one service claims before the next is generated
  induction is generalizing claimed types with
  | nil =>
    simp only [services, proxyClaims, List.forall₂_nil_left_iff, exists_eq_left, List.flatten_nil,
      Except.ok.injEq, eq_comm]
  | cons i is ih =>
    simp only [services, proxyClaims, bind_eq_ok, pure_eq_ok, ih, List.forall₂_cons_left_iff]
    constructor
    · rintro ⟨g, hg, _, ⟨groups, hgroups, rfl⟩, rfl⟩
      exact ⟨g :: groups, ⟨g, groups, hg, hgroups, rfl⟩, rfl⟩
    · rintro ⟨_, ⟨g, groups, hg, hgroups, rfl⟩, rfl⟩
      exact ⟨g, hg, _, ⟨groups, hgroups, rfl⟩, rfl⟩

theorem file_eq_ok {f : SourceFile} :
    file c s = .ok f ↔ ∃ types, services s.lang c s [] c.services = .ok types ∧
      f = {
        name := s.lang.fileName s.moduleName
        header := s.header
        package := s.lang.package? s
        imports := s.lang.fileImports s
        members :=
          registries s.lang c ++ c.records.map (fun r => (recordType s.lang r).member) ++
            c.callbacks.map (fun i => (callbackType s.lang i).member) ++
              types.map (·.member) } := by
  simp only [file, bind_eq_ok, pure_eq_ok, eq_comm (b := f)]

theorem mem_registries {d : Member} :
    d ∈ registries lang c ↔ c.callbacks ≠ [] ∧
      (d = lang.registryType ∨ ∃ i ∈ c.callbacks, d = .field (lang.registryField i.name)) := by
  unfold registries
  by_cases h : c.callbacks = []
  · simp [h]
  · rw [if_neg (by simpa using h), List.mem_cons, List.mem_map]
    simp only [ne_eq, h, not_false_eq_true, true_and, eq_comm (b := d)]

structure HasService (c : Catalog) (s : Settings) (i : Interface) (proxies : List String)
    (funcs : List (Func × Option Func)) (taken : List (List Member))
    (made : List (TypeDecl × List Func)) : Prop where
  claim : (i, proxies) ∈ proxyClaims [] c.services
  parts : ServiceParts s.lang (.ofInterface c s i) i proxies funcs taken made

theorem mem_types {types : List TypeDecl} (h : services s.lang c s [] c.services = .ok types)
    {t : TypeDecl} :
    t ∈ types ↔ ∃ i proxies funcs taken made, HasService c s i proxies funcs taken made ∧
      (t = ⟨serviceHead i, serviceMembers s.lang (.ofInterface c s i) funcs taken made⟩ ∨
        ∃ r ∈ made, t = r.1) := by
  obtain ⟨groups, hgroups, rfl⟩ := services_eq_ok.mp h
  rw [List.mem_flatten]
  constructor
  · rintro ⟨g, hg, ht⟩
    obtain ⟨⟨i, proxies⟩, hclaim, htypes⟩ := forall₂_exists_left hgroups hg
    obtain ⟨funcs, taken, made, hparts, rfl⟩ := serviceTypes_eq_ok.mp htypes
    refine ⟨i, proxies, funcs, taken, made, ⟨hclaim, hparts⟩, ?_⟩
    rcases List.mem_cons.mp ht with rfl | ht
    · exact Or.inl rfl
    · obtain ⟨r, hr, rfl⟩ := List.mem_map.mp ht
      exact Or.inr ⟨r, hr, rfl⟩
  · rintro ⟨i, proxies, funcs, taken, made, ⟨hclaim, hparts⟩, ht⟩
    obtain ⟨g, hg, htypes⟩ := forall₂_exists_right hgroups hclaim
    rw [serviceTypes_eq_ok.mpr ⟨funcs, taken, made, hparts, rfl⟩] at htypes
    refine ⟨g, hg, ?_⟩
    rw [← Except.ok.inj htypes, List.mem_cons]
    exact ht.imp_right fun ⟨r, hr, heq⟩ => List.mem_map.mpr ⟨r, hr, heq.symm⟩

/-- The declarations of a file are registries, records, callback interfaces, services and
proxies. -/
theorem mem_members {f : SourceFile} (h : file c s = .ok f) {d : Member} :
    d ∈ f.members ↔
      d ∈ registries s.lang c ∨ (∃ r ∈ c.records, d = (recordType s.lang r).member) ∨
        (∃ i ∈ c.callbacks, d = (callbackType s.lang i).member) ∨
        ∃ i proxies funcs taken made, HasService c s i proxies funcs taken made ∧
          (d = .type (serviceHead i)
              (serviceMembers s.lang (.ofInterface c s i) funcs taken made) ∨
            ∃ r ∈ made, d = r.1.member) := by
  obtain ⟨types, htypes, rfl⟩ := file_eq_ok.mp h
  simp only [List.mem_append, List.mem_map, or_assoc, eq_comm (b := d)]
  -- the first three kinds stand in the file as they are
  apply or_congr_right
  apply or_congr_right
  apply or_congr_right
  constructor
  · rintro ⟨t, ht, rfl⟩
    obtain ⟨i, proxies, funcs, taken, made, hservice, ht⟩ := (mem_types htypes).mp ht
    refine ⟨i, proxies, funcs, taken, made, hservice, ?_⟩
    rcases ht with rfl | ⟨r, hr, rfl⟩
    · exact Or.inl rfl
    · exact Or.inr ⟨r, hr, rfl⟩
  · rintro ⟨i, proxies, funcs, taken, made, hservice, rfl | ⟨r, hr, rfl⟩⟩
    · exact ⟨_, (mem_types htypes).mpr ⟨i, proxies, funcs, taken, made, hservice, Or.inl rfl⟩, rfl⟩
    · exact ⟨r.1,
        (mem_types htypes).mpr ⟨i, proxies, funcs, taken, made, hservice, Or.inr ⟨r, hr, rfl⟩⟩, rfl⟩

theorem registryType_mem_members {f : SourceFile} (h : file c s = .ok f) (hne : c.callbacks ≠ []) :
    s.lang.registryType ∈ f.members :=
  (mem_members h).mpr (Or.inl (mem_registries.mpr ⟨hne, Or.inl rfl⟩))

theorem service_mem_members {f : SourceFile} (h : file c s = .ok f)
    {funcs : List (Func × Option Func)} {taken : List (List Member)}
    {made : List (TypeDecl × List Func)} (hs : HasService c s i proxies funcs taken made) :
    .type (serviceHead i) (serviceMembers s.lang (.ofInterface c s i) funcs taken made) ∈
      f.members :=
  (mem_members h).mpr (Or.inr (Or.inr (Or.inr ⟨i, proxies, funcs, taken, made, hs, Or.inl rfl⟩)))

theorem proxy_mem_members {f : SourceFile} (h : file c s = .ok f)
    {funcs : List (Func × Option Func)} {taken : List (List Member)}
    {made : List (TypeDecl × List Func)} (hs : HasService c s i proxies funcs taken made)
    {r : TypeDecl × List Func} (hr : r ∈ made) : r.1.member ∈ f.members :=
  (mem_members h).mpr (Or.inr (Or.inr (Or.inr
    ⟨i, proxies, funcs, taken, made, hs, Or.inr ⟨r, hr, rfl⟩⟩)))

/-- Every claim is met by a service of the file. -/
theorem exists_hasService_of_claim {f : SourceFile} (h : file c s = .ok f)
    (hclaim : (i, proxies) ∈ proxyClaims [] c.services) :
    ∃ funcs taken made, HasService c s i proxies funcs taken made := by
  obtain ⟨types, htypes, _⟩ := file_eq_ok.mp h
  obtain ⟨groups, hgroups, _⟩ := services_eq_ok.mp htypes
  obtain ⟨g, _, hg⟩ := forall₂_exists_right hgroups hclaim
  obtain ⟨funcs, taken, made, hparts, _⟩ := serviceTypes_eq_ok.mp hg
  exact ⟨funcs, taken, made, hclaim, hparts⟩

/-- Every service of the catalog is one of the file. -/
theorem exists_hasService {f : SourceFile} (h : file c s = .ok f) (hi : i ∈ c.services) :
    ∃ proxies funcs taken made, HasService c s i proxies funcs taken made := by
  obtain ⟨proxies, hclaim⟩ := exists_proxyClaims hi []
  exact ⟨proxies, exists_hasService_of_claim h hclaim⟩

/-- The proxy of a callback that some service returns is in the file, whichever service makes it. -/
theorem exists_returnedProxy {f : SourceFile} (h : file c s = .ok f) (hi : i ∈ c.services)
    (hcb : callback ∈ i.callbackReturns) :
    ∃ k ∈ c.services, ∃ r, proxy s.lang (.ofInterface c s k) callback = .ok r ∧
      r.1.member ∈ f.members := by
  rcases claimed_or_mem_proxyClaims hi hcb [] with hc | ⟨k, proxies, hclaim, hmem⟩
  · exact absurd hc List.not_mem_nil
  · obtain ⟨funcs, taken, made, hs⟩ := exists_hasService_of_claim h hclaim
    obtain ⟨r, hr, hproxy⟩ := forall₂_exists_right hs.parts.made hmem
    exact ⟨k, (mem_proxyClaims hclaim).1, r, hproxy, proxy_mem_members h hs hr⟩

/-! ### Files of valid catalogs exist -/

theorem declared_of_service (hc : c.Valid) (hi : i ∈ c.services) (hm : m ∈ i.methods) :
    m.Declared c :=
  fun t ht name hname => Catalog.exists_callback? (hc.callback_declared i hi m hm t ht name hname)

theorem declared_of_callback (hc : c.Valid) (hi : i ∈ c.callbacks) (hm : m ∈ i.methods) :
    m.Declared c := by
  intro t ht name hname
  rw [hc.callback_flat i hi m hm t ht] at hname
  cases hname

theorem exists_nativeCall (o : Ownership) (m : Method) : ∃ p, Marshal.nativeCall o m = .ok p :=
  Marshal.exists_planMethod (Or.inr ⟨rfl, rfl⟩)

theorem exists_serviceMethod (h : m.Declared ctx.catalog) :
    ∃ r, serviceMethod lang ctx m = .ok r := by
  obtain ⟨p, hp⟩ := exists_nativeCall lang.ownership m
  obtain ⟨body, hbody⟩ := exists_nativeCallBody hp h (.method m.name) []
  exact ⟨_, serviceMethod_eq_ok.mpr ⟨p, body, hp, hbody, rfl⟩⟩

theorem exists_proxyFunc (h : m.Declared ctx.catalog) :
    ∃ r, proxyFunc lang ctx callback m = .ok r := by
  obtain ⟨p, hp⟩ := exists_nativeCall lang.ownership m
  obtain ⟨body, hbody⟩ :=
    exists_nativeCallBody hp h (.callbackMethod callback m.name) [nativeHandle]
  exact ⟨_, proxyFunc_eq_ok.mpr ⟨p, body, hp, hbody, rfl⟩⟩

theorem exists_methodTrampoline (h : m.Declared ctx.catalog)
    (hflat : ∀ t ∈ m.types, t.callbackName? = none) :
    ∃ t, methodTrampoline lang ctx callback m = .ok t := by
  obtain ⟨p, hp⟩ : ∃ p, Marshal.trampoline lang.ownership m = .ok p :=
    Marshal.exists_planMethod (Or.inl hflat)
  obtain ⟨body, hbody⟩ := exists_trampolineBody hp h callback
  exact ⟨_, methodTrampoline_eq_ok.mpr ⟨p, body, hp, hbody, rfl⟩⟩

variable (hc : ctx.catalog.Valid)

include hc

theorem exists_trampolines (h : ∃ j ∈ ctx.catalog.callbacks, j.name = callback) :
    ∃ ts, trampolines lang ctx callback = .ok ts := by
  obtain ⟨j, hj⟩ := Catalog.exists_callback? h
  -- a callback interface passes no callbacks, so its methods have trampolines
  have hmem := (Catalog.callback?_eq_some hj).1
  obtain ⟨ms, hms⟩ := exists_mapM (f := methodTrampoline lang ctx callback) fun m hm =>
    exists_methodTrampoline (declared_of_callback hc hmem hm) (hc.callback_flat j hmem m hm)
  exact ⟨_, trampolines_eq_ok.mpr ⟨j, ms, hj, mapM_eq_ok.mp hms, rfl⟩⟩

theorem exists_proxy (h : ∃ j ∈ ctx.catalog.callbacks, j.name = callback) :
    ∃ r, proxy lang ctx callback = .ok r := by
  obtain ⟨j, hj⟩ := Catalog.exists_callback? h
  have hmem := (Catalog.callback?_eq_some hj).1
  obtain ⟨funcs, hfuncs⟩ := exists_mapM (f := proxyFunc lang ctx callback) fun m hm =>
    exists_proxyFunc (declared_of_callback hc hmem hm)
  exact ⟨_, proxy_eq_ok.mpr ⟨j, funcs, hj, mapM_eq_ok.mp hfuncs, rfl⟩⟩

theorem exists_serviceTypes (hi : i ∈ ctx.catalog.services) (hp : proxies ⊆ i.callbackReturns) :
    ∃ types, serviceTypes lang ctx i proxies = .ok types := by
  obtain ⟨funcs, hfuncs⟩ := exists_mapM (f := serviceMethod lang ctx) fun m hm =>
    exists_serviceMethod (declared_of_service hc hi hm)
  have hi' := (Catalog.mem_services.mp hi).1
  obtain ⟨taken, htaken⟩ := exists_mapM (f := trampolines lang ctx) fun cb hcb =>
    exists_trampolines hc (hc.of_mem_callbackParams hi' hcb).2
  obtain ⟨made, hmade⟩ := exists_mapM (f := proxy lang ctx) fun cb hcb =>
    exists_proxy hc (hc.of_mem_callbackReturns hi' (hp hcb)).2
  exact ⟨_, serviceTypes_eq_ok.mpr ⟨funcs, taken, made,
    ⟨mapM_eq_ok.mp hfuncs, mapM_eq_ok.mp htaken, mapM_eq_ok.mp hmade⟩, rfl⟩⟩

omit hc in
/-- A file can be generated for every valid catalog. -/
theorem exists_file (hc : c.Valid) (s : Settings) : ∃ f, file c s = .ok f := by
  have htypes : ∀ claim ∈ proxyClaims [] c.services,
      ∃ g, serviceTypes s.lang (.ofInterface c s claim.1) claim.1 claim.2 = .ok g := by
    intro claim hclaim
    obtain ⟨hi, hp⟩ := mem_proxyClaims hclaim
    exact exists_serviceTypes hc hi hp
  obtain ⟨groups, hgroups⟩ := exists_mapM htypes
  have hservices := services_eq_ok.mpr ⟨groups, mapM_eq_ok.mp hgroups, rfl⟩
  exact ⟨_, file_eq_ok.mpr ⟨_, hservices, rfl⟩⟩

end HostBindings.Generate
