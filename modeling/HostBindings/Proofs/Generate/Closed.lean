import HostBindings.Proofs.Generate.Members
import HostBindings.Proofs.Generate.Outcome
import HostBindings.Proofs.Generate.References

/-!
Generated files are closed. Registries, trampolines, native functions and proxies that code refers
to are declared in the same file, although conversions, trampolines, proxies and native
declarations are generated apart from each other.
-/

namespace HostBindings

open HostBindings.Code HostBindings.Target

variable {lang : Lang} {ctx : Context} {p : CallPlan} {m : Method}

/-! ### Declared names -/

def Code.SourceFile.HasType (f : SourceFile) (kind : TypeKind) (name : String)
    (P : List Member → Prop) : Prop :=
  ∃ head members, .type head members ∈ f.members ∧ head.kind = kind ∧ head.name = name ∧ P members

/-- What it takes for a name that `caller` refers to. A registry is a field at the top of the file.
A model gets one trampoline for each method of its interface, in order, then the one that releases
and the handle, and its owner has these trampolines. A native function, where the language declares
them, is an external function of its owner with as many parameters as the call has arguments, and
is visible to the caller. A proxy is a type of the file. -/
def Code.Reference.DeclaredIn (lang : Lang) (c : Catalog) (f : SourceFile) (caller : Member) :
    Reference → Prop
  | .registry callback =>
    ∃ fd, .field fd ∈ f.members ∧ fd.name = Naming.registryName callback
  | .model scope callback methods handle =>
    ∃ j, c.callback? callback = some j ∧
      Swift.modelArgs scope.owner callback methods handle =
        (j.methods.map fun m =>
          ⟨some m.name, scope.owner ++ "." ++ Naming.trampolineName callback m.name⟩) ++
          [⟨some "free_callback", scope.owner ++ "." ++ Naming.releaseTrampolineName callback⟩,
           ⟨some "index", handle⟩] ∧
      f.HasType .holder scope.owner fun members =>
        (∀ m ∈ j.methods, Naming.trampolineName callback m.name ∈ members.map (·.name)) ∧
          Naming.releaseTrampolineName callback ∈ members.map (·.name)
  | .native scope symbol arity =>
    lang = .kotlin →
      f.HasType .holder scope.owner fun members =>
        ∃ fn, .func fn ∈ members ∧ fn.name = lang.symbolName scope symbol ∧
          .external ∈ fn.modifiers ∧ fn.params.length = arity ∧
          ((∃ cb ds, caller = .type (Generate.proxyHead lang cb) ds) → .hidden ∉ fn.modifiers)
  | .proxy callback => f.HasType .object (Naming.proxyName callback) fun _ => True

namespace Generate

variable {c : Catalog} {s : Settings} {f : SourceFile} {i : Interface} {callback : String}

/-- The trampolines of a callback interface have the names that its model refers to. -/
theorem trampolines_names {j : Interface} {ts : List Member}
    (h : trampolines lang ctx callback = .ok ts) (hj : ctx.catalog.callback? callback = some j) :
    (∀ m ∈ j.methods, Naming.trampolineName callback m.name ∈ ts.map (·.name)) ∧
      Naming.releaseTrampolineName callback ∈ ts.map (·.name) := by
  obtain ⟨j', ms, hj', hms, rfl⟩ := trampolines_eq_ok.mp h
  obtain rfl : j' = j := Option.some.inj (hj'.symm.trans hj)
  rw [List.map_append]
  constructor
  · intro m hm
    obtain ⟨t, ht, hok⟩ := forall₂_exists_right hms hm
    obtain ⟨p, body, _, _, rfl⟩ := methodTrampoline_eq_ok.mp hok
    exact List.mem_append_left _ (List.mem_map.mpr ⟨_, ht, trampoline_name ..⟩)
  · exact List.mem_append_right _ (List.mem_singleton.mpr (trampoline_name ..).symm)

/-- The declaration of a native function has a parameter for each leading one and each argument. -/
theorem nativeDecl_params {symbol : Symbol} {visibility : Modifier} {leading : List Param}
    (hl : lang = .kotlin) (hplan : Marshal.nativeCall lang.ownership m = .ok p) :
    ∃ fn, nativeDecl? lang ctx symbol visibility leading p = some fn ∧
      fn.name = lang.symbolName ctx.scope symbol ∧
      fn.modifiers = [visibility, .static, .external] ∧
      fn.params.length = leading.length + m.passed.length := by
  subst hl
  refine ⟨_, rfl, rfl, rfl, ?_⟩
  -- one parameter for each argument that is passed
  have hlen : ((wireParams .kotlin ctx p).map (·.name)).length =
      (m.passed.map fun s => Lang.kotlin.hostName s.name).length :=
    congrArg List.length (wireParams_names hplan)
  rw [List.length_map, List.length_map] at hlen
  show (leading ++ wireParams .kotlin ctx p).length = _
  rw [List.length_append, hlen]

theorem service_not_proxy {members ds : List Member} :
    Member.type (serviceHead i) members ≠ .type (proxyHead lang callback) ds := by
  intro heq
  cases congrArg TypeHead.kind (Member.type.inj heq).1

section File

variable (h : file c s = .ok f) {proxies : List String} {funcs : List (Func × Option Func)}
  {taken : List (List Member)} {made : List (TypeDecl × List Func)}
  (hs : HasService c s i proxies funcs taken made)

include h

theorem registry_declared {j : Interface} (hj : j ∈ c.callbacks) :
    ∃ fd, .field fd ∈ f.members ∧ fd.name = Naming.registryName j.name := by
  have hmem : .field (s.lang.registryField j.name) ∈ registries s.lang c :=
    mem_registries.mpr ⟨List.ne_nil_of_mem hj, Or.inr ⟨j, hj, rfl⟩⟩
  refine ⟨_, (mem_members h).mpr (Or.inl hmem), ?_⟩
  cases s.lang <;> rfl

include hs

/-- The type of a service, with all its members. -/
theorem service_hasType {P : List Member → Prop}
    (hP : P (serviceMembers s.lang (.ofInterface c s i) funcs taken made)) :
    f.HasType .holder i.name P :=
  ⟨_, _, service_mem_members h hs, rfl, rfl, hP⟩

theorem model_declared {j : Interface} {caller : Member} (handle : String)
    (hcb : callback ∈ i.callbackParams) (hj : c.callback? callback = some j) :
    (Reference.model (Context.ofInterface c s i).scope callback (j.methods.map (·.name))
      handle).DeclaredIn s.lang c f caller := by
  obtain ⟨ts, hts, hok⟩ := forall₂_exists_right hs.parts.taken hcb
  obtain ⟨hmethods, hrelease⟩ := trampolines_names hok hj
  refine ⟨j, hj, ?_, ?_⟩
  · rw [Swift.modelArgs, List.map_map]
    rfl
  · apply service_hasType h hs
    exact ⟨fun m hm => List.map_subset _ (subset_serviceMembers hts) (hmethods m hm),
      List.map_subset _ (subset_serviceMembers hts) hrelease⟩

variable {caller : Member} {j : Interface}

/-- What a service method calls is a private function of its own type. -/
theorem method_declared (hm : m ∈ i.methods)
    (hcaller : ∀ cb ds, caller ≠ .type (proxyHead s.lang cb) ds) :
    (Reference.native (Context.ofInterface c s i).scope (.method m.name)
      m.passed.length).DeclaredIn s.lang c f caller := by
  intro hl
  obtain ⟨r, hr, hok⟩ := forall₂_exists_right hs.parts.methods hm
  obtain ⟨p, body, hplan, _, rfl⟩ := serviceMethod_eq_ok.mp hok
  obtain ⟨fn, hfn, hname, hmods, hlen⟩ := nativeDecl_params hl hplan
  apply service_hasType h hs
  refine ⟨fn, mem_serviceMembers_of_native (Or.inl ⟨_, hr, hfn⟩), hname, ?_, ?_, ?_⟩
  · rw [hmods]
    decide
  · rw [hlen, List.length_nil, Nat.zero_add]
  · rintro ⟨cb, ds, heq⟩
    exact absurd heq (hcaller cb ds)

/-- What a method of a proxy calls is a function of the service that makes the proxy, and not a
private one. -/
theorem proxyMethod_declared (hcb : callback ∈ proxies) (hj : c.callback? callback = some j)
    (hm : m ∈ j.methods) :
    (Reference.native (Context.ofInterface c s i).scope (.callbackMethod callback m.name)
      (1 + m.passed.length)).DeclaredIn s.lang c f caller := by
  intro hl
  obtain ⟨r, hr, hproxy⟩ := forall₂_exists_right hs.parts.made hcb
  obtain ⟨j', fs, hj', hfs, rfl⟩ := proxy_eq_ok.mp hproxy
  obtain rfl : j' = j := Option.some.inj (hj'.symm.trans hj)
  obtain ⟨r, hrfs, hok⟩ := forall₂_exists_right hfs hm
  obtain ⟨p, body, hplan, _, rfl⟩ := proxyFunc_eq_ok.mp hok
  obtain ⟨fn, hfn, hname, hmods, hlen⟩ := nativeDecl_params hl hplan
  -- the service that makes the proxy declares what it calls
  have hmem : fn ∈ fs.filterMap (·.2) ++
      (releaseDecl? s.lang (.ofInterface c s i) callback).toList :=
    List.mem_append_left _ (List.mem_filterMap.mpr ⟨_, hrfs, hfn⟩)
  apply service_hasType h hs
  refine ⟨fn, mem_serviceMembers_of_native (Or.inr ⟨_, hr, hmem⟩), hname, ?_, hlen, fun _ => ?_⟩
  · rw [hmods]
    decide
  · rw [hmods]
    decide

/-- What a proxy calls to release its callback is such a function too. -/
theorem release_declared (hcb : callback ∈ proxies) :
    (Reference.native (Context.ofInterface c s i).scope (.callbackRelease callback)
      1).DeclaredIn s.lang c f caller := by
  intro hl
  obtain ⟨r, hr, hproxy⟩ := forall₂_exists_right hs.parts.made hcb
  obtain ⟨j, fs, hj, hfs, rfl⟩ := proxy_eq_ok.mp hproxy
  -- only Kotlin declares native functions
  have hdecl : ∃ fn, releaseDecl? s.lang (.ofInterface c s i) callback = some fn ∧
      fn.name = s.lang.symbolName (Context.ofInterface c s i).scope (.callbackRelease callback) ∧
      fn.modifiers = [.exposed, .static, .external] ∧ fn.params.length = 1 := by
    unfold releaseDecl?
    rw [hl]
    exact ⟨_, rfl, rfl, rfl, rfl⟩
  obtain ⟨fn, hfn, hname, hmods, hlen⟩ := hdecl
  have hmem : fn ∈ fs.filterMap (·.2) ++
      (releaseDecl? s.lang (.ofInterface c s i) callback).toList :=
    List.mem_append_right _ (Option.mem_toList.mpr hfn)
  apply service_hasType h hs
  refine ⟨fn, mem_serviceMembers_of_native (Or.inr ⟨_, hr, hmem⟩), hname, ?_, hlen, fun _ => ?_⟩
  · rw [hmods]
    decide
  · rw [hmods]
    decide

omit hs in
/-- The proxy of a callback that some service returns is in the file. -/
theorem returned_declared (hi : i ∈ c.services) (hcb : callback ∈ i.callbackReturns) :
    f.HasType .object (Naming.proxyName callback) fun _ => True := by
  obtain ⟨k, _, r, hproxy, hmem⟩ := exists_returnedProxy h hi hcb
  obtain ⟨j, fs, _, _, rfl⟩ := proxy_eq_ok.mp hproxy
  exact ⟨_, _, hmem, rfl, rfl, trivial⟩

end File

/-! ### Whole files -/

section Closed

variable (hc : c.Valid) (h : file c s = .ok f) {proxies : List String}
  {funcs : List (Func × Option Func)} {taken : List (List Member)}
  {made : List (TypeDecl × List Func)} (hs : HasService c s i proxies funcs taken made)
  {caller : Member}

theorem native_declared_swift {symbol : Symbol} {n : Nat} (hl : s.lang = .swift) :
    (Reference.native (Context.ofInterface c s i).scope symbol n).DeclaredIn s.lang c f caller := by
  intro hk
  rw [hl] at hk
  cases hk

include hc h hs

/-- The code of a service refers to declared names. -/
theorem service_closed (hcaller : ∀ cb ds, caller ≠ .type (proxyHead s.lang cb) ds) :
    (Member.type (serviceHead i)
      (serviceMembers s.lang (.ofInterface c s i) funcs taken made)).Runs
        fun st => ∀ r ∈ st.references, r.DeclaredIn s.lang c f caller := by
  have hi := (mem_proxyClaims hs.claim).1
  have hregistry : ∀ cb, cb ∈ i.callbackParams →
      (Reference.registry cb).DeclaredIn s.lang c f caller := by
    intro cb hcb
    obtain ⟨j, hj, rfl⟩ := (hc.of_mem_callbackParams (Catalog.mem_services.mp hi).1 hcb).2
    exact registry_declared h hj
  refine runs_service hs.parts ?_ ?_ ?_ ?_
  · exact fun _ r hr => absurd hr List.not_mem_nil
  · intro m hm p body hplan hbody
    apply refersTo_nativeCallBody hplan hbody fun hl _ _ => native_declared_swift hl
    · rw [List.length_nil, Nat.zero_add]
      exact method_declared h hs hm hcaller
    · intro slot hslot cb ht
      have hcb : cb ∈ i.callbackParams := Interface.mem_callbackParams.mpr
        ⟨m, hm, slot, hslot, BoundaryType.callbackName?_eq_some.mpr ht⟩
      exact ⟨hregistry cb hcb, fun _ handle hj => model_declared h hs handle hcb hj⟩
    · -- the proxy may stand with another service
      intro cb ht
      exact returned_declared h hi (Interface.mem_callbackReturns.mpr
        ⟨m, hm, BoundaryType.callbackName?_eq_some.mpr ht⟩)
  · intro cb hcb j hj m hm p body hplan hbody
    exact refersTo_trampolineBody hplan hbody
      (hc.callback_flat j (Catalog.callback?_eq_some hj).1 m hm)
      (fun hl _ _ => native_declared_swift hl) (hregistry cb hcb)
  · intro cb hcb r hr
    rw [List.mem_singleton.mp hr]
    exact hregistry cb hcb

/-- The code of a proxy refers to declared names, among them functions of the service that makes
the proxy. -/
theorem proxy_closed {r : TypeDecl × List Func} (hcb : callback ∈ proxies)
    (hproxy : proxy s.lang (.ofInterface c s i) callback = .ok r) :
    r.1.member.Runs fun st => ∀ r ∈ st.references, r.DeclaredIn s.lang c f caller := by
  refine runs_proxy hproxy ?_ ?_
  · intro j hj m hm p body hplan hbody
    -- methods of a proxy pass no callbacks, so only their calls refer to anything
    have hflat : ∀ t ∈ m.types, ∀ cb, t ≠ .callback cb := by
      rintro _ ht cb rfl
      cases hc.callback_flat j (Catalog.callback?_eq_some hj).1 m hm _ ht
    apply refersTo_nativeCallBody hplan hbody fun hl _ _ => native_declared_swift hl
    · exact proxyMethod_declared h hs hcb hj hm
    · exact fun slot hslot cb ht => absurd ht (hflat _ (Method.mem_types_of_mem_params hslot) cb)
    · exact fun cb ht => absurd ht (hflat _ m.returns_mem_types cb)
  · intro r hr
    rw [List.mem_singleton.mp hr]
    exact release_declared h hs hcb

end Closed

/-- Every generated name that the code of a generated file refers to is declared in the file. The
type of registries, whose code is written out, refers to none. -/
theorem references_declared {a : Artifact} (h : artifact c s = .ok a) :
    ∃ f, file c s = .ok f ∧ Layout.renderFile s.lang s.indent f = .ok a.contents ∧
      ∀ d ∈ f.members, d = s.lang.registryType ∨
        ∀ item ∈ d.leaves, ∃ st, item = .stmt st ∧
          ∀ r ∈ st.references, r.DeclaredIn s.lang c f d := by
  obtain ⟨hc, _, f, hf, hcontents⟩ := artifact_eq_ok h
  refine ⟨f, hf, hcontents, ?_⟩
  intro d hd
  refine runs_members hf hd ?_ ?_
  · rintro i proxies funcs taken made hs rfl
    exact service_closed hc hf hs fun _ _ => service_not_proxy
  · rintro i proxies funcs taken made hs cb hcb r hr rfl
    exact proxy_closed hc hf hs hcb hr

/-- Two services that return the same callback interface, one of which takes it as well. -/
def sharedCatalog : Catalog where
  interfaces :=
    [⟨"Listener", "lib", "lib", true,
      [⟨"on_data", .single .string, "String", [⟨"data", .vec (.numeric .byte), "Vec<u8>"⟩]⟩]⟩,
     ⟨"First", "lib", "lib", false, [⟨"make", .callback "Listener", "Box<dyn Listener>", []⟩]⟩,
     ⟨"Second", "lib", "lib", false,
      [⟨"swap", .callback "Listener", "Box<dyn Listener>",
        [⟨"old", .callback "Listener", "Box<dyn Listener>"⟩]⟩]⟩]
  records := []

def sharedSettings : Settings :=
  { Settings.forModule "com.demo" with lang := .kotlin }

theorem references_declared_shared :
    ∃ a f, artifact sharedCatalog sharedSettings = .ok a ∧
      file sharedCatalog sharedSettings = .ok f ∧
      ∀ d ∈ f.members, d = Lang.kotlin.registryType ∨
        ∀ item ∈ d.leaves, ∃ st, item = .stmt st ∧
          ∀ r ∈ st.references, r.DeclaredIn .kotlin sharedCatalog f d := by
  have hs : sharedSettings.check = .ok () := by decide
  have hc : sharedCatalog.check = .ok () := by decide
  have hn : catalogCollision? sharedSettings.lang sharedCatalog = none := by decide
  obtain ⟨_, _, _, _, ha⟩ := artifact_of_checks hs hc hn
  obtain ⟨f, hf, _, hdeclared⟩ := references_declared ha
  exact ⟨_, f, ha, hf, hdeclared⟩

end Generate

end HostBindings
